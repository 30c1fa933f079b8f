import ZigbeeStack.Coordinator
import ZigbeeStack.RadioCommands
import ZigbeeStack.RadioTasks

/-! The MAC above the driver, and the radio behind the port: what the MAC asks of the radio gets
there in order, once at most, and the MAC hears of nothing but what the radio did. -/
namespace ZigbeeStack
open Runs

def MainloopSend.arrival : MainloopSend → Arrival
  | .mlme input => input.arrival
  | .mcps request => .mcpsRequest request

namespace MacTask
variable {τ : Type}

def radioSent (task : MacTask τ) : List RadioRequest :=
  (task.mac.map (·.radioRequests.items)).getD []

def heard : MacTask τ → Bool
  | .processing _ (.arrival (.radio _)) => true
  | _ => false

end MacTask

/-- The MAC, the driver and the radio. The channels between the first two have no room, so that
the MAC waits until its request is taken, and the response task until its response is. `outcomes`
says how each message went that the radio has received and not answered. -/
structure Stack (τ : Type) where
  mac : MacTask τ
  request : Option RadioRequest
  driver : Radio.RadioService
  taken : Bool
  radio : RadioState
  outcomes : List Bool

namespace Stack
variable {τ : Type}

def start (pib : PIB) (radio : RadioState) : Stack τ :=
  ⟨.polling (.new pib), none, .new, false, radio, []⟩

/- The steps of the MAC, of which the poll finds `upper` in the streams of the layer above, those
of the driver's two tasks, and those of the line and the radio. -/
inductive Event where
  | poll (cx : Waker) (key : UniqueKey) (params : List RadioParam)
      (rounds : List (List (Option FullAddress × Instant))) (upper : Poll (Option MainloopSend))
  | process (draws : Draws)
  | request
  | register (requestId : UInt16)
  | send (written : Bool)
  | transmit (arrives success : Bool) (garbage : RadioState)
  | answer (index : Nat) (good : Bool) (data : List UInt8)
  | report (message : RawRadioMessage)
  | next
  | remove
  | responded

def offered (self : Stack τ) : Option RadioResponse :=
  if self.taken then none
  else
    match self.driver.responseTask with
    | .sendResponse response _ => some response.toMac
    | .sendPacket packet => some (.onPacket packet)
    | _ => none

def arrival (self : Stack τ) (upper : Poll (Option MainloopSend)) : Poll (Option Arrival) :=
  match self.offered with
  | some response => .ready (some (.radio response))
  | none =>
    match upper with
    | .ready input => .ready (input.map (·.arrival))
    | .pending => .pending

def execute (self : Stack τ) (success : Bool) (garbage : RadioState) (message : RawRadioMessage) :
    Stack τ :=
  { self with
    radio :=
      match Radio.commandOf message.commandId message.data with
      | some command => self.radio.run success garbage command
      | none => self.radio
    outcomes := self.outcomes ++ [success] }

def drive (self : Stack τ) (event : Radio.Event) : Option (Stack τ) :=
  (self.driver.step event).map fun out => { self with driver := out.1 }

variable [Sleep τ]

/-- One step. A response is sent to a MAC that has panicked in vain, and without waiting. -/
def step (self : Stack τ) : Event → Option (Stack τ × Unit)
  | .poll cx key params rounds upper =>
    if self.request.isSome then none
    else
      match self.mac.step (.poll ⟨cx, key, params, rounds, self.arrival upper⟩) with
      | some (mac, _) => some ({ self with mac := mac, taken := self.taken || mac.heard }, ())
      | none => none
  | .process draws =>
    match self.mac.step (.process draws) with
    | some (mac, _) =>
      some ({ self with
        mac := mac
        request := (mac.radioSent.drop self.mac.radioSent.length).head? }, ())
    | none => none
  | .request =>
    match self.request with
    | some request =>
      (self.drive (.request request.toDriver)).map fun self => ({ self with request := none }, ())
    | none => none
  | .register requestId => (self.drive (.register requestId)).map fun self => (self, ())
  | .send written => (self.drive (.send written)).map fun self => (self, ())
  | .transmit arrives success garbage =>
    match self.driver.port with
    | carried :: _ =>
      (self.drive (.transmit arrives)).map fun self =>
        (if arrives then self.execute success garbage carried.message else self, ())
    | [] => none
  | .answer index good data =>
    (self.drive (.answer index good data)).map fun self =>
      ({ self with outcomes := self.outcomes.eraseIdx index }, ())
  | .report message => (self.drive (.report message)).map fun self => (self, ())
  | .next => (self.drive .next).map fun self => (self, ())
  | .remove => (self.drive .remove).map fun self => (self, ())
  | .responded =>
    if self.taken ∨ self.mac.isPanicked then
      (self.drive .responded).map fun self => ({ self with taken := false }, ())
    else none

end Stack

/-! What is on its way to the radio, and what is on its way back. -/

def MacInput.order : MacInput → Option RadioOrder
  | .management (.setParam key param value) => some ⟨key, .setParam param value⟩
  | .data (.initPendingTable key) => some ⟨key, .initTables⟩
  | .data (.setPendingShort key index value) => some ⟨key, .setShort index value⟩
  | .data (.setPendingExtended key index value) => some ⟨key, .setExtended index value⟩
  | _ => none

def MacTask.order {τ : Type} : MacTask τ → Option RadioOrder
  | .processing _ input => input.order
  | _ => none

def Radio.RequestTask.requests : Radio.RequestTask → List Radio.RadioRequest
  | .next => []
  | .lock _ _ _ request => [request]
  | .send carried => [carried.request]

def RadioCommand.kind : RadioCommand → CommandKind
  | .setParam _ _ => .setParam
  | .initTables => .initPendingTable
  | .setShort _ _ | .setExtended _ _ => .setPending

def RadioOrder.completion (order : RadioOrder) (success : Bool) : CommandKind × UniqueKey × Bool :=
  (order.command.kind, order.key, success)

namespace Stack
variable {τ : Type}

abbrev Step (τ : Type) := Transition (Stack τ) Event Unit
abbrev Past (τ : Type) := History (Stack τ) Event Unit

def orders (w : Stack τ) : List RadioOrder :=
  (w.driver.port.map (·.request) ++ w.driver.requestTask.requests).filterMap (·.order) ++
    ((w.request.bind (·.order)).toList ++ w.mac.order.toList)

inductive Settled (w : Stack τ) (c : CommandKind × UniqueKey × Bool) : Prop where
  | received {index : Nat} {carried : Radio.Carried} {success : Bool} :
      w.driver.received[index]? = some carried → w.outcomes[index]? = some success →
      carried.request.completion success = some c → Settled w c
  | incoming {message : RawRadioMessage} {request : Radio.RadioRequest} :
      (message, some request) ∈ w.driver.incoming →
      request.completion (decide (Radio.Good (Radio.answeredBy message))) = some c → Settled w c
  | answered {message : RawRadioMessage} {request : Radio.RadioRequest} :
      w.driver.responseTask = .lock message (some request) →
      request.completion (decide (Radio.Good (Radio.answeredBy message))) = some c → Settled w c
  | offered {response : Radio.RadioResponse} {request : Option Radio.RadioRequest} :
      w.driver.responseTask = .sendResponse response request →
      response.toMac.completion = some c → Settled w c
  | heard {mac : MacData τ} {response : RadioResponse} :
      w.mac = .processing mac (.arrival (.radio response)) →
      response.completion = some c → Settled w c

def given (t : Step τ) : List RadioOrder :=
  match t.event with
  | .poll _ _ _ _ _ => t.after.mac.order.toList
  | _ => []

def drawn (h : Past τ) : List UniqueKey := (h.flatMap given).map (·.key)

def Rely (h : Past τ) (w : Stack τ) : Event → Prop
  | .poll _ key _ _ _ => key ∉ drawn h
  | .report message => message.commandId ≠ .ok ∧ message.commandId ≠ .err
  | .answer index good data =>
    (good = true ∧ data = [0, 0]) ↔ w.outcomes[index]? = some true
  | _ => True

instance (h : Past τ) (w : Stack τ) (e : Event) : Decidable (Rely h w e) := by
  unfold Rely
  split <;> infer_instance

end Stack
end ZigbeeStack
