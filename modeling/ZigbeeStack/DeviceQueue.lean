import ZigbeeStack.Pib
import Mathlib.Tactic.Common

/-! The queue of one destination: its requests, the transmission of the front one, and the
action each poll returns. Timers are those of the executor, of any type `τ`. -/
namespace ZigbeeStack

structure DataRequest where
  key : UniqueKey
  destination : Option FullAddress
  sourceMode : AddressingMode
  acknowledgeRequest : Bool
  indirect : Bool
  content : FrameType
deriving DecidableEq, Repr

inductive DeviceQueueError where
  | transactionExpired
  | sendFailure
  | noAck
deriving DecidableEq, Repr

inductive DeviceQueueState (τ : Type) where
  | idle (datarequest : Bool)
  | sending (sendKey : UniqueKey) (ackRequested : Option UInt8) (ackPayload : List UInt8)
  | waitingForAck (ackRequested : UInt8) (timeout : τ)
  | haveResult (result : Except DeviceQueueError (List UInt8))
deriving DecidableEq, Repr

structure DeviceQueueEntry (τ : Type) where
  data : DataRequest
  retriesLeft : Nat
  timeout : τ
deriving DecidableEq, Repr

inductive DeviceQueueAction where
  | empty
  | setPending (pending : Bool)
  | sendFrame (sendKey : UniqueKey) (frame : Frame)
  | reportResult (key : UniqueKey) (result : Except DeviceQueueError (List UInt8))
deriving DecidableEq, Repr

structure DeviceQueue (τ : Type) where
  state : DeviceQueueState τ
  lastPendingReported : Option Bool
  entries : List (DeviceQueueEntry τ)
  waker : WakerStore
deriving DecidableEq, Repr

namespace DeviceQueue
variable {τ : Type} [Sleep τ]

def new : DeviceQueue τ := ⟨.idle false, none, [], WakerStore.new⟩

def contains (self : DeviceQueue τ) (key : UniqueKey) : Bool :=
  self.entries.any fun entry => entry.data.key == key

def insert (self : DeviceQueue τ) (pib : PIB) (entry : DataRequest) : Bool × DeviceQueue τ :=
  if self.contains entry.key then (false, self)
  else (true, { self with
    entries := self.entries ++
      [⟨entry, pib.macMaxFrameRetries.toNat, Sleep.sleep pib.macTransactionPersistenceTime⟩]
    waker := self.waker.wake })

def remove (self : DeviceQueue τ) (key : UniqueKey) : Bool × DeviceQueue τ :=
  let firstRemoved := self.entries.head?.any fun front => front.data.key == key
  let entries := self.entries.filter fun e => e.data.key != key
  let state := if firstRemoved then .idle false else self.state
  if firstRemoved || entries.length < self.entries.length then
    (true, { self with state := state, entries := entries, waker := self.waker.wake })
  else (false, { self with state := state, entries := entries })

def processDatarequest (self : DeviceQueue τ) : DeviceQueue τ :=
  { self with
    state := match self.state with
      | .idle _ => .idle true
      | state => state
    waker := self.waker.wake }

/- `morePending` announces an indirect entry right behind the one that is sent. -/
def createFrame (request : DataRequest) (pib : PIB) (morePending : Bool) :
    (Option UInt8 × Frame) × PIB :=
  let source := match request.sourceMode with
    | .none => none
    | .reserved => none
    | .short => some pib.getFullShortAddress
    | .extended => some pib.getFullExtendedAddress
  let (sequenceNr, pib) := pib.nextDataSequenceNr
  let frame : Frame := {
    framePending := morePending
    acknowledgeRequest := request.acknowledgeRequest
    sequenceNumber := some sequenceNr
    destination := request.destination
    source := source
    frameType := request.content }
  ((if request.acknowledgeRequest then some sequenceNr else none, frame), pib)

def sendFailed (self : DeviceQueue τ) : DeviceQueue τ :=
  match self.entries with
  | front :: rest =>
    if front.data.indirect then { self with state := .idle false }
    else if 0 < front.retriesLeft then
      { self with
        state := .idle false
        entries := { front with retriesLeft := front.retriesLeft - 1 } :: rest }
    else { self with state := .haveResult (.error .sendFailure) }
  | [] => { self with state := .idle false }

def ackTimeout : Duration := Duration.fromMillis 100

def processSendResult (self : DeviceQueue τ) (key : UniqueKey) (success : Bool) :
    DeviceQueue τ :=
  match self.state with
  | .sending sendKey ackRequested ackPayload =>
    if sendKey = key then
      if success then
        match ackRequested with
        | some ackRequested =>
          { self with state := .waitingForAck ackRequested (Sleep.sleep ackTimeout) }
        | none => { self with state := .haveResult (.ok ackPayload) }
      else self.sendFailed
    else self
  | _ => self

def processAcknowledge (self : DeviceQueue τ) (seqNr : Option UInt8) (payload : List UInt8) :
    DeviceQueue τ :=
  match self.state with
  | .waitingForAck ackRequested _ =>
    if seqNr = some ackRequested then { self with state := .haveResult (.ok payload) } else self
  | .sending sendKey ackRequested _ =>
    if ackRequested.isSome ∧ ackRequested = seqNr then
      { self with state := .sending sendKey none payload }
    else self
  | _ => self

/- The expiry loop: polls the entries' timers from the front up to the first one that is ready,
   whose entry goes. Returns that entry's index and key, and the entries that are left. -/
def pollTimeouts (now : Instant) :
    List (DeviceQueueEntry τ) → Option (Nat × UniqueKey) × List (DeviceQueueEntry τ)
  | [] => (none, [])
  | entry :: rest =>
    match Sleep.poll now entry.timeout with
    | (true, _) => (some (0, entry.data.key), rest)
    | (false, timeout) =>
      let (expired, rest) := pollTimeouts now rest
      (expired.map fun e => (e.1 + 1, e.2), { entry with timeout := timeout } :: rest)

/- What a poll does once the front entry needs nothing: report an expired entry, or wait. -/
def pollExpiry (self : DeviceQueue τ) (now : Instant) (cx : Waker) :
    Poll DeviceQueueAction × DeviceQueue τ :=
  match pollTimeouts now self.entries with
  | (some (index, key), entries) =>
    (.ready (.reportResult key (.error .transactionExpired)),
      { self with
        state := if index = 0 then .idle false else self.state
        entries := entries })
  | (none, entries) => (.pending, { self with entries := entries, waker := self.waker.pend cx })

def shouldBePending (self : DeviceQueue τ) : Bool :=
  self.entries.head?.any fun entry => entry.data.indirect

/-- One poll at the instant `now`, by the task `cx`. `sendKey` is the key that `UniqueKey::new`
would give; it is taken only by a `SendFrame`. -/
def pollNextAction (self : DeviceQueue τ) (pib : PIB) (now : Instant) (cx : Waker)
    (sendKey : UniqueKey) : Poll DeviceQueueAction × DeviceQueue τ × PIB :=
  if self.lastPendingReported ≠ some self.shouldBePending then
    (.ready (.setPending self.shouldBePending),
      { self with lastPendingReported := some self.shouldBePending }, pib)
  else match self.entries with
    | [] => (.ready .empty, { self with state := .idle false }, pib)
    | front :: rest =>
      match self.state with
      | .idle datarequest =>
        if !front.data.indirect || datarequest then
          let morePending := rest.head?.any fun second => second.data.indirect
          let ((ackRequested, frame), pib) := createFrame front.data pib morePending
          (.ready (.sendFrame sendKey frame),
            { self with state := .sending sendKey ackRequested [] }, pib)
        else
          let (action, self) := { self with state := .idle false }.pollExpiry now cx
          (action, self, pib)
      | .waitingForAck ackRequested timeout =>
        match Sleep.poll now timeout with
        | (true, _) =>
          if front.data.indirect then
            let (action, self) := { self with state := .idle false }.pollExpiry now cx
            (action, self, pib)
          else if 0 < front.retriesLeft then
            let front := { front with retriesLeft := front.retriesLeft - 1 }
            let (action, self) :=
              { self with state := .idle false, entries := front :: rest }.pollExpiry now cx
            (action, self, pib)
          else
            (.ready (.reportResult front.data.key (.error .noAck)),
              { self with state := .idle false, entries := rest }, pib)
        | (false, timeout) =>
          let (action, self) :=
            { self with state := .waitingForAck ackRequested timeout }.pollExpiry now cx
          (action, self, pib)
      | .haveResult result =>
        (.ready (.reportResult front.data.key result),
          { self with state := .idle false, entries := rest }, pib)
      | .sending _ _ _ =>
        let (action, self) := self.pollExpiry now cx
        (action, self, pib)

end DeviceQueue
end ZigbeeStack
