import ZigbeeStack.CoordinatorRuns
import ZigbeeStack.Stack

/-! What a step of the MAC, the driver and the radio together does to the orders that are on their
way and to the completions that come back. -/
namespace ZigbeeStack
open Runs

namespace MacData
variable {τ : Type}

theorem sendFrame_radioRequests {self self' : MacData τ} {key : UniqueKey} {frame : Frame}
    (h : self.sendFrame key frame = .ok self') :
    ∃ data, self'.radioRequests.items = self.radioRequests.items ++ [.sendPacket key data] := by
  simp only [sendFrame, bind, Except.bind, pure, Except.pure] at h
  split at h
  · cases h
  · split at h
    · cases h
    · rename_i hs
      cases h
      exact ⟨_, (sink_send (unwrap_ok hs)).1⟩

variable [Sleep τ]

/-- The processing of an input sends the driver one request at most, and that stands for what the
input orders. -/
theorem processInput_radioRequests {self self' : MacData τ} {draws : Draws} {input : MacInput}
    (h : self.processInput draws input = .ok self') : ∃ sent : Option RadioRequest,
      self'.radioRequests.items = self.radioRequests.items ++ sent.toList ∧
        sent.bind (·.order) = input.order := by
  match input, h with
  | .management (.sendFrame _), h | .data (.sendFrame _ _), h =>
    obtain ⟨data, hitems⟩ := sendFrame_radioRequests h
    exact ⟨some (.sendPacket _ data), hitems, rfl⟩
  | .management (.setParam k p v), h =>
    simp only [processInput, processManagement, bind, Except.bind, pure, Except.pure] at h
    split at h
    · cases h
    · rename_i hs
      cases h
      exact ⟨some (.setParam k p v), (sink_send (unwrap_ok hs)).1, rfl⟩
  | .data (.initPendingTable k), h =>
    simp only [processInput, processData, bind, Except.bind, pure, Except.pure] at h
    split at h
    · cases h
    · rename_i hs
      cases h
      exact ⟨some (.initPendingDataTable k), (sink_send (unwrap_ok hs)).1, rfl⟩
  | .data (.setPendingShort k index value), h =>
    simp only [processInput, processData, bind, Except.bind, pure, Except.pure] at h
    split at h
    · cases h
    · rename_i hs
      cases h
      refine ⟨some _, (sink_send (unwrap_ok hs)).1, ?_⟩
      cases value <;> rfl
  | .data (.setPendingExtended k index value), h =>
    simp only [processInput, processData, bind, Except.bind, pure, Except.pure] at h
    split at h
    · cases h
    · rename_i hs
      cases h
      refine ⟨some _, (sink_send (unwrap_ok hs)).1, ?_⟩
      cases value <;> rfl
  | .data (.confirm _), h =>
    simp only [processInput, processData, bind, Except.bind, pure, Except.pure] at h
    split at h
    · cases h
    · cases h
      exact ⟨none, (List.append_nil _).symm, rfl⟩
  | .arrival (.mlmeRequest _), h =>
    simp only [processInput, processMlmeRequest, bind, Except.bind, pure, Except.pure] at h
    split at h
    · cases h
    · cases h
      exact ⟨none, (List.append_nil _).symm, rfl⟩
  | .arrival (.mlmeResponse _), h =>
    cases h
    exact ⟨none, (List.append_nil _).symm, rfl⟩
  | .arrival (.mcpsRequest _), h =>
    simp only [processInput, processMcpsRequest, bind, Except.bind, pure, Except.pure] at h
    split at h
    · split at h
      · cases h
      · cases h
        exact ⟨none, (List.append_nil _).symm, rfl⟩
    · cases h
      exact ⟨none, (List.append_nil _).symm, rfl⟩
  | .arrival (.radio (.onPacket packet)), h =>
    replace h : self.processRadioPacket packet = .ok self' := h
    simp only [processRadioPacket, bind, Except.bind, pure, Except.pure] at h
    split at h
    · cases h
    · split at h
      · split at h
        · cases h
        · cases h
          exact ⟨none, (List.append_nil _).symm, rfl⟩
      · cases h
        exact ⟨none, (List.append_nil _).symm, rfl⟩
  | .arrival (.radio (.setParam _ _ _)), h | .arrival (.radio (.getParam _ _ _)), h
  | .arrival (.radio (.initPendingDataTable _ _)), h | .arrival (.radio (.setPower _ _ _)), h
  | .arrival (.radio (.sendPacket _ _)), h | .arrival (.radio (.setPendingShort _ _)), h
  | .arrival (.radio (.setPendingExtended _ _)), h =>
    cases h
    exact ⟨none, (List.append_nil _).symm, rfl⟩

end MacData

namespace MacTask
variable {τ : Type} [Sleep τ] {task task' : MacTask τ} {o : Unit}

theorem step_poll {visit : Visit} (h : task.step (.poll visit) = some (task', o)) :
    ∃ mac, task = .polling mac ∧
      ((∃ input mac', mac.pollNextInput visit = some (.ok (.ready input), mac') ∧
          task' = .processing mac' input) ∨
        (∃ mac', mac.pollNextInput visit = some (.ok .pending, mac') ∧ task' = .polling mac') ∨
        ∃ panic, task' = .panicked panic) := by
  cases task with
  | polling mac =>
    refine ⟨mac, rfl, ?_⟩
    simp only [step] at h
    split at h
    · rename_i hp
      cases h
      exact .inl ⟨_, _, hp, rfl⟩
    · rename_i hp
      cases h
      exact .inr (.inl ⟨_, hp, rfl⟩)
    · cases h
      exact .inr (.inr ⟨_, rfl⟩)
    · cases h
  | processing _ _ | panicked _ => cases h

theorem step_process {draws : Draws} (h : task.step (.process draws) = some (task', o)) :
    ∃ mac input, task = .processing mac input ∧
      ((∃ mac', mac.processInput draws input = .ok mac' ∧ task' = .polling mac') ∨
        ∃ panic, task' = .panicked panic) := by
  cases task with
  | processing mac input =>
    refine ⟨mac, input, rfl, ?_⟩
    simp only [step] at h
    split at h
    · rename_i hp
      cases h
      exact .inl ⟨_, hp, rfl⟩
    · cases h
      exact .inr ⟨_, rfl⟩
  | polling _ | panicked _ => cases h

end MacTask

namespace Radio

def Carried.Encodes (carried : Carried) : Prop :=
  carried.message.commandId = carried.request.intoRaw.1 ∧
    carried.message.data = carried.request.intoRaw.2.1 ∧
    ∃ request : ZigbeeStack.RadioRequest, request.toDriver = carried.request

def RequestTask.Encodes : RequestTask → Prop
  | .next => True
  | .lock commandId data _ request =>
    commandId = request.intoRaw.1 ∧ data = request.intoRaw.2.1 ∧
      ∃ r : ZigbeeStack.RadioRequest, r.toDriver = request
  | .send carried => carried.Encodes

theorem Carried.Encodes.command {carried : Carried} (h : carried.Encodes) :
    commandOf carried.message.commandId carried.message.data = carried.request.command := by
  rw [h.1, h.2.1]
  rfl

theorem dispatch_lock {message message' : RawRadioMessage} {request request' : Option RadioRequest}
    (h : ResponseTask.dispatch message request = .lock message' request') :
    message' = message ∧ request' = request := by
  rcases dispatch_cases message request with ⟨-, hd⟩ | ⟨-, hsound⟩
  · cases hd.symm.trans h
    exact ⟨rfl, rfl⟩
  · simp only [ResponseTask.dispatch] at h
    split at h
    · cases h
      exact ⟨rfl, rfl⟩
    · cases h
      exact ⟨rfl, rfl⟩
    · split at h <;> cases h
    · cases h

theorem dispatch_sendResponse {message : RawRadioMessage} {request request' : Option RadioRequest}
    {response : RadioResponse} :
    ResponseTask.dispatch message request ≠ .sendResponse response request' := by
  intro h
  simp only [ResponseTask.dispatch] at h
  split at h
  · cases h
  · cases h
  · split at h <;> cases h
  · cases h

end Radio

/-- A command's answer completes what was ordered, anything else is a packet's. -/
theorem RadioRequest.completion_order {request : RadioRequest} {success : Bool}
    {c : CommandKind × UniqueKey × Bool} (h : request.toDriver.completion success = some c)
    (hc : c.1 ≠ .sendPacket) :
    ∃ order, request.toDriver.order = some order ∧ c = order.completion success := by
  rw [request.toDriver_order]
  cases request with
  | sendPacket key data =>
    cases h
    exact absurd rfl hc
  | _ =>
    cases h
    exact ⟨_, rfl, rfl⟩

namespace Stack
variable {τ : Type}

structure Sound (w : Stack τ) : Prop where
  outcomes : w.outcomes.length = w.driver.received.length
  requestTask : w.driver.requestTask.Encodes
  port : ∀ carried ∈ w.driver.port, carried.Encodes

theorem sound_start (pib : PIB) (radio : RadioState) : Sound (start pib radio : Stack τ) where
  outcomes := rfl
  requestTask := trivial
  port _ h := by cases h

/- Nothing new comes back, apart from `new`. The completions of packets are of no interest here. -/
def Heard (w w' : Stack τ) (new : Option (CommandKind × UniqueKey × Bool)) : Prop :=
  ∀ c, c.1 ≠ .sendPacket → Settled w' c → Settled w c ∨ new = some c

def ordered : Poll MacInput → Option RadioOrder
  | .ready input => input.order
  | .pending => none

inductive Leads [Sleep τ] (h : Past τ) (t : Step τ) : Prop
  | polls {mac mac' : MacData τ} {visit : Visit} {result : Poll MacInput} :
      t.before.mac = .polling mac → t.after.mac.mac = some mac' →
      MacData.Polled mac visit result mac' → visit.key ∉ drawn h →
      given t = (ordered result).toList → orders t.after = orders t.before ++ given t →
      Heard t.before t.after none → t.after.radio = t.before.radio → Leads h t
  | processes {mac mac' : MacData τ} {draws : Draws} {input : MacInput} :
      t.before.mac = .processing mac input → t.after.mac = .polling mac' →
      MacData.Processed mac draws input mac' → (orders t.after).Sublist (orders t.before) →
      Heard t.before t.after none → t.after.radio = t.before.radio → Leads h t
  | runs {order : RadioOrder} {success : Bool} {garbage : RadioState} :
      t.after.mac = t.before.mac → orders t.before = order :: orders t.after →
      Heard t.before t.after (some (order.completion success)) →
      t.after.radio = t.before.radio.run success garbage order.command → Leads h t
  | passes : t.after.mac = t.before.mac → (orders t.after).Sublist (orders t.before) →
      Heard t.before t.after none → t.after.radio = t.before.radio → Leads h t
  | panics {panic : Panic} : t.after.mac = .panicked panic → Leads h t

inductive Moves [Sleep τ] (w : Stack τ) : Event → Stack τ → Prop
  | poll {cx : Waker} {key : UniqueKey} {params : List RadioParam}
      {rounds : List (List (Option FullAddress × Instant))} {upper : Poll (Option MainloopSend)}
      {mac : MacTask τ} {o : Unit} (hfree : w.request = none)
      (hmac : w.mac.step (.poll ⟨cx, key, params, rounds, w.arrival upper⟩) = some (mac, o)) :
      Moves w (.poll cx key params rounds upper)
        { w with mac := mac, taken := w.taken || mac.heard }
  | process {draws : Draws} {mac : MacTask τ} {o : Unit}
      (hmac : w.mac.step (.process draws) = some (mac, o)) :
      Moves w (.process draws)
        { w with
          mac := mac
          request := (mac.radioSent.drop w.mac.radioSent.length).head? }
  | request {request : RadioRequest} {driver : Radio.RadioService} {o : Radio.Output}
      (hrequest : w.request = some request)
      (hd : w.driver.step (.request request.toDriver) = some (driver, o)) :
      Moves w .request { w with request := none, driver := driver }
  | register {requestId : UInt16} {driver : Radio.RadioService} {o : Radio.Output}
      (hd : w.driver.step (.register requestId) = some (driver, o)) :
      Moves w (.register requestId) { w with driver := driver }
  | send {written : Bool} {driver : Radio.RadioService} {o : Radio.Output}
      (hd : w.driver.step (.send written) = some (driver, o)) :
      Moves w (.send written) { w with driver := driver }
  | transmit {arrives success : Bool} {garbage : RadioState} {carried : Radio.Carried}
      {port : List Radio.Carried} {driver : Radio.RadioService} {o : Radio.Output}
      (hport : w.driver.port = carried :: port)
      (hd : w.driver.step (.transmit arrives) = some (driver, o)) :
      Moves w (.transmit arrives success garbage)
        (if arrives then { w with driver := driver }.execute success garbage carried.message
          else { w with driver := driver })
  | answer {index : Nat} {good : Bool} {data : List UInt8} {driver : Radio.RadioService}
      {o : Radio.Output} (hd : w.driver.step (.answer index good data) = some (driver, o)) :
      Moves w (.answer index good data)
        { w with driver := driver, outcomes := w.outcomes.eraseIdx index }
  | report {message : RawRadioMessage} {driver : Radio.RadioService} {o : Radio.Output}
      (hd : w.driver.step (.report message) = some (driver, o)) :
      Moves w (.report message) { w with driver := driver }
  | next {driver : Radio.RadioService} {o : Radio.Output}
      (hd : w.driver.step .next = some (driver, o)) : Moves w .next { w with driver := driver }
  | remove {driver : Radio.RadioService} {o : Radio.Output}
      (hd : w.driver.step .remove = some (driver, o)) : Moves w .remove { w with driver := driver }
  | responded {driver : Radio.RadioService} {o : Radio.Output}
      (htaken : w.taken = true ∨ w.mac.isPanicked = true)
      (hd : w.driver.step .responded = some (driver, o)) :
      Moves w .responded { w with driver := driver, taken := false }

theorem drive_eq {w w' : Stack τ} {event : Radio.Event} (h : w.drive event = some w') :
    ∃ driver o, w.driver.step event = some (driver, o) ∧ w' = { w with driver := driver } := by
  obtain ⟨⟨driver, o⟩, hs, rfl⟩ := Option.map_eq_some_iff.mp h
  exact ⟨driver, o, hs, rfl⟩

theorem map_drive_eq {w w' : Stack τ} {event : Radio.Event} {f : Stack τ → Stack τ} {o : Unit}
    (h : ((w.drive event).map fun w => (f w, ())) = some (w', o)) :
    ∃ driver o, w.driver.step event = some (driver, o) ∧ w' = f { w with driver := driver } := by
  obtain ⟨w₁, hdrive, heq⟩ := Option.map_eq_some_iff.mp h
  cases heq
  obtain ⟨driver, o, hd, rfl⟩ := drive_eq hdrive
  exact ⟨driver, o, hd, rfl⟩

theorem moves [Sleep τ] {w w' : Stack τ} {e : Event} {o : Unit}
    (hs : w.step e = some (w', o)) : Moves w e w' := by
  cases e with
  | poll cx key params rounds upper =>
    simp only [step] at hs
    split at hs
    · cases hs
    · rename_i hfree
      split at hs
      · rename_i hmac
        cases hs
        exact .poll (by simpa using hfree) hmac
      · cases hs
  | process draws =>
    simp only [step] at hs
    split at hs
    · rename_i hmac
      cases hs
      exact .process hmac
    · cases hs
  | request =>
    simp only [step] at hs
    split at hs
    · rename_i hrequest
      obtain ⟨driver, o, hd, rfl⟩ := map_drive_eq (f := fun w => { w with request := none }) hs
      exact .request hrequest hd
    · cases hs
  | transmit arrives success garbage =>
    simp only [step] at hs
    split at hs
    · rename_i carried port hport
      obtain ⟨driver, o, hd, rfl⟩ := map_drive_eq
        (f := fun w => if arrives then w.execute success garbage carried.message else w) hs
      exact .transmit hport hd
    · cases hs
  | answer index good data =>
    obtain ⟨driver, o, hd, rfl⟩ := map_drive_eq
      (f := fun w => { w with outcomes := w.outcomes.eraseIdx index }) hs
    exact .answer hd
  | responded =>
    simp only [step] at hs
    split at hs
    · rename_i htaken
      obtain ⟨driver, o, hd, rfl⟩ := map_drive_eq (f := fun w => { w with taken := false }) hs
      exact .responded htaken hd
    · cases hs
  | register requestId =>
    obtain ⟨driver, o, hd, rfl⟩ := map_drive_eq (f := id) hs
    exact .register hd
  | send written =>
    obtain ⟨driver, o, hd, rfl⟩ := map_drive_eq (f := id) hs
    exact .send hd
  | report message =>
    simp only [step] at hs
    obtain ⟨driver, o, hd, rfl⟩ := map_drive_eq (f := id) hs
    exact .report hd
  | next =>
    obtain ⟨driver, o, hd, rfl⟩ := map_drive_eq (f := id) hs
    exact .next hd
  | remove =>
    obtain ⟨driver, o, hd, rfl⟩ := map_drive_eq (f := id) hs
    exact .remove hd

theorem heard_of_same {w w' : Stack τ} (hreceived : w'.driver.received = w.driver.received)
    (houtcomes : w'.outcomes = w.outcomes) (hincoming : w'.driver.incoming = w.driver.incoming)
    (htask : w'.driver.responseTask = w.driver.responseTask)
    (hmac : ∀ mac response, w'.mac = .processing mac (.arrival (.radio response)) →
      ∀ c, c.1 ≠ .sendPacket → response.completion = some c → Settled w c) :
    Heard w w' none := by
  intro c hc hsettled
  refine .inl ?_
  cases hsettled with
  | received hget hout hcompletion =>
    exact .received (hreceived ▸ hget) (houtcomes ▸ hout) hcompletion
  | incoming hmem hcompletion => exact .incoming (hincoming ▸ hmem) hcompletion
  | answered hlock hcompletion => exact .answered (htask ▸ hlock) hcompletion
  | offered hsend hcompletion => exact .offered (htask ▸ hsend) hcompletion
  | heard hin hcompletion => exact hmac _ _ hin c hc hcompletion

theorem heard_of_driver {w w' : Stack τ} (hmac : w'.mac = w.mac)
    (hreceived : w'.driver.received = w.driver.received) (houtcomes : w'.outcomes = w.outcomes)
    (hincoming : w'.driver.incoming = w.driver.incoming)
    (htask : w'.driver.responseTask = w.driver.responseTask) : Heard w w' none :=
  heard_of_same hreceived houtcomes hincoming htask fun _ _ hin _ _ hc => .heard (hmac ▸ hin) hc

section Steps
variable [Sleep τ] {h : Past τ} {w w' : Stack τ} {o : Unit}

omit [Sleep τ] in
/-- The MAC takes the response that the driver offers, and no other. -/
theorem offered_of_arrival {upper : Poll (Option MainloopSend)} {response : RadioResponse}
    (h : w.arrival upper = .ready (some (.radio response))) : w.offered = some response := by
  unfold arrival at h
  split at h
  · rename_i hoffered
    cases h
    exact hoffered
  · split at h
    · rename_i input
      cases input with
      | none => cases h
      | some input =>
        cases input with
        | mlme input => cases input <;> cases h
        | mcps request => cases h
    · cases h

omit [Sleep τ] in
theorem settled_of_offered {response : RadioResponse} {c : CommandKind × UniqueKey × Bool}
    (h : w.offered = some response) (hc : response.completion = some c) : Settled w c := by
  unfold offered at h
  split at h
  · cases h
  · split at h
    · rename_i htask
      cases h
      exact .offered htask hc
    · cases h
      cases hc
    · cases h

theorem leads_poll {cx : Waker} {key : UniqueKey} {params : List RadioParam}
    {rounds : List (List (Option FullAddress × Instant))} {upper : Poll (Option MainloopSend)}
    {task : MacTask τ} (hrely : key ∉ drawn h) (hfree : w.request = none)
    (hmac : w.mac.step (.poll ⟨cx, key, params, rounds, w.arrival upper⟩) = some (task, o)) :
    Leads h ⟨w, .poll cx key params rounds upper, o,
      { w with mac := task, taken := w.taken || task.heard }⟩ := by
  obtain ⟨mac, hpolling, htask⟩ := MacTask.step_poll hmac
  rcases htask with ⟨input, mac', hpoll, rfl⟩ | ⟨mac', hpoll, rfl⟩ | ⟨panic, rfl⟩
  · refine .polls hpolling rfl (MacData.polled hpoll) hrely rfl ?_ ?_ rfl
    · simp [orders, hpolling, hfree, MacTask.order, given]
    · refine heard_of_same rfl rfl rfl rfl fun mac response hin c _ hc => ?_
      cases hin
      exact settled_of_offered (offered_of_arrival (MacData.pollNextInput_arrival hpoll)) hc
  · refine .polls hpolling rfl (MacData.polled hpoll) hrely rfl ?_ ?_ rfl
    · simp [orders, hpolling, hfree, MacTask.order, given]
    · exact heard_of_same rfl rfl rfl rfl fun _ _ hin => by cases hin
  · exact .panics rfl

theorem leads_process {draws : Draws} {task : MacTask τ}
    (hmac : w.mac.step (.process draws) = some (task, o)) :
    Leads h ⟨w, .process draws, o, { w with
      mac := task
      request := (task.radioSent.drop w.mac.radioSent.length).head? }⟩ := by
  obtain ⟨mac, input, hprocessing, ⟨mac', hp, rfl⟩ | ⟨panic, rfl⟩⟩ := MacTask.step_process hmac
  · obtain ⟨sent, hitems, horder⟩ := MacData.processInput_radioRequests hp
    have hsent : ((mac'.radioRequests.items.drop mac.radioRequests.items.length).head?) = sent := by
      rw [hitems, List.drop_left]
      cases sent <;> rfl
    refine .processes hprocessing rfl (MacData.processed hp) ?_ ?_ rfl
    · simp only [orders, hprocessing, MacTask.radioSent, MacTask.mac, Option.map_some,
        Option.getD_some, hsent, MacTask.order, horder, Option.toList_none, List.append_nil]
      exact (List.sublist_append_right _ _).append_left _
    · exact heard_of_same rfl rfl rfl rfl fun _ _ hin => by cases hin
  · exact .panics rfl

section Driver
variable {driver : Radio.RadioService} {output : Radio.Output} {e : Event}
omit [Sleep τ]

theorem orders_request {request : RadioRequest} (hrequest : w.request = some request)
    (hd : w.driver.step (.request request.toDriver) = some (driver, output)) :
    orders { w with request := none, driver := driver } = orders w := by
  cases Radio.stepped hd with
  | request htask =>
    have hsame : (request.toDriver.order).toList = [request.toDriver].filterMap (·.order) := by
      cases horder : request.toDriver.order <;> simp [horder]
    simp only [orders, hrequest, htask, Radio.RequestTask.requests, Option.bind_some,
      ← request.toDriver_order, hsame, List.filterMap_append, List.append_assoc,
      List.filterMap_nil, List.nil_append, Option.bind_none, Option.toList_none]

theorem orders_register {requestId : UInt16}
    (hd : w.driver.step (.register requestId) = some (driver, output)) :
    orders { w with driver := driver } = orders w := by
  cases Radio.stepped hd with
  | register htask _ _ => simp only [orders, htask, Radio.RequestTask.requests]

theorem orders_send {written : Bool}
    (hd : w.driver.step (.send written) = some (driver, output)) :
    (orders { w with driver := driver }).Sublist (orders w) := by
  cases Radio.stepped hd with
  | send htask =>
    simp only [orders, htask, Radio.RequestTask.requests]
    refine List.Sublist.append_right (List.Sublist.filterMap _ ?_) _
    cases written <;> simp

theorem heard_report {message : RawRadioMessage}
    (hd : w.driver.step (.report message) = some (driver, output)) :
    Heard w { w with driver := driver } none := by
  cases Radio.stepped hd with
  | report =>
    refine fun c _ hsettled => .inl ?_
    cases hsettled with
    | incoming hmem hcompletion =>
      rcases List.mem_append.mp hmem with hmem | hmem
      · exact .incoming hmem hcompletion
      · cases List.mem_singleton.mp hmem
    | received hget hout hcompletion => exact .received hget hout hcompletion
    | answered hlock hcompletion => exact .answered hlock hcompletion
    | offered hsend hcompletion => exact .offered hsend hcompletion
    | heard hin hcompletion => exact .heard hin hcompletion

theorem heard_next (hd : w.driver.step .next = some (driver, output)) :
    Heard w { w with driver := driver } none := by
  cases Radio.stepped hd with
  | next htask hin =>
    refine fun c _ hsettled => .inl ?_
    cases hsettled with
    | incoming hmem hcompletion =>
      refine .incoming ?_ hcompletion
      rw [hin]
      exact List.mem_cons_of_mem _ hmem
    | answered hlock hcompletion =>
      obtain ⟨rfl, rfl⟩ := Radio.dispatch_lock hlock
      refine .incoming ?_ hcompletion
      rw [hin]
      exact List.mem_cons_self
    | offered hsend _ => exact absurd hsend Radio.dispatch_sendResponse
    | received hget hout hcompletion => exact .received hget hout hcompletion
    | heard hin hcompletion => exact .heard hin hcompletion

/-- The parser under the id of an answer is that of the request, so that it reads the answer. -/
theorem heard_remove {past : Radio.Past} (hi : Radio.Inv past w.driver)
    (hd : w.driver.step .remove = some (driver, output)) :
    Heard w { w with driver := driver } none := by
  cases Radio.stepped hd with
  | remove htask hget =>
    obtain ⟨r, hreq, -, hparser⟩ := hi.parser htask
    cases hreq
    cases hget.symm.trans hparser
    refine fun c _ hsettled => .inl ?_
    cases hsettled with
    | offered hsend hcompletion =>
      cases hsend
      rw [Radio.parser_completion] at hcompletion
      exact .answered htask hcompletion
    | answered hlock _ => cases hlock
    | received hget hout hcompletion => exact .received hget hout hcompletion
    | incoming hmem hcompletion => exact .incoming hmem hcompletion
    | heard hin hcompletion => exact .heard hin hcompletion
  | removeUnasked htask _ =>
    obtain ⟨r, hreq, -⟩ := hi.parser htask
    cases hreq
  | forget htask hget =>
    obtain ⟨r, -, -, hparser⟩ := hi.parser htask
    cases hget.symm.trans hparser

theorem heard_responded (hd : w.driver.step .responded = some (driver, output)) :
    Heard w { w with driver := driver, taken := false } none := by
  cases Radio.stepped hd
  all_goals
    refine fun c _ hsettled => .inl ?_
    cases hsettled with
    | offered hsend _ => cases hsend
    | answered hlock _ => cases hlock
    | received hget hout hcompletion => exact .received hget hout hcompletion
    | incoming hmem hcompletion => exact .incoming hmem hcompletion
    | heard hin hcompletion => exact .heard hin hcompletion

/-- The radio answers how it went. -/
theorem heard_answer {index : Nat} {good : Bool} {data : List UInt8} (hsound : Sound w)
    (hrely : (good = true ∧ data = [0, 0]) ↔ w.outcomes[index]? = some true)
    (hd : w.driver.step (.answer index good data) = some (driver, output)) :
    Heard w { w with driver := driver, outcomes := w.outcomes.eraseIdx index } none := by
  cases Radio.stepped hd with
  | @answer _ _ _ carried hget =>
    obtain ⟨hlt, -⟩ := List.getElem?_eq_some_iff.mp hget
    rw [← hsound.outcomes] at hlt
    have hout := List.getElem?_eq_getElem hlt
    have hgood : decide (Radio.Good (Radio.answeredBy
        ⟨if good then .ok else .err, carried.message.requestId, data⟩)) = w.outcomes[index] := by
      have hiff : Radio.Good (Radio.answeredBy
          ⟨if good then .ok else .err, carried.message.requestId, data⟩) ↔
          (good = true ∧ data = [0, 0]) := by
        cases good <;> simp [Radio.Good, Radio.answeredBy]
      rw [Bool.eq_iff_iff, decide_eq_true_iff, hiff]
      exact hrely.trans (by rw [hout, Option.some.injEq])
    refine fun c _ hsettled => .inl ?_
    cases hsettled with
    | received hget' hout' hcompletion =>
      simp only [List.getElem?_eraseIdx] at hget' hout'
      split at hget'
      · rw [if_pos ‹_›] at hout'
        exact .received hget' hout' hcompletion
      · rw [if_neg ‹_›] at hout'
        exact .received hget' hout' hcompletion
    | incoming hmem hcompletion =>
      rcases List.mem_append.mp hmem with hmem | hmem
      · exact .incoming hmem hcompletion
      · cases List.mem_singleton.mp hmem
        rw [hgood] at hcompletion
        exact .received hget hout hcompletion
    | answered hlock hcompletion => exact .answered hlock hcompletion
    | offered hsend hcompletion => exact .offered hsend hcompletion
    | heard hin hcompletion => exact .heard hin hcompletion

theorem heard_of_arrival (hsound : Sound w) (carried : Radio.Carried) (port : List Radio.Carried)
    (success : Bool) (garbage : RadioState) :
    Heard w
      ({ w with
        driver := { w.driver with
          port := port
          received := w.driver.received ++ [carried] } }.execute success garbage carried.message)
      (carried.request.completion success) := by
  intro c hc hsettled
  cases hsettled with
  | @received index _ _ hget hout hcompletion =>
    simp only [execute, List.getElem?_append, hsound.outcomes] at hget hout
    split at hget
    · rw [if_pos ‹_›] at hout
      exact .inl (.received hget hout hcompletion)
    · rw [if_neg ‹_›] at hout
      generalize index - w.driver.received.length = i at hget hout
      cases i with
      | zero =>
        cases hget
        cases hout
        exact .inr hcompletion
      | succ i => cases hget
  | incoming hmem hcompletion => exact .inl (.incoming hmem hcompletion)
  | answered hlock hcompletion => exact .inl (.answered hlock hcompletion)
  | offered hsend hcompletion => exact .inl (.offered hsend hcompletion)
  | heard hin hcompletion => exact .inl (.heard hin hcompletion)

end Driver

/-- A message that arrives does to the radio what was ordered; one that is lost does nothing. -/
theorem leads_transmit {arrives success : Bool} {garbage : RadioState} {carried : Radio.Carried}
    {port : List Radio.Carried} {driver : Radio.RadioService} {output : Radio.Output}
    (hsound : Sound w) (hport : w.driver.port = carried :: port)
    (hd : w.driver.step (.transmit arrives) = some (driver, output)) :
    Leads h ⟨w, .transmit arrives success garbage, o,
      if arrives then { w with driver := driver }.execute success garbage carried.message
        else { w with driver := driver }⟩ := by
  cases Radio.stepped hd with
  | transmit hport' =>
    cases hport'.symm.trans hport
    have hencodes := hsound.port carried (by rw [hport]; exact List.mem_cons_self)
    cases arrives with
    | false =>
      refine .passes rfl ?_ ?_ rfl
      · simp only [orders, hport, Bool.false_eq_true, if_false]
        refine List.Sublist.append_right (List.Sublist.filterMap _ ?_) _
        simp
      · exact heard_of_driver rfl rfl rfl rfl rfl
    | true =>
      obtain ⟨request, hrequest⟩ := hencodes.2.2
      have hheard := heard_of_arrival hsound carried port success garbage
      have hcommand := hencodes.command
      rw [← hrequest] at hheard hcommand
      cases horder : request.toDriver.order with
      | none =>
        have hnone : request.toDriver.command = none := by
          simpa [Radio.RadioRequest.order] using horder
        refine .passes rfl ?_ (fun c hc hsettled => ?_) ?_
        · simp [orders, execute, hport, ← hrequest, horder]
        · rcases hheard c hc hsettled with hold | hnew
          · exact .inl hold
          · obtain ⟨order, hsome, -⟩ := RadioRequest.completion_order hnew hc
            cases horder.symm.trans hsome
        · simp [execute, hcommand, hnone]
      | some order =>
        obtain ⟨command, hsome, heq⟩ := Option.map_eq_some_iff.mp horder
        have hruns : (w.execute success garbage carried.message).radio =
            w.radio.run success garbage order.command := by
          simp [execute, hcommand, hsome, ← heq]
        refine .runs rfl ?_ (fun c hc hsettled => ?_) hruns
        · simp [orders, execute, hport, ← hrequest, horder]
        · rcases hheard c hc hsettled with hold | hnew
          · exact .inl hold
          · obtain ⟨order', hsome, rfl⟩ := RadioRequest.completion_order hnew hc
            cases horder.symm.trans hsome
            exact .inr rfl

theorem leads_of_step {past : Radio.Past} {e : Event} (hsound : Sound w)
    (hrun : Run Radio.RadioService.step Radio.Rely .new past w.driver) (hrely : Rely h w e)
    (hs : w.step e = some (w', o)) : Leads h ⟨w, e, o, w'⟩ := by
  cases moves hs with
  | poll hfree hmac => exact leads_poll hrely hfree hmac
  | process hmac => exact leads_process hmac
  | request hrequest hd =>
    refine .passes rfl (orders_request hrequest hd ▸ .refl _) ?_ rfl
    cases Radio.stepped hd with
    | request _ => exact heard_of_driver rfl rfl rfl rfl rfl
  | register hd =>
    refine .passes rfl (orders_register hd ▸ .refl _) ?_ rfl
    cases Radio.stepped hd with
    | register _ _ _ => exact heard_of_driver rfl rfl rfl rfl rfl
  | send hd =>
    refine .passes rfl (orders_send hd) ?_ rfl
    cases Radio.stepped hd with
    | send _ => exact heard_of_driver rfl rfl rfl rfl rfl
  | transmit hport hd => exact leads_transmit hsound hport hd
  | answer hd =>
    refine .passes rfl ?_ (heard_answer hsound hrely hd) rfl
    cases Radio.stepped hd
    exact .refl _
  | report hd =>
    refine .passes rfl ?_ (heard_report hd) rfl
    cases Radio.stepped hd
    exact .refl _
  | next hd =>
    refine .passes rfl ?_ (heard_next hd) rfl
    cases Radio.stepped hd
    exact .refl _
  | remove hd =>
    refine .passes rfl ?_ (heard_remove (Radio.inv_of_run hrun) hd) rfl
    cases Radio.stepped hd <;> exact .refl _
  | responded _ hd =>
    refine .passes rfl ?_ (heard_responded hd) rfl
    cases Radio.stepped hd <;> exact .refl _

theorem driver_step {past : Radio.Past} {e : Event}
    (hrun : Run Radio.RadioService.step Radio.Rely .new past w.driver) (hrely : Rely h w e)
    (hs : w.step e = some (w', o)) :
    ∃ past', Run Radio.RadioService.step Radio.Rely .new past' w'.driver := by
  have hnext : ∀ {event driver o}, w.driver.step event = some (driver, o) →
      Radio.Rely past w.driver event →
      ∃ past', Run Radio.RadioService.step Radio.Rely .new past' driver :=
    fun hd hr => ⟨_, .next hrun hr hd⟩
  cases moves hs with
  | poll _ _ | process _ => exact ⟨past, hrun⟩
  | transmit _ hd =>
    split
    · exact hnext hd trivial
    · exact hnext hd trivial
  | report hd => exact hnext hd hrely
  | request _ hd | responded _ hd => exact hnext hd trivial
  | register hd | send hd | answer hd | next hd | remove hd => exact hnext hd trivial

/-- A step keeps the messages in order. -/
theorem Sound.step {e : Event} (hsound : Sound w) (hs : w.step e = some (w', o)) : Sound w' := by
  obtain ⟨houtcomes, htask, hport⟩ := hsound
  cases moves hs with
  | poll _ _ | process _ => exact ⟨houtcomes, htask, hport⟩
  | request _ hd =>
    cases Radio.stepped hd with
    | request _ => exact ⟨houtcomes, ⟨rfl, rfl, _, rfl⟩, hport⟩
  | register hd =>
    cases Radio.stepped hd with
    | register hlock _ _ =>
      rw [hlock] at htask
      exact ⟨houtcomes, htask, hport⟩
  | @send written _ _ hd =>
    cases Radio.stepped hd with
    | send hsend =>
      rw [hsend] at htask
      refine ⟨houtcomes, trivial, fun c hc => ?_⟩
      cases written with
      | false => exact hport c hc
      | true =>
        rcases List.mem_append.mp hc with hc | hc
        · exact hport c hc
        · cases List.mem_singleton.mp hc
          exact htask
  | @transmit arrives _ _ _ port _ _ hp hd =>
    cases Radio.stepped hd with
    | transmit hp' =>
      cases hp'.symm.trans hp
      have hrest : ∀ carried ∈ port, carried.Encodes := fun c hc =>
        hport c (by rw [hp]; exact List.mem_cons_of_mem _ hc)
      cases arrives with
      | false => exact ⟨houtcomes, htask, hrest⟩
      | true => exact ⟨by simp [execute, houtcomes], htask, hrest⟩
  | answer hd =>
    cases Radio.stepped hd with
    | answer _ => exact ⟨by simp only [List.length_eraseIdx, houtcomes], htask, hport⟩
  | report hd | next hd | remove hd =>
    cases Radio.stepped hd <;> exact ⟨houtcomes, htask, hport⟩
  | responded _ hd => cases Radio.stepped hd <;> exact ⟨houtcomes, htask, hport⟩

end Steps

theorem not_settled_start {pib : PIB} {radio : RadioState} {c : CommandKind × UniqueKey × Bool} :
    ¬ Settled (start pib radio : Stack τ) c := by
  intro hsettled
  cases hsettled with
  | received hget _ _ => cases hget
  | incoming hmem _ => cases hmem
  | answered hlock _ => cases hlock
  | offered hsend _ => cases hsend
  | heard hin _ => cases hin

theorem drawn_cons (t : Step τ) (h : Past τ) :
    drawn (t :: h) = (given t).map (·.key) ++ drawn h := by
  simp [drawn]

theorem drawn_later {t : Step τ} {h : Past τ} {k : UniqueKey} (hk : k ∈ drawn h) :
    k ∈ drawn (t :: h) := by
  rw [drawn_cons]
  exact List.mem_append_right _ hk

section Rules
variable [Sleep τ] {pib : PIB} {radio : RadioState} {h : Past τ} {w : Stack τ}

theorem sound_of_run (hr : Run step Rely (start pib radio) h w) :
    Sound w ∧ ∃ past, Run Radio.RadioService.step Radio.Rely .new past w.driver := by
  refine hr.invariant (P := fun _ w => Sound w ∧
    ∃ past, Run Radio.RadioService.step Radio.Rely .new past w.driver)
    ⟨sound_start pib radio, [], .start⟩ ?_
  rintro h w e w' o - ⟨hsound, past, hrun⟩ hrely hs
  exact ⟨hsound.step hs, driver_step hrun hrely hs⟩

/-- What every step that leads on keeps holds throughout a run. -/
theorem invariant_of_leads {P : Past τ → Stack τ → Prop} (hstart : P [] (start pib radio))
    (hstep : ∀ h t, P h t.before → Leads h t → P (t :: h) t.after)
    (hr : Run step Rely (start pib radio) h w) : P h w := by
  refine hr.invariant hstart fun h w e w' o hrun hp hrely hs => ?_
  obtain ⟨hsound, past, hdriver⟩ := sound_of_run hrun
  exact hstep h ⟨w, e, o, w'⟩ hp (leads_of_step hsound hdriver hrely hs)

end Rules

end Stack
end ZigbeeStack
