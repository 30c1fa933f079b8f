import ZigbeeStack.DataQueues
import ZigbeeStack.Runs

/-! Runs of the data service, together with the PIB that it shares with the rest of the MAC. -/
namespace ZigbeeStack.DataService
open Runs DeviceQueue
variable {τ : Type}

/- The calls of the service's owner. A key is the one that `UniqueKey::new` would give, an order is
   the one in which an iteration finds the queues; `setPib` stands for what the other parts of the
   MAC do to the PIB. -/
inductive Event where
  | mcpsRequest (key : UniqueKey) (order : List (Option FullAddress)) (request : Mcps.Request)
  | mlmeResponse (key : UniqueKey) (response : Mlme.Response)
  | initPendingTableResult (key : UniqueKey) (success : Bool)
  | setPendingResult (key : UniqueKey) (success : Bool)
  | sendResult (key : UniqueKey) (success : Bool)
  | frame (frame : Frame)
  | poll (cx : Waker) (key : UniqueKey) (rounds : List (List (Option FullAddress × Instant)))
  | setPib (pib : PIB)
deriving DecidableEq

inductive Output where
  | none
  | confirm (confirm : Mcps.Confirm)
  | polled (action : Poll DataServiceAction)
deriving DecidableEq

abbrev Step (τ : Type) := Transition (DataService τ × PIB) Event Output
abbrev Past (τ : Type) := History (DataService τ × PIB) Event Output

def submission (pib : PIB) : Event → Option DataRequest
  | .mcpsRequest key _ (.data r) => some (internalRequest key r)
  | .mlmeResponse key (.associate deviceAddress fastAssociation status) =>
    some (ManagementService.associateResponse pib key deviceAddress fastAssociation status)
  | _ => none

def submitted (t : Step τ) : Option DataRequest := submission t.before.2 t.event

def sent (t : Step τ) : Option (UniqueKey × Frame) :=
  match t.output with
  | .polled (.ready (.sendFrame key frame)) => some (key, frame)
  | _ => none

/- A data request of the device, to the coordinator under either of its addresses. -/
def asksFor (pib : PIB) (d : Option FullAddress) (f : Frame) : Prop :=
  f.frameType = .command .dataRequest ∧ f.source = d ∧
    (f.destination = some pib.getFullShortAddress ∨
      f.destination = some pib.getFullExtendedAddress)

variable [Sleep τ]

def step (s : DataService τ × PIB) : Event → Option ((DataService τ × PIB) × Output)
  | .mcpsRequest key order request =>
    if HashMap.Enumerates order s.1.queues then
      let (confirm, data) := s.1.processMcpsRequest s.2 key order request
      some ((data, s.2), confirm.elim .none .confirm)
    else none
  | .mlmeResponse key response =>
    some ((ManagementService.processMlmeResponse s.1 s.2 key response, s.2), .none)
  | .initPendingTableResult key success =>
    some ((s.1.processInitPendingTableResult key success, s.2), .none)
  | .setPendingResult key success => some ((s.1.processSetPendingResult key success, s.2), .none)
  | .sendResult key success => some ((s.1.processSendResult key success, s.2), .none)
  | .frame frame => some ((s.1.processFrame s.2 frame, s.2), .none)
  | .poll cx key rounds =>
    (s.1.pollAction s.2 cx key rounds).map fun (action, data, pib) => ((data, pib), .polled action)
  | .setPib pib => some ((s.1, pib), .none)

inductive Touched (pib : PIB) (e : Event) (d : Option FullAddress) (q : DeviceQueue τ) :
    DeviceQueue τ → Prop where
  | same : Touched pib e d q q
  | insert {r} : submission pib e = some r → r.destination = d →
      Touched pib e d q (q.insert pib r).2
  | remove {key order request k} : e = .mcpsRequest key order (.purge request) →
      Touched pib e d q (q.remove k).2
  | sendResult {key success} : e = .sendResult key success →
      Touched pib e d q (q.processSendResult key success)
  | acknowledge {f payload} : e = .frame f → f.frameType = .ack payload →
      Touched pib e d q (q.processAcknowledge f.sequenceNumber payload.bytes)
  | dataRequest {f} : e = .frame f → asksFor pib d f → Touched pib e d q q.processDatarequest

/-- A new request goes to the back of the queue of its destination, and none comes in otherwise. -/
theorem Touched.requests {pib : PIB} {e : Event} {d : Option FullAddress} {q q' : DeviceQueue τ}
    (h : Touched pib e d q q') {r : DataRequest} (hr : r ∈ q'.requests) :
    r ∈ q.requests ∨ (submission pib e = some r ∧ r.destination = d) := by
  cases h with
  | same => exact .inl hr
  | @insert r' he hd =>
    rw [insert_requests] at hr
    split at hr
    · exact .inl hr
    · refine (List.mem_append.mp hr).imp_right fun hr => ?_
      obtain rfl := List.mem_singleton.mp hr
      exact ⟨he, hd⟩
  | remove _ =>
    rw [remove_requests] at hr
    exact .inl (List.mem_of_mem_filter hr)
  | sendResult _ => exact .inl (by simpa using hr)
  | acknowledge _ _ => exact .inl (by simpa using hr)
  | dataRequest _ _ => exact .inl hr

theorem Touched.advances {pib : PIB} {e : Event} {d : Option FullAddress} {q q' : DeviceQueue τ}
    (h : Touched pib e d q q') :
    Advances q.state q'.state ∨
      ((∃ f, e = .frame f ∧ asksFor pib d f) ∧ q'.state = .idle true) := by
  cases h with
  | same => exact .inl (.refl _)
  | insert _ _ =>
    rw [insert_state]
    exact .inl (.refl _)
  | remove _ => exact .inl (q.remove_advances _)
  | sendResult _ => exact .inl (q.processSendResult_advances _ _)
  | acknowledge _ _ => exact .inl (q.processAcknowledge_advances _ _)
  | @dataRequest f he hf =>
    rcases q.processDatarequest_state with hidle | hsame
    · exact .inr ⟨⟨f, he, hf⟩, hidle⟩
    · rw [hsame]
      exact .inl (.refl _)

theorem Touched.reported {pib : PIB} {e : Event} {d : Option FullAddress} {q q' : DeviceQueue τ}
    (h : Touched pib e d q q') : q'.lastPendingReported = q.lastPendingReported := by
  cases h with
  | same => rfl
  | insert _ _ => exact q.insert_reported _ _
  | remove _ => exact q.remove_reported _
  | sendResult _ => exact q.processSendResult_reported _ _
  | acknowledge _ _ => exact q.processAcknowledge_reported _ _
  | dataRequest _ _ => rfl

structure Quiet (e : Event) (s s' : DataService τ × PIB) : Prop where
  queues : ∀ d, Touched s.2 e d (s.1.queueAt d) (s'.1.queueAt d)
  pib : s'.2 = s.2 ∨ e = .setPib s'.2

theorem touched_insert {s : DataService τ} {pib : PIB} {e : Event} {r : DataRequest}
    (he : submission pib e = some r) (d : Option FullAddress) :
    Touched pib e d (s.queueAt d) ((s.insert pib r).queueAt d) := by
  rw [queueAt_insert, Function.update_apply]
  split
  · rename_i hd
    rw [hd]
    exact .insert he rfl
  · exact .same

/-- A request from above submits or purges, whatever order the queues are visited in. -/
theorem quiet_of_mcpsRequest (s : DataService τ × PIB) (key : UniqueKey)
    (order : List (Option FullAddress)) (request : Mcps.Request) :
    Quiet (.mcpsRequest key order request) s
      ((s.1.processMcpsRequest s.2 key order request).2, s.2) := by
  cases request with
  | data r => exact ⟨fun d => touched_insert (s := s.1) rfl d, .inl rfl⟩
  | purge r =>
    simp only [processMcpsRequest, processMcpsPurgeRequest]
    split
    · rename_i handle k msduHandles _
      refine ⟨fun d => ?_, .inl rfl⟩
      rcases remove_queueAt_mem k order
        { s.1 with msduHandles := msduHandles } d with hsame | hremove
      · dsimp only
        rw [hsame]
        exact .same
      · dsimp only
        rw [hremove]
        exact .remove rfl
    · exact ⟨fun d => .same, .inl rfl⟩

theorem quiet_of_mlmeResponse (s : DataService τ × PIB) (key : UniqueKey)
    (response : Mlme.Response) : Quiet (.mlmeResponse key response) s
      (ManagementService.processMlmeResponse s.1 s.2 key response, s.2) := by
  cases response with
  | associate deviceAddress fastAssociation status =>
    exact ⟨fun d => touched_insert (s := s.1) rfl d, .inl rfl⟩

theorem quiet_of_sendResult (s : DataService τ × PIB) (key : UniqueKey) (success : Bool) :
    Quiet (.sendResult key success) s (s.1.processSendResult key success, s.2) := by
  refine ⟨fun d => ?_, .inl rfl⟩
  rw [queueAt_processSendResult]
  exact .sendResult rfl

theorem quiet_of_frame (s : DataService τ × PIB) (f : Frame) :
    Quiet (.frame f) s (s.1.processFrame s.2 f, s.2) := by
  refine ⟨fun d => ?_, .inl rfl⟩
  rcases s.1.queueAt_processFrame s.2 f d with hsame | ⟨payload, hf, hack⟩ | ⟨hf, hsrc, hdst, hreq⟩
  · rw [hsame]
    exact .same
  · rw [hack]
    exact .acknowledge rfl hf
  · rw [hreq]
    exact .dataRequest rfl ⟨hf, hsrc, hdst⟩

theorem quiet_of_step {s s' : DataService τ × PIB} {e : Event} {o : Output}
    (hs : step s e = some (s', o)) (hpoll : ∀ cx key rounds, e ≠ .poll cx key rounds) :
    Quiet e s s' ∧ ∀ action, o ≠ .polled action := by
  cases e with
  | mcpsRequest key order request =>
    rw [step] at hs
    split at hs
    · obtain ⟨rfl, rfl⟩ := Prod.mk.inj (Option.some.inj hs)
      have hno : ∀ (confirm : Option Mcps.Confirm) action,
          confirm.elim Output.none .confirm ≠ .polled action := by
        intro confirm action
        cases confirm <;> simp
      exact ⟨quiet_of_mcpsRequest s key order request, hno _⟩
    · cases hs
  | mlmeResponse key response =>
    obtain ⟨rfl, rfl⟩ := Prod.mk.inj (Option.some.inj hs)
    exact ⟨quiet_of_mlmeResponse s key response, by simp⟩
  | initPendingTableResult key success =>
    obtain ⟨rfl, rfl⟩ := Prod.mk.inj (Option.some.inj hs)
    exact ⟨⟨fun d => .same, .inl rfl⟩, by simp⟩
  | setPendingResult key success =>
    obtain ⟨rfl, rfl⟩ := Prod.mk.inj (Option.some.inj hs)
    exact ⟨⟨fun d => .same, .inl rfl⟩, by simp⟩
  | sendResult key success =>
    obtain ⟨rfl, rfl⟩ := Prod.mk.inj (Option.some.inj hs)
    exact ⟨quiet_of_sendResult s key success, by simp⟩
  | frame f =>
    obtain ⟨rfl, rfl⟩ := Prod.mk.inj (Option.some.inj hs)
    exact ⟨quiet_of_frame s f, by simp⟩
  | poll cx key rounds => exact absurd rfl (hpoll cx key rounds)
  | setPib pib =>
    obtain ⟨rfl, rfl⟩ := Prod.mk.inj (Option.some.inj hs)
    exact ⟨⟨fun d => .same, .inr rfl⟩, by simp⟩

/-- A step is a poll or a quiet call. -/
theorem step_cases {s s' : DataService τ × PIB} {e : Event} {o : Output}
    (hs : step s e = some (s', o)) :
    (Quiet e s s' ∧ ∀ action, o ≠ .polled action) ∨
      ∃ cx key rounds action, e = .poll cx key rounds ∧ o = .polled action ∧
        s.1.pollAction s.2 cx key rounds = some (action, s') := by
  by_cases hpoll : ∃ cx key rounds, e = .poll cx key rounds
  · obtain ⟨cx, key, rounds, rfl⟩ := hpoll
    obtain ⟨⟨action, data, pib⟩, hp, heq⟩ := Option.map_eq_some_iff.mp hs
    obtain ⟨rfl, rfl⟩ := Prod.mk.inj heq
    exact .inr ⟨cx, key, rounds, action, rfl, rfl, hp⟩
  · exact .inl (quiet_of_step hs fun cx key rounds he => hpoll ⟨cx, key, rounds, he⟩)

/-- The rule for invariants of runs: a call other than the poll keeps it, and so does each silent
change of a poll and the last one. -/
theorem run_invariant {rely : Past τ → DataService τ × PIB → Event → Prop}
    {start : DataService τ × PIB} {I : Past τ → DataService τ × PIB → Prop} (hstart : I [] start)
    (hquiet : ∀ h s e s' o, rely h s e → step s e = some (s', o) → Quiet e s s' →
      (∀ action, o ≠ .polled action) → I h s → I (⟨s, e, o, s'⟩ :: h) s')
    (hsilent : ∀ h cx key a b, Silent cx key a b → I h a → I h b)
    (hfinal : ∀ h s cx key rounds a b, Final cx key a b → I h a →
      I (⟨s, .poll cx key rounds, .polled b.1, b.2⟩ :: h) b.2)
    {h : Past τ} {s : DataService τ × PIB} (hr : Run step rely start h s) : I h s := by
  refine Run.invariant hstart ?_ hr
  intro h s e s' o _ hi hrely hs
  rcases step_cases hs with ⟨hq, ho⟩ | ⟨cx, key, rounds, action, rfl, rfl, hp⟩
  · exact hquiet h s e s' o hrely hs hq ho hi
  · exact pollAction_rule (hsilent h cx key)
      (Q := fun b => I (⟨s, .poll cx key rounds, .polled b.1, b.2⟩ :: h) b.2)
      (hfinal h s cx key rounds) rounds hi hp

def Addressed (s : DataService τ) : Prop := ∀ d, ∀ r ∈ s.requestsAt d, r.destination = d

omit [Sleep τ] in
theorem Addressed.keeps {s s' : DataService τ} (hi : Addressed s)
    (hk : ∀ d, Keeps (s.queueAt d) (s'.queueAt d)) : Addressed s' :=
  fun d r hr => hi d r ((hk d).requests r hr)

theorem Addressed.quiet {s s' : DataService τ × PIB} {e : Event} (hi : Addressed s.1)
    (hq : Quiet e s s') : Addressed s'.1 :=
  fun d r hr => ((hq.queues d).requests hr).elim (hi d r) And.right

theorem Addressed.final {cx : Waker} {key : UniqueKey} {a : DataService τ × PIB}
    {b : Poll DataServiceAction × DataService τ × PIB} (hi : Addressed a.1)
    (hf : Final cx key a b) : Addressed b.2.1 := by
  rcases hf.cases with ⟨k, f, d, r, -, hsends⟩ | ⟨-, -, hkeeps⟩
  · unfold Addressed
    rw [hsends.requestsAt]
    exact hi
  · exact hi.keeps hkeeps

omit [Sleep τ] in
/-- A frame goes to the destination of the queue that it comes from. -/
theorem Sends.destination {a b : DataService τ × PIB} {k : UniqueKey} {f : Frame}
    {d : Option FullAddress} {r : DataRequest} (h : Sends a k f b d r) (hi : Addressed a.1) :
    f.destination = d := by
  obtain ⟨morePending, hf⟩ := h.frame
  rw [hf]
  exact hi d r (List.mem_of_mem_head? h.front)

/-- The rule for invariants of the transmissions. A call other than the poll keeps it, what a poll
does besides sending keeps it with the history as it is, and so do a poll that sends nothing and
one that sends a frame. -/
theorem transmission_invariant {rely : Past τ → DataService τ × PIB → Event → Prop} {pib : PIB}
    {I : Past τ → DataService τ × PIB → Prop} (hstart : I [] (new, pib))
    (hquiet : ∀ h s e s' o, rely h s e → Quiet e s s' → sent (⟨s, e, o, s'⟩ : Step τ) = none →
      I h s → I (⟨s, e, o, s'⟩ :: h) s')
    (hkeeps : ∀ h a b, b.2 = a.2 → (∀ d, Keeps (a.1.queueAt d) (b.1.queueAt d)) → I h a → I h b)
    (hnone : ∀ h t b, sent t = none → I h b → I (t :: h) b)
    (hsends : ∀ h a b k f d r t, Sends a k f b d r → f.destination = d → sent t = some (k, f) →
      t.after = b → I h a → I (t :: h) b)
    {h : Past τ} {s : DataService τ × PIB} (hr : Run step rely (new, pib) h s) : I h s := by
  have hboth : I h s ∧ Addressed s.1 := by
    refine run_invariant (I := fun h s => I h s ∧ Addressed s.1)
      ⟨hstart, fun d r hr => absurd hr List.not_mem_nil⟩ ?_ ?_ ?_ hr
    · rintro h s e s' o hrely - hq ho ⟨hi, ha⟩
      have hsent : sent (⟨s, e, o, s'⟩ : Step τ) = none := by
        unfold sent
        split
        · exact absurd ‹_› (ho _)
        · rfl
      exact ⟨hquiet h s e s' o hrely hq hsent hi, ha.quiet hq⟩
    · rintro h cx key a b hs ⟨hi, ha⟩
      exact ⟨hkeeps h a b hs.keeps.1 hs.keeps.2 hi, ha.keeps hs.keeps.2⟩
    · rintro h s cx key rounds a b hf ⟨hi, ha⟩
      refine ⟨?_, ha.final hf⟩
      rcases hf.cases with ⟨k, f, d, r, haction, hs⟩ | ⟨hno, hpib, hk⟩
      · exact hsends h a b.2 k f d r _ hs (hs.destination ha) (by simp [sent, haction]) rfl hi
      · refine hnone h _ b.2 ?_ (hkeeps h a b.2 hpib hk hi)
        unfold sent
        split
        · rename_i hpolled
          exact absurd (Output.polled.inj hpolled) (hno _ _)
        · rfl
  exact hboth.1

def coordinator : PIB :=
  { PIB.new ⟨1⟩ 11 0 0 0 with macPanId := ⟨1⟩, macShortAddress := ⟨0⟩ }

def device : FullAddress := ⟨⟨1⟩, .short ⟨2⟩⟩

def submit (key handle : Nat) (order : List (Option FullAddress)) (destination : FullAddress)
    (ackTx indirectTx : Bool) : Event :=
  .mcpsRequest ⟨key⟩ order (.data ⟨.short, some destination, [7], ⟨⟨handle⟩⟩, ackTx, indirectTx⟩)

def dataRequestFrom (source : FullAddress) : Event :=
  .frame ⟨false, false, some 0, some coordinator.getFullShortAddress, some source,
    .command .dataRequest⟩

def pollAt (key : Nat) (now : Instant) (orders : List (List FullAddress)) : Event :=
  .poll 0 ⟨key⟩ (orders.map fun order => order.map fun d => (some d, now))

def unrestricted (_ : Past τ) (_ : DataService τ × PIB) (_ : Event) : Prop := True

instance (h : Past τ) (s : DataService τ × PIB) (e : Event) : Decidable (unrestricted h s e) :=
  inferInstanceAs (Decidable True)

end ZigbeeStack.DataService
