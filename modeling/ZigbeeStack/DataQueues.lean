import ZigbeeStack.DataPoll
import ZigbeeStack.Management

/-! The data service seen as one queue for each destination, and what each of its operations does
to them. -/
namespace ZigbeeStack.DataService
open DeviceQueue
variable {τ : Type}

def queueAt (s : DataService τ) (d : Option FullAddress) : DeviceQueue τ :=
  (HashMap.get s.queues d).getD DeviceQueue.new

def requestsAt (s : DataService τ) (d : Option FullAddress) : List DataRequest :=
  (s.queueAt d).requests

theorem queueAt_of_get {s : DataService τ} {d : Option FullAddress} {q : DeviceQueue τ}
    (h : HashMap.get s.queues d = some q) : s.queueAt d = q := by
  simp [queueAt, h]

theorem queueAt_of_get_none {s : DataService τ} {d : Option FullAddress}
    (h : HashMap.get s.queues d = none) : s.queueAt d = DeviceQueue.new := by
  simp [queueAt, h]

@[simp] theorem queueAt_new (d : Option FullAddress) :
    (new : DataService τ).queueAt d = DeviceQueue.new := rfl

theorem queueAt_setQueue (s : DataService τ) (d : Option FullAddress) (q : DeviceQueue τ) :
    (s.setQueue d q).queueAt = Function.update s.queueAt d q := by
  funext d'
  rw [queueAt, setQueue, HashMap.get_set, Function.update_apply]
  split <;> rfl

/-- A queue that goes is empty and forgets everything, so nothing is lost with it. -/
theorem queueAt_remove (s : DataService τ) (d : Option FullAddress) :
    queueAt { s with queues := HashMap.remove s.queues d } =
      Function.update s.queueAt d DeviceQueue.new := by
  funext d'
  rw [queueAt, HashMap.get_remove, Function.update_apply]
  split <;> rfl

theorem queueAt_mapQueues (s : DataService τ) {f : DeviceQueue τ → DeviceQueue τ}
    (hf : f DeviceQueue.new = DeviceQueue.new) (d : Option FullAddress) :
    (s.mapQueues f).queueAt d = f (s.queueAt d) := by
  rw [queueAt, queueAt, mapQueues, HashMap.get_mapValues]
  cases HashMap.get s.queues d with
  | none => exact hf.symm
  | some q => rfl

theorem requestsAt_of_update {s s' : DataService τ} {d : Option FullAddress} {q : DeviceQueue τ}
    (h : s'.queueAt = Function.update s.queueAt d q) :
    s'.requestsAt = Function.update s.requestsAt d q.requests := by
  funext d'
  rw [requestsAt, h, Function.update_apply, Function.update_apply]
  split <;> rfl

/-! A removal asks the queues one after the other and stops at the first that had the key. -/

theorem removeFrom_done (key : UniqueKey) (order : List (Option FullAddress))
    (s : DataService τ) : (removeFrom key order true s).2 = s := by
  induction order with
  | nil => rfl
  | cons d rest ih =>
    rw [removeFrom]
    cases HashMap.get s.queues d with
    | none => exact ih
    | some q => exact ih

theorem removeFrom_cases (key : UniqueKey) (order : List (Option FullAddress))
    (s : DataService τ) :
    ((∀ d ∈ order, (s.queueAt d).contains key = false) ∧
        (removeFrom key order false s).2.queueAt = s.queueAt) ∨
      ∃ d ∈ order, (s.queueAt d).contains key = true ∧
        (removeFrom key order false s).2.queueAt =
          Function.update s.queueAt d ((s.queueAt d).remove key).2 := by
  induction order generalizing s with
  | nil => exact .inl ⟨by simp, rfl⟩
  | cons d rest ih =>
    rw [removeFrom]
    cases hq : HashMap.get s.queues d with
    | none =>
      have hnew : (s.queueAt d).contains key = false := by rw [queueAt_of_get_none hq]; rfl
      refine (ih s).imp ?_ ?_
      · rintro ⟨hno, hsame⟩
        exact ⟨List.forall_mem_cons.mpr ⟨hnew, hno⟩, hsame⟩
      · rintro ⟨d', hd', h⟩
        exact ⟨d', List.mem_cons_of_mem _ hd', h⟩
    | some q =>
      have hat : s.queueAt d = q := queueAt_of_get hq
      simp only [Bool.false_eq_true, if_false, remove_fst]
      cases hc : q.contains key with
      | true =>
        refine .inr ⟨d, List.mem_cons_self, by rw [hat, hc], ?_⟩
        rw [removeFrom_done, queueAt_setQueue, hat]
      | false =>
        have hsame : (s.setQueue d (q.remove key).2).queueAt = s.queueAt := by
          rw [remove_of_not_contains hc, queueAt_setQueue, ← hat, Function.update_eq_self]
        have ih' := ih (s.setQueue d (q.remove key).2)
        rw [hsame] at ih'
        refine ih'.imp ?_ ?_
        · rintro ⟨hno, heq⟩
          exact ⟨List.forall_mem_cons.mpr ⟨by rw [hat, hc], hno⟩, heq⟩
        · rintro ⟨d', hd', h⟩
          exact ⟨d', List.mem_cons_of_mem _ hd', h⟩

theorem removeFrom_rest (key : UniqueKey) (order : List (Option FullAddress))
    (removed : Bool) (s : DataService τ) :
    (removeFrom key order removed s).2.msduHandles = s.msduHandles ∧
      (removeFrom key order removed s).2.pendingTable = s.pendingTable := by
  induction order generalizing removed s with
  | nil => exact ⟨rfl, rfl⟩
  | cons d rest ih =>
    rw [removeFrom]
    cases HashMap.get s.queues d with
    | none => exact ih removed s
    | some q =>
      cases removed with
      | true => exact ih true s
      | false => exact ih _ (s.setQueue d (q.remove key).2)

theorem remove_queueAt_mem (key : UniqueKey) (order : List (Option FullAddress))
    (s : DataService τ) (d : Option FullAddress) :
    (s.remove key order).2.queueAt d = s.queueAt d ∨
      (s.remove key order).2.queueAt d = ((s.queueAt d).remove key).2 := by
  rcases removeFrom_cases key order s with ⟨-, hsame⟩ | ⟨d', -, -, hupd⟩
  · exact .inl (by rw [remove, hsame])
  · rw [remove, hupd, Function.update_apply]
    split
    · rename_i hd
      exact .inr (by rw [hd])
    · exact .inl rfl

/-- When one queue at most holds the key, every queue is rid of it. -/
theorem remove_queueAt {key : UniqueKey} {order : List (Option FullAddress)} {s : DataService τ}
    (horder : HashMap.Enumerates order s.queues)
    (hone : ∀ d d', (s.queueAt d).contains key = true → (s.queueAt d').contains key = true → d = d')
    (d : Option FullAddress) :
    (s.remove key order).2.queueAt d = ((s.queueAt d).remove key).2 := by
  rcases removeFrom_cases key order s with ⟨hno, hsame⟩ | ⟨d', -, hd', hupd⟩
  · rw [remove, hsame]
    refine (remove_of_not_contains ?_).symm
    cases hq : HashMap.get s.queues d with
    | none =>
      rw [queueAt_of_get_none hq]
      rfl
    | some q => exact hno d (HashMap.mem_order horder hq)
  · rw [remove, hupd, Function.update_apply]
    split
    · rename_i hd
      rw [hd]
    · rename_i hd
      refine (remove_of_not_contains ?_).symm
      rw [← Bool.not_eq_true]
      exact fun hc => hd (hone d d' hc hd')

variable [Sleep τ]

theorem queueAt_insert (s : DataService τ) (pib : PIB) (r : DataRequest) :
    (s.insert pib r).queueAt =
      Function.update s.queueAt r.destination ((s.queueAt r.destination).insert pib r).2 := by
  unfold insert
  cases hq : HashMap.get s.queues r.destination with
  | some q => rw [queueAt_of_get hq, queueAt_setQueue]
  | none =>
    rw [queueAt_of_get_none hq]
    exact s.queueAt_setQueue r.destination (DeviceQueue.new.insert pib r).2

/-- A request with a key of its own goes to the back of its queue. -/
theorem requestsAt_insert {s : DataService τ} (pib : PIB) {r : DataRequest}
    (hnew : ∀ e ∈ s.requestsAt r.destination, e.key ≠ r.key) :
    (s.insert pib r).requestsAt =
      Function.update s.requestsAt r.destination (s.requestsAt r.destination ++ [r]) := by
  have hc : ¬ (s.queueAt r.destination).contains r.key = true := by
    rw [contains_iff]
    rintro hmem
    obtain ⟨e, he, hk⟩ := List.mem_map.mp hmem
    exact hnew e he hk
  rw [requestsAt_of_update (s.queueAt_insert pib r), insert_requests, if_neg hc]
  rfl

theorem insert_rest (s : DataService τ) (pib : PIB) (r : DataRequest) :
    (s.insert pib r).msduHandles = s.msduHandles ∧
      (s.insert pib r).pendingTable = s.pendingTable := by
  unfold insert
  split <;> exact ⟨rfl, rfl⟩

theorem processMcpsRequest_pendingTable (s : DataService τ) (pib : PIB) (key : UniqueKey)
    (order : List (Option FullAddress)) (request : Mcps.Request) :
    (s.processMcpsRequest pib key order request).2.pendingTable = s.pendingTable := by
  cases request with
  | data r => exact (s.insert_rest pib _).2
  | purge r =>
    simp only [processMcpsRequest, processMcpsPurgeRequest]
    split
    · exact (removeFrom_rest _ _ _ _).2
    · rfl

theorem queueAt_processSendResult (s : DataService τ) (key : UniqueKey) (success : Bool)
    (d : Option FullAddress) :
    (s.processSendResult key success).queueAt d = (s.queueAt d).processSendResult key success :=
  s.queueAt_mapQueues rfl d

omit [Sleep τ] in
/-- A received frame touches the queues in one of two ways: an acknowledge is shown to all of them,
a data request to the coordinator goes to the queue of its sender. -/
theorem queueAt_processFrame (s : DataService τ) (pib : PIB) (f : Frame) (d : Option FullAddress) :
    (s.processFrame pib f).queueAt d = s.queueAt d ∨
      (∃ payload, f.frameType = .ack payload ∧ (s.processFrame pib f).queueAt d =
        (s.queueAt d).processAcknowledge f.sequenceNumber payload.bytes) ∨
      (f.frameType = .command .dataRequest ∧ f.source = d ∧
        (f.destination = some pib.getFullShortAddress ∨
          f.destination = some pib.getFullExtendedAddress) ∧
        (s.processFrame pib f).queueAt d = (s.queueAt d).processDatarequest) := by
  unfold processFrame
  split
  · rename_i payload hf
    exact .inr (.inl ⟨payload, hf, s.queueAt_mapQueues rfl d⟩)
  · rename_i hf
    unfold processFrameDataRequest
    split
    · rename_i hdest
      cases hq : HashMap.get s.queues f.source with
      | none => exact .inl rfl
      | some q =>
        by_cases hd : f.source = d
        · subst hd
          refine .inr (.inr ⟨hf, rfl, hdest, ?_⟩)
          rw [queueAt_of_get hq, queueAt_setQueue, Function.update_self]
        · refine .inl ?_
          rw [queueAt_setQueue, Function.update_of_ne (Ne.symm hd)]
    · exact .inl rfl
  · exact .inl rfl

omit [Sleep τ] in
theorem processFrame_rest (s : DataService τ) (pib : PIB) (f : Frame) :
    (s.processFrame pib f).msduHandles = s.msduHandles ∧
      (s.processFrame pib f).pendingTable = s.pendingTable := by
  unfold processFrame
  split
  · exact ⟨rfl, rfl⟩
  · unfold processFrameDataRequest
    split
    · split <;> exact ⟨rfl, rfl⟩
    · exact ⟨rfl, rfl⟩
  · exact ⟨rfl, rfl⟩

/-! A call of the poll, seen from the queues. -/

structure Keeps (q q' : DeviceQueue τ) : Prop where
  requests : ∀ r ∈ q'.requests, r ∈ q.requests
  advances : Advances q.state q'.state

omit [Sleep τ] in
theorem Keeps.refl (q : DeviceQueue τ) : Keeps q q := ⟨fun _ hr => hr, .refl _⟩

omit [Sleep τ] in
/-- A queue is kept where another one is changed. -/
theorem keeps_update {s : DataService τ} {d : Option FullAddress} {q' : DeviceQueue τ}
    (h : Keeps (s.queueAt d) q') (d' : Option FullAddress) :
    Keeps (s.queueAt d') (Function.update s.queueAt d q' d') := by
  rw [Function.update_apply]
  split
  · rename_i hd
    rwa [hd]
  · exact .refl _

theorem keeps_of_outcome {q q' : DeviceQueue τ} {pib pib' : PIB} {now : Instant} {cx : Waker}
    {key : UniqueKey} {action : Poll DeviceQueueAction}
    (h : PollOutcome q pib now cx key (action, q', pib'))
    (hsend : ∀ k f, action ≠ .ready (.sendFrame k f)) : Keeps q q' ∧ pib' = pib := by
  have hadv := h.advances
  split at hadv
  · exact absurd rfl (hsend _ _)
  · exact ⟨⟨fun _ hr => h.mem_requests hr, hadv.1⟩, hadv.2⟩

omit [Sleep τ] in
/-- A queue that keeps what it has may be put back. -/
theorem keeps_setQueue {s : DataService τ} {d : Option FullAddress} {q q' : DeviceQueue τ}
    (hq : HashMap.get s.queues d = some q) (hk : Keeps q q') (d' : Option FullAddress) :
    Keeps (s.queueAt d') ((s.setQueue d q').queueAt d') := by
  rw [← queueAt_of_get hq] at hk
  rw [queueAt_setQueue]
  exact keeps_update hk d'

theorem Silent.keeps {cx : Waker} {key : UniqueKey} {a b : DataService τ × PIB}
    (h : Silent cx key a b) :
    b.2 = a.2 ∧ ∀ d, Keeps (a.1.queueAt d) (b.1.queueAt d) := by
  cases h with
  | table _ => exact ⟨rfl, fun d => .refl _⟩
  | waits hq hp =>
    obtain ⟨hk, rfl⟩ := keeps_of_outcome hp (by simp)
    exact ⟨rfl, keeps_setQueue hq hk⟩
  | @empty s pib pib' d q q' now hq hp =>
    obtain ⟨-, rfl⟩ := keeps_of_outcome hp (by simp)
    refine ⟨rfl, fun d' => ?_⟩
    have hupd := congrFun ((s.setQueue d q').queueAt_remove d) d'
    rw [queueAt_setQueue, Function.update_idem] at hupd
    exact hupd ▸ keeps_update ⟨fun r hr => absurd hr List.not_mem_nil, .givesUp _⟩ d'
  | setPending hq hp =>
    obtain ⟨hk, rfl⟩ := keeps_of_outcome hp (by simp)
    exact ⟨rfl, keeps_setQueue hq hk⟩
  | unreported hq hp _ =>
    obtain ⟨hk, rfl⟩ := keeps_of_outcome hp (by simp)
    exact ⟨rfl, keeps_setQueue hq hk⟩

structure Sends (a : DataService τ × PIB) (k : UniqueKey) (f : Frame) (b : DataService τ × PIB)
    (d : Option FullAddress) (r : DataRequest) : Prop where
  front : (a.1.requestsAt d).head? = some r
  idle : ∃ datarequest, (a.1.queueAt d).state = .idle datarequest ∧
    (r.indirect = false ∨ datarequest = true)
  frame : ∃ morePending, f = (createFrame r a.2 morePending).1.2
  queues : ∃ q', b.1.queueAt = Function.update a.1.queueAt d q' ∧
    q'.requests = a.1.requestsAt d ∧
    q'.state = .sending k (if r.acknowledgeRequest then some a.2.macDsn else none) []
  pib : b.2 = { a.2 with macDsn := a.2.macDsn + 1 }

omit [Sleep τ] in
theorem Sends.requestsAt {a b : DataService τ × PIB} {k : UniqueKey} {f : Frame}
    {d : Option FullAddress} {r : DataRequest} (h : Sends a k f b d r) :
    b.1.requestsAt = a.1.requestsAt := by
  obtain ⟨q', hupd, hrequests, -⟩ := h.queues
  rw [requestsAt_of_update hupd, hrequests, Function.update_eq_self]

theorem Final.cases {cx : Waker} {key : UniqueKey} {a : DataService τ × PIB}
    {b : Poll DataServiceAction × DataService τ × PIB} (h : Final cx key a b) :
    (∃ k f d r, b.1 = .ready (.sendFrame k f) ∧ Sends a k f b.2 d r) ∨
      ((∀ k f, b.1 ≠ .ready (.sendFrame k f)) ∧ b.2.2 = a.2 ∧
        ∀ d, Keeps (a.1.queueAt d) (b.2.1.queueAt d)) := by
  cases h with
  | @table s pib action table _ =>
    refine .inr ⟨?_, rfl, fun d => .refl _⟩
    intro k f
    cases action <;> simp [DataServiceAction.ofCombined]
  | @sendFrame s pib pib' d q q' now k f hq hp =>
    obtain ⟨r, datarequest, morePending, hfront, hidle, hgo, hf, hst, rfl⟩ := hp.advances
    rw [← queueAt_of_get hq] at hfront hidle
    refine .inl ⟨k, f, d, r, rfl, hfront, ⟨datarequest, hidle, hgo⟩, ⟨morePending, hf⟩, ?_, rfl⟩
    refine ⟨q', s.queueAt_setQueue d q', ?_, hst⟩
    rw [requestsAt, queueAt_of_get hq]
    exact hp.requests
  | confirm hq hp _ =>
    obtain ⟨hk, rfl⟩ := keeps_of_outcome hp (by simp)
    exact .inr ⟨by simp, rfl, keeps_setQueue hq hk⟩
  | pending => exact .inr ⟨by simp, rfl, fun d => .refl _⟩

/-! A call of the poll, seen from the requests and their handles. -/

def Leaves (s s' : DataService τ) (d : Option FullAddress) (r : DataRequest) : Prop :=
  ∃ earlier later, s.requestsAt d = earlier ++ r :: later ∧
    s'.requestsAt = Function.update s.requestsAt d (earlier ++ later)

omit [Sleep τ] in
theorem requestsAt_same {s s' : DataService τ} {d : Option FullAddress} {q q' : DeviceQueue τ}
    (hq : HashMap.get s.queues d = some q) (hupd : s'.queueAt = Function.update s.queueAt d q')
    (hsame : q'.requests = q.requests) : s'.requestsAt = s.requestsAt := by
  rw [requestsAt_of_update hupd, hsame, ← queueAt_of_get hq]
  exact Function.update_eq_self _ _

omit [Sleep τ] in
theorem leaves_of_split {s s' : DataService τ} {d : Option FullAddress} {q q' : DeviceQueue τ}
    {earlier later : List DataRequest} {r : DataRequest} (hq : HashMap.get s.queues d = some q)
    (hupd : s'.queueAt = Function.update s.queueAt d q')
    (hsplit : q.requests = earlier ++ r :: later) (hrest : q'.requests = earlier ++ later) :
    Leaves s s' d r := by
  refine ⟨earlier, later, ?_, ?_⟩
  · rw [requestsAt, queueAt_of_get hq, hsplit]
  · rw [requestsAt_of_update hupd, hrest]

/-- Without a report, at most a request that has no handle leaves. -/
theorem Silent.leaves {cx : Waker} {key : UniqueKey} {a b : DataService τ × PIB}
    (h : Silent cx key a b) :
    (∀ p, p ∈ b.1.msduHandles ↔ p ∈ a.1.msduHandles) ∧
      (b.1.requestsAt = a.1.requestsAt ∨
        ∃ d r, Leaves a.1 b.1 d r ∧ ∀ handle, (handle, r.key) ∉ a.1.msduHandles) := by
  cases h with
  | table _ => exact ⟨fun _ => Iff.rfl, .inl rfl⟩
  | @waits s pib pib' d q q' now hq hp =>
    exact ⟨fun _ => Iff.rfl, .inl (requestsAt_same hq (s.queueAt_setQueue d q') hp.requests)⟩
  | @empty s pib pib' d q q' now hq hp =>
    have hupd := (s.setQueue d q').queueAt_remove d
    rw [queueAt_setQueue, Function.update_idem] at hupd
    exact ⟨fun _ => Iff.rfl, .inl (requestsAt_same hq hupd hp.requests.1.symm)⟩
  | @setPending s pib pib' d q q' now pending hq hp =>
    exact ⟨fun _ => Iff.rfl, .inl (requestsAt_same hq (s.queueAt_setQueue d q') hp.requests)⟩
  | @unreported s pib pib' d q q' now k result msduHandles hq hp hr =>
    obtain ⟨hno, hsame⟩ := (hr ▸ TwoWayMap.removeByRight_removes s.msduHandles k).of_none
    obtain ⟨earlier, r, later, hsplit, rfl, hrest⟩ := hp.requests
    exact ⟨hsame, .inr ⟨d, r, leaves_of_split hq (s.queueAt_setQueue d q') hsplit hrest,
      fun handle hmem => hno _ hmem rfl⟩⟩

/-- A poll that returns a confirm has taken its request out of the queue and its handle out of the
two-way map. -/
theorem Final.leaves {cx : Waker} {key : UniqueKey} {a : DataService τ × PIB}
    {b : Poll DataServiceAction × DataService τ × PIB} (h : Final cx key a b) :
    (∃ handle result d r, b.1 = .ready (.confirm (.data ⟨handle, result⟩)) ∧
        Leaves a.1 b.2.1 d r ∧ (handle, r.key) ∈ a.1.msduHandles ∧
        ∀ p, p ∈ b.2.1.msduHandles ↔ p ∈ a.1.msduHandles ∧ p.2 ≠ r.key) ∨
      ((∀ c, b.1 ≠ .ready (.confirm c)) ∧ b.2.1.requestsAt = a.1.requestsAt ∧
        ∀ p, p ∈ b.2.1.msduHandles ↔ p ∈ a.1.msduHandles) := by
  cases h with
  | @table s pib action table _ =>
    refine .inr ⟨?_, rfl, fun _ => Iff.rfl⟩
    intro c
    cases action <;> simp [DataServiceAction.ofCombined]
  | @sendFrame s pib pib' d q q' now k f hq hp =>
    exact .inr ⟨by simp, requestsAt_same hq (s.queueAt_setQueue d q') hp.requests,
      fun _ => Iff.rfl⟩
  | @confirm s pib pib' d q q' now k result handle k' msduHandles hq hp hr =>
    have hremoves := hr ▸ TwoWayMap.removeByRight_removes s.msduHandles k
    obtain ⟨hmem, rfl⟩ := hremoves.of_some
    obtain ⟨earlier, r, later, hsplit, rfl, hqueue⟩ := hp.requests
    exact .inl ⟨handle, _, d, r, rfl,
      leaves_of_split hq (s.queueAt_setQueue d q') hsplit hqueue, hmem, hremoves.mem_iff⟩
  | pending => exact .inr ⟨by simp, rfl, fun _ => Iff.rfl⟩

end ZigbeeStack.DataService
