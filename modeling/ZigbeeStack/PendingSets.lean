import ZigbeeStack.DataRuns
import ZigbeeStack.PendingTableSlots

/-! The sets of addresses that have data waiting, and the queues that they follow. There is one
queue for each full address but one entry for each extended address, whatever its PAN. -/
namespace ZigbeeStack

def extendedAddress : Option FullAddress → Option ExtendedAddress
  | some ⟨_, .extended a⟩ => some a
  | _ => none

theorem extendedAddress_eq_some {d : Option FullAddress} {a : ExtendedAddress} :
    extendedAddress d = some a ↔ ∃ p, d = some ⟨p, .extended a⟩ := by
  unfold extendedAddress
  split
  · simp
  · rename_i hno
    simp only [reduceCtorEq, false_iff, not_exists]
    exact fun p hd => hno p a hd

namespace CombinedPendingTable

theorem pollAction_values (c : CombinedPendingTable) (cx : Waker) (key : UniqueKey) :
    (c.pollAction cx key).2.short.values = c.short.values ∧
      (c.pollAction cx key).2.extended.values = c.extended.values := by
  have hshort := (c.short.pollUpdate_placement cx key).1
  have hextended := (c.extended.pollUpdate_placement cx key).1
  unfold pollAction
  split
  · exact ⟨rfl, rfl⟩
  · split
    · exact ⟨rfl, rfl⟩
    · cases hs : c.short.pollUpdate cx key with
      | mk action short =>
        rw [hs] at hshort
        cases action with
        | ready update => exact ⟨hshort, rfl⟩
        | pending =>
          cases he : c.extended.pollUpdate cx key with
          | mk action extended =>
            rw [he] at hextended
            cases action with
            | ready update => exact ⟨hshort, hextended⟩
            | pending => exact ⟨hshort, hextended⟩

theorem reportInitResult_values (c : CombinedPendingTable) (key : UniqueKey) (result : Bool) :
    (c.reportInitResult key result).short.values = c.short.values ∧
      (c.reportInitResult key result).extended.values = c.extended.values := by
  unfold reportInitResult
  split
  · cases result with
    | false => exact ⟨rfl, rfl⟩
    | true => exact ⟨rfl, rfl⟩
  · exact ⟨rfl, rfl⟩

theorem reportUpdateResult_values (c : CombinedPendingTable) (key : UniqueKey) (success : Bool) :
    (c.reportUpdateResult key success).short.values = c.short.values ∧
      (c.reportUpdateResult key success).extended.values = c.extended.values :=
  ⟨(c.short.reportUpdateResult_placement key success).1,
    (c.extended.reportUpdateResult_placement key success).1⟩

theorem mem_set_short (c : CombinedPendingTable) (d : Option FullAddress) (pending : Bool)
    (p : PANID) (a : ShortAddress) :
    (p, a) ∈ (c.set d pending).short.values ↔
      if d = some ⟨p, .short a⟩ then pending = true else (p, a) ∈ c.short.values := by
  cases d with
  | none => rfl
  | some d =>
    obtain ⟨p', address⟩ := d
    cases address with
    | extended a' =>
      rw [if_neg (by simp)]
      rfl
    | short a' =>
      have hset : (c.set (some ⟨p', .short a'⟩) pending).short = c.short.set (p', a') pending := rfl
      rw [hset, PendingTable.set_values]
      by_cases heq : (p, a) = (p', a')
      · obtain ⟨rfl, rfl⟩ := Prod.mk.inj heq
        cases pending <;> simp
      · have hne : some (FullAddress.mk p' (.short a')) ≠ some ⟨p, .short a⟩ := by
          rintro h
          obtain ⟨rfl, rfl⟩ : p' = p ∧ a' = a := by simpa using h
          exact heq rfl
        rw [if_neg hne]
        cases pending <;> simp [heq]

theorem mem_set_extended (c : CombinedPendingTable) (d : Option FullAddress) (pending : Bool)
    (a : ExtendedAddress) :
    a ∈ (c.set d pending).extended.values ↔
      if extendedAddress d = some a then pending = true else a ∈ c.extended.values := by
  cases d with
  | none => rfl
  | some d =>
    obtain ⟨p, address⟩ := d
    cases address with
    | short a' => rfl
    | extended a' =>
      have hset : (c.set (some ⟨p, .extended a'⟩) pending).extended = c.extended.set a' pending :=
        rfl
      rw [hset, PendingTable.set_values, extendedAddress]
      by_cases heq : a' = a
      · subst heq
        cases pending <;> simp
      · rw [if_neg fun h => heq (Option.some.inj h)]
        cases pending <;> simp [Ne.symm heq]

end CombinedPendingTable

namespace DataService
open Runs DeviceQueue
variable {τ : Type}

def ReportedAt (s : DataService τ) (d : Option FullAddress) : Prop :=
  (s.queueAt d).lastPendingReported = some true

theorem not_reportedAt_new (d : Option FullAddress) : ¬ (new : DataService τ).ReportedAt d := by
  rw [ReportedAt, queueAt_new]
  simp [DeviceQueue.new]

/-- The short addresses in the set are those whose queue last reported that data waits. -/
def ShortFollows (s : DataService τ) : Prop :=
  ∀ p a, (p, a) ∈ s.pendingTable.short.values ↔ s.ReportedAt (some ⟨p, .short a⟩)

def ExtendedFollows (s : DataService τ) : Prop :=
  ∀ a, a ∈ s.pendingTable.extended.values ↔ ∃ p, s.ReportedAt (some ⟨p, .extended a⟩)

/-- Two queues of one extended address, in different PANs, drive one entry of the table. -/
def Rivals (d d' : Option FullAddress) : Prop :=
  (extendedAddress d).isSome ∧ extendedAddress d' = extendedAddress d ∧ d' ≠ d

instance (d d' : Option FullAddress) : Decidable (Rivals d d') :=
  inferInstanceAs (Decidable (_ ∧ _ ∧ _))

variable [Sleep τ]

theorem values_of_step {s s' : DataService τ × PIB} {e : Event} {o : Output}
    (hs : step s e = some (s', o)) (ho : ∀ action, o ≠ .polled action) :
    s'.1.pendingTable.short.values = s.1.pendingTable.short.values ∧
      s'.1.pendingTable.extended.values = s.1.pendingTable.extended.values := by
  cases e with
  | mcpsRequest key order request =>
    rw [step] at hs
    split at hs
    · cases request with
      | data r =>
        obtain ⟨rfl, rfl⟩ := Prod.mk.inj (Option.some.inj hs)
        have hrest := (s.1.insert_rest s.2 (internalRequest key r)).2
        exact ⟨congrArg (·.short.values) hrest, congrArg (·.extended.values) hrest⟩
      | purge r =>
        simp only [processMcpsRequest, processMcpsPurgeRequest] at hs
        split at hs
        · rename_i handle k msduHandles _
          obtain ⟨rfl, rfl⟩ := Prod.mk.inj (Option.some.inj hs)
          have hrest := (removeFrom_rest k order false { s.1 with msduHandles := msduHandles }).2
          exact ⟨congrArg (·.short.values) hrest, congrArg (·.extended.values) hrest⟩
        · obtain ⟨rfl, rfl⟩ := Prod.mk.inj (Option.some.inj hs)
          exact ⟨rfl, rfl⟩
    · cases hs
  | mlmeResponse key response =>
    cases response with
    | associate deviceAddress fastAssociation status =>
      obtain ⟨rfl, rfl⟩ := Prod.mk.inj (Option.some.inj hs)
      have hrest := (s.1.insert_rest s.2 (ManagementService.associateResponse s.2 key deviceAddress
        fastAssociation status)).2
      exact ⟨congrArg (·.short.values) hrest, congrArg (·.extended.values) hrest⟩
  | initPendingTableResult key success =>
    obtain ⟨rfl, rfl⟩ := Prod.mk.inj (Option.some.inj hs)
    exact s.1.pendingTable.reportInitResult_values key success
  | setPendingResult key success =>
    obtain ⟨rfl, rfl⟩ := Prod.mk.inj (Option.some.inj hs)
    exact s.1.pendingTable.reportUpdateResult_values key success
  | sendResult key success =>
    obtain ⟨rfl, rfl⟩ := Prod.mk.inj (Option.some.inj hs)
    exact ⟨rfl, rfl⟩
  | frame f =>
    obtain ⟨rfl, rfl⟩ := Prod.mk.inj (Option.some.inj hs)
    have hrest := (s.1.processFrame_rest s.2 f).2
    exact ⟨congrArg (·.short.values) hrest, congrArg (·.extended.values) hrest⟩
  | poll cx key rounds =>
    obtain ⟨⟨action, data, pib⟩, -, heq⟩ := Option.map_eq_some_iff.mp hs
    obtain ⟨rfl, rfl⟩ := Prod.mk.inj heq
    exact absurd rfl (ho action)
  | setPib pib =>
    obtain ⟨rfl, rfl⟩ := Prod.mk.inj (Option.some.inj hs)
    exact ⟨rfl, rfl⟩

structure Reports (a b : DataService τ) (d : Option FullAddress) (q : DeviceQueue τ)
    (pending : Bool) : Prop where
  queue : HashMap.get a.queues d = some q
  flag : q.shouldBePending = pending
  changed : q.lastPendingReported ≠ some pending
  table : b.pendingTable = a.pendingTable.set d pending
  reported : ∀ d', b.ReportedAt d' ↔ if d' = d then pending = true else a.ReportedAt d'

structure NoReport (a b : DataService τ) : Prop where
  short : b.pendingTable.short.values = a.pendingTable.short.values
  extended : b.pendingTable.extended.values = a.pendingTable.extended.values
  reported : ∀ d, b.ReportedAt d ↔ a.ReportedAt d

omit [Sleep τ] in
theorem reportedAt_update {a b : DataService τ} {d : Option FullAddress} {q : DeviceQueue τ}
    (hupd : b.queueAt = Function.update a.queueAt d q)
    (hq : q.lastPendingReported = some true ↔ a.ReportedAt d) (d' : Option FullAddress) :
    b.ReportedAt d' ↔ a.ReportedAt d' := by
  rw [ReportedAt, hupd, Function.update_apply]
  split
  · rename_i hd
    rw [hd, hq]
  · rfl

theorem outcome_reported {s : DataService τ} {d : Option FullAddress} {q q' : DeviceQueue τ}
    {pib pib' : PIB} {now : Instant} {cx : Waker} {key : UniqueKey}
    {action : Poll DeviceQueueAction} (hq : HashMap.get s.queues d = some q)
    (hp : PollOutcome q pib now cx key (action, q', pib'))
    (hpending : ∀ pending, action ≠ .ready (.setPending pending)) :
    q'.lastPendingReported = some true ↔ s.ReportedAt d := by
  have hrep := hp.reported
  rw [ReportedAt, queueAt_of_get hq]
  split at hrep
  · exact absurd rfl (hpending _)
  · rw [hrep.2]

theorem Silent.reports {cx : Waker} {key : UniqueKey} {a b : DataService τ × PIB}
    (h : Silent cx key a b) : NoReport a.1 b.1 ∨ ∃ d q pending, Reports a.1 b.1 d q pending := by
  cases h with
  | @table s pib table ht =>
    have hvalues := s.pendingTable.pollAction_values cx key
    rw [ht] at hvalues
    exact .inl ⟨hvalues.1, hvalues.2, fun _ => Iff.rfl⟩
  | @waits s pib pib' d q q' now hq hp =>
    refine .inl ⟨rfl, rfl, reportedAt_update (s.queueAt_setQueue d q') ?_⟩
    exact outcome_reported hq hp (by simp)
  | @empty s pib pib' d q q' now hq hp =>
    have hupd := (s.setQueue d q').queueAt_remove d
    rw [queueAt_setQueue, Function.update_idem] at hupd
    refine .inl ⟨rfl, rfl, reportedAt_update hupd ?_⟩
    -- the queue is empty, so what it reported last is that nothing waits
    have hrep := hp.reported.1
    rw [shouldBePending_eq, hp.requests.1] at hrep
    rw [ReportedAt, queueAt_of_get hq, hrep]
    simp [DeviceQueue.new]
  | @setPending s pib pib' d q q' now pending hq hp =>
    obtain ⟨hflag, hrep⟩ := hp.reported
    have hchanged : q.lastPendingReported ≠ some pending := by
      cases hp with
      | setPending hne => exact hne
    refine .inr ⟨d, q, pending, hq, hflag.symm, hchanged, rfl, fun d' => ?_⟩
    have hupd := congrFun (s.queueAt_setQueue d q') d'
    rw [ReportedAt]
    dsimp only
    rw [show queueAt { s.setQueue d q' with pendingTable := s.pendingTable.set d pending } d' = _
      from hupd, Function.update_apply]
    split
    · rw [hrep, Option.some.injEq]
    · rfl
  | @unreported s pib pib' d q q' now k result msduHandles hq hp hr =>
    refine .inl ⟨rfl, rfl, reportedAt_update (s.queueAt_setQueue d q') ?_⟩
    exact outcome_reported hq hp (by simp)

theorem Final.noReport {cx : Waker} {key : UniqueKey} {a : DataService τ × PIB}
    {b : Poll DataServiceAction × DataService τ × PIB} (h : Final cx key a b) :
    NoReport a.1 b.2.1 := by
  cases h with
  | @table s pib action table ht =>
    have hvalues := s.pendingTable.pollAction_values cx key
    rw [ht] at hvalues
    exact ⟨hvalues.1, hvalues.2, fun _ => Iff.rfl⟩
  | @sendFrame s pib pib' d q q' now k f hq hp =>
    refine ⟨rfl, rfl, reportedAt_update (s.queueAt_setQueue d q') ?_⟩
    exact outcome_reported hq hp (by simp)
  | @confirm s pib pib' d q q' now k result handle k' msduHandles hq hp hr =>
    refine ⟨rfl, rfl, reportedAt_update (s.queueAt_setQueue d q') ?_⟩
    exact outcome_reported hq hp (by simp)
  | pending => exact ⟨rfl, rfl, fun _ => Iff.rfl⟩

omit [Sleep τ] in
theorem ShortFollows.noReport {a b : DataService τ} (hi : ShortFollows a) (h : NoReport a b) :
    ShortFollows b := by
  intro p x
  rw [h.short, h.reported]
  exact hi p x

omit [Sleep τ] in
/-- There is one queue for each short address. -/
theorem ShortFollows.reports {a b : DataService τ} {d : Option FullAddress} {q : DeviceQueue τ}
    {pending : Bool} (hi : ShortFollows a) (h : Reports a b d q pending) : ShortFollows b := by
  intro p x
  rw [h.table, CombinedPendingTable.mem_set_short, h.reported]
  by_cases hd : d = some ⟨p, .short x⟩
  · rw [if_pos hd, if_pos hd.symm]
  · rw [if_neg hd, if_neg (Ne.symm hd)]
    exact hi p x

omit [Sleep τ] in
theorem ExtendedFollows.noReport {a b : DataService τ} (hi : ExtendedFollows a)
    (h : NoReport a b) : ExtendedFollows b := by
  intro x
  simp only [h.extended, h.reported]
  exact hi x

omit [Sleep τ] in
/-- The queue that withdraws an extended address must be the only one that has announced it. -/
theorem ExtendedFollows.reports {a b : DataService τ} {d : Option FullAddress} {q : DeviceQueue τ}
    {pending : Bool} (hi : ExtendedFollows a) (h : Reports a b d q pending)
    (honly : pending = false → ∀ d', Rivals d' d → ¬ a.ReportedAt d') : ExtendedFollows b := by
  intro x
  rw [h.table, CombinedPendingTable.mem_set_extended]
  simp only [h.reported]
  by_cases hd : extendedAddress d = some x
  · rw [if_pos hd]
    constructor
    · intro hpending
      obtain ⟨p, rfl⟩ := extendedAddress_eq_some.mp hd
      exact ⟨p, by simpa using hpending⟩
    · rintro ⟨p, hp⟩
      split at hp
      · exact hp
      · rename_i hne
        by_contra hpending
        have hrivals : Rivals (some ⟨p, .extended x⟩) d := ⟨rfl, hd, Ne.symm hne⟩
        exact honly (by simpa using hpending) _ hrivals hp
  · rw [if_neg hd, hi x]
    refine exists_congr fun p => ?_
    have hne : some ⟨p, .extended x⟩ ≠ d := by
      rintro rfl
      exact hd rfl
    rw [if_neg hne]

/-- The front request has no handle, so that a poll may take it out and go on. -/
def frontUnreported (s : DataService τ) (q : DeviceQueue τ) : Bool :=
  q.requests.head?.any fun r => (TwoWayMap.getByRight s.msduHandles r.key).isNone

/-- The queue has announced its address, or the next poll may find that it has to. -/
def mayAnnounce (s : DataService τ) (q : DeviceQueue τ) : Bool :=
  q.lastPendingReported == some true || q.shouldBePending ||
    (s.frontUnreported q && q.requests.any (·.indirect))

/-- The next poll may find that the queue has to withdraw its address. -/
def mayWithdraw (s : DataService τ) (q : DeviceQueue τ) : Bool :=
  (q.lastPendingReported != some false && !q.shouldBePending) ||
    (s.frontUnreported q && q.requests.any (·.indirect))

omit [Sleep τ] in
theorem mayAnnounce_iff {s : DataService τ} {q : DeviceQueue τ} : s.mayAnnounce q = true ↔
    q.lastPendingReported = some true ∨ q.shouldBePending = true ∨
      (s.frontUnreported q = true ∧ q.requests.any (·.indirect) = true) := by
  simp [mayAnnounce, or_assoc]

omit [Sleep τ] in
theorem mayWithdraw_iff {s : DataService τ} {q : DeviceQueue τ} : s.mayWithdraw q = true ↔
    (q.lastPendingReported ≠ some false ∧ q.shouldBePending = false) ∨
      (s.frontUnreported q = true ∧ q.requests.any (·.indirect) = true) := by
  simp [mayWithdraw]

/-- No queue is about to withdraw an address that a rival has announced or may announce. -/
def Separate (s : DataService τ) : Prop :=
  ∀ d q d' q', HashMap.get s.queues d = some q → HashMap.get s.queues d' = some q' →
    Rivals d d' → s.mayAnnounce q = true → s.mayWithdraw q' = false

instance (s : DataService τ) : Decidable (Separate s) :=
  decidable_of_iff (∀ e ∈ s.queues.entries, ∀ e' ∈ s.queues.entries, Rivals e.1 e'.1 →
      s.mayAnnounce e.2 = true → s.mayWithdraw e'.2 = false)
    ⟨fun h d q d' q' hq hq' => h ⟨d, q⟩ (HashMap.get_eq_some_iff.mp hq) ⟨d', q'⟩
        (HashMap.get_eq_some_iff.mp hq'),
      fun h e he e' he' => h e.1 e.2 e'.1 e'.2 (HashMap.get_eq_some_iff.mpr he)
        (HashMap.get_eq_some_iff.mpr he')⟩

structure Fades (s : DataService τ) (q q' : DeviceQueue τ) : Prop where
  announce : s.mayAnnounce q' = true → s.mayAnnounce q = true
  withdraw : s.mayWithdraw q' = true → s.mayWithdraw q = true

omit [Sleep τ] in
theorem fades_of_same {s : DataService τ} {q q' : DeviceQueue τ} (hreq : q'.requests = q.requests)
    (hrep : q'.lastPendingReported = q.lastPendingReported) : Fades s q q' := by
  have hflag := shouldBePending_of_requests hreq
  refine ⟨?_, ?_⟩
  · rw [mayAnnounce, mayAnnounce, frontUnreported, frontUnreported, hreq, hrep, hflag]
    exact id
  · rw [mayWithdraw, mayWithdraw, frontUnreported, frontUnreported, hreq, hrep, hflag]
    exact id

omit [Sleep τ] in
theorem fades_of_report {s : DataService τ} {q q' : DeviceQueue τ} (hreq : q'.requests = q.requests)
    (hrep : q'.lastPendingReported = some q.shouldBePending) : Fades s q q' := by
  have hflag := shouldBePending_of_requests hreq
  have hfront : s.frontUnreported q' = s.frontUnreported q := by
    rw [frontUnreported, frontUnreported, hreq]
  refine ⟨fun h => ?_, fun h => ?_⟩
  · rw [mayAnnounce_iff, hrep, hflag, hfront, hreq, Option.some.injEq, ← or_assoc, or_self] at h
    exact mayAnnounce_iff.mpr (.inr h)
  · rw [mayWithdraw_iff, hrep, hflag, hfront, hreq] at h
    rcases h with ⟨hne, hfalse⟩ | h
    · exact absurd (congrArg some hfalse) hne
    · exact mayWithdraw_iff.mpr (.inr h)

omit [Sleep τ] in
theorem any_of_shouldBePending {q : DeviceQueue τ} (h : q.shouldBePending = true) :
    q.requests.any (·.indirect) = true := by
  rw [shouldBePending_eq] at h
  cases hr : q.requests with
  | nil => simp [hr] at h
  | cons front rest =>
    have hfront : front.indirect = true := by simpa [hr] using h
    simp [hfront]

omit [Sleep τ] in
/-- An entry without a handle leaves a queue that has reported its flag. -/
theorem fades_of_unreported {s : DataService τ} {q q' : DeviceQueue τ}
    {earlier later : List DataRequest} {r : DataRequest}
    (hsplit : q.requests = earlier ++ r :: later) (hrest : q'.requests = earlier ++ later)
    (hno : ∀ handle, (handle, r.key) ∉ s.msduHandles)
    (hflag : q.lastPendingReported = some q.shouldBePending)
    (hrep : q'.lastPendingReported = q.lastPendingReported) : Fades s q q' := by
  have hany : q'.requests.any (·.indirect) = true → q.requests.any (·.indirect) = true := by
    rw [hsplit, hrest]
    simp only [List.any_append, List.any_cons, Bool.or_eq_true]
    tauto
  cases earlier with
  | nil =>
    have hfront : s.frontUnreported q = true := by
      have hnone : TwoWayMap.getByRight s.msduHandles r.key = none :=
        Option.eq_none_iff_forall_ne_some.mpr fun handle hget =>
          hno handle (TwoWayMap.getByRight_eq_some_iff.mp hget)
      simp [frontUnreported, hsplit, hnone]
    refine ⟨fun h => mayAnnounce_iff.mpr ?_, fun h => mayWithdraw_iff.mpr ?_⟩
    · rcases mayAnnounce_iff.mp h with h | h | h
      · exact .inl (hrep ▸ h)
      · exact .inr (.inr ⟨hfront, hany (any_of_shouldBePending h)⟩)
      · exact .inr (.inr ⟨hfront, hany h.2⟩)
    · rcases mayWithdraw_iff.mp h with ⟨hne, -⟩ | h
      · rw [hrep, hflag, ne_eq, Option.some.injEq, Bool.not_eq_false] at hne
        exact .inr ⟨hfront, any_of_shouldBePending hne⟩
      · exact .inr ⟨hfront, hany h.2⟩
  | cons front earlier =>
    have hhead : q'.requests.head? = q.requests.head? := by rw [hsplit, hrest]; rfl
    have hflag' : q'.shouldBePending = q.shouldBePending := by
      rw [shouldBePending_eq, shouldBePending_eq, hhead]
    have hfront : s.frontUnreported q' = s.frontUnreported q := by
      rw [frontUnreported, frontUnreported, hhead]
    refine ⟨fun h => ?_, fun h => ?_⟩
    · rw [mayAnnounce_iff, hrep, hflag', hfront] at h
      exact mayAnnounce_iff.mpr (h.imp_right (Or.imp_right (And.imp_right hany)))
    · rw [mayWithdraw_iff, hrep, hflag', hfront] at h
      exact mayWithdraw_iff.mpr (h.imp_right (And.imp_right hany))

omit [Sleep τ] in
theorem Separate.update {a b : DataService τ} (hsep : Separate a)
    (hm : ∀ q, b.frontUnreported q = a.frontUnreported q)
    (hqueues : ∀ d q', HashMap.get b.queues d = some q' →
      ∃ q, HashMap.get a.queues d = some q ∧ Fades a q q') : Separate b := by
  have hannounce : ∀ q, b.mayAnnounce q = a.mayAnnounce q := by
    intro q
    rw [mayAnnounce, mayAnnounce, hm]
  have hwithdraw : ∀ q, b.mayWithdraw q = a.mayWithdraw q := by
    intro q
    rw [mayWithdraw, mayWithdraw, hm]
  intro d q₁ d' q₁' hq₁ hq₁' hrivals hmay
  obtain ⟨q, hq, hfade⟩ := hqueues d q₁ hq₁
  obtain ⟨q', hq', hfade'⟩ := hqueues d' q₁' hq₁'
  have hno := hsep d q d' q' hq hq' hrivals (hfade.announce (hannounce q₁ ▸ hmay))
  rw [hwithdraw, ← Bool.not_eq_true]
  intro hmay'
  rw [hfade'.withdraw hmay'] at hno
  cases hno

omit [Sleep τ] in
/-- One queue of many is put back. -/
theorem fades_setQueue {s : DataService τ} {d : Option FullAddress} {q q' : DeviceQueue τ}
    (hq : HashMap.get s.queues d = some q) (hfade : Fades s q q') (d₁ : Option FullAddress)
    (q₁ : DeviceQueue τ) (hq₁ : HashMap.get (s.setQueue d q').queues d₁ = some q₁) :
    ∃ q₀, HashMap.get s.queues d₁ = some q₀ ∧ Fades s q₀ q₁ := by
  rw [setQueue, HashMap.get_set] at hq₁
  split at hq₁
  · rename_i hd
    obtain rfl := Option.some.inj hq₁
    exact ⟨q, hd ▸ hq, hfade⟩
  · exact ⟨q₁, hq₁, fades_of_same rfl rfl⟩

theorem Separate.silent {cx : Waker} {key : UniqueKey} {a b : DataService τ × PIB}
    (hsep : Separate a.1) (hs : Silent cx key a b) : Separate b.1 := by
  cases hs with
  | table _ => exact hsep
  | @waits s pib pib' d q q' now hq hp =>
    exact hsep.update (fun _ => rfl)
      (fades_setQueue hq (fades_of_same hp.requests hp.reported.2))
  | @empty s pib pib' d q q' now hq hp =>
    refine hsep.update (fun _ => rfl) fun d₁ q₁ hq₁ => ?_
    rw [HashMap.get_remove] at hq₁
    split at hq₁
    · cases hq₁
    · rename_i hd
      refine ⟨q₁, ?_, fades_of_same rfl rfl⟩
      rwa [setQueue, HashMap.get_set_ne _ _ hd] at hq₁
  | @setPending s pib pib' d q q' now pending hq hp =>
    obtain ⟨hflag, hrep⟩ := hp.reported
    exact hsep.update (fun _ => rfl)
      (fades_setQueue hq (fades_of_report hp.requests (hflag ▸ hrep)))
  | @unreported s pib pib' d q q' now k result msduHandles hq hp hr =>
    obtain ⟨hno, hsame⟩ := (hr ▸ TwoWayMap.removeByRight_removes s.msduHandles k).of_none
    obtain ⟨earlier, r, later, hsplit, rfl, hrest⟩ := hp.requests
    obtain ⟨hflag, hrep⟩ := hp.reported
    refine hsep.update (fun q₁ => ?_)
      (fades_setQueue hq (fades_of_unreported hsplit hrest (fun _ hmem => hno _ hmem rfl)
        hflag hrep))
    simp only [frontUnreported, TwoWayMap.getByRight_congr hsame]

/-- Where no rival is about to withdraw the address, the extended set follows through a report. -/
theorem ExtendedFollows.silent {cx : Waker} {key : UniqueKey} {a b : DataService τ × PIB}
    (hi : ExtendedFollows a.1) (hsep : Separate a.1) (hs : Silent cx key a b) :
    ExtendedFollows b.1 := by
  rcases hs.reports with hno | ⟨d, q, pending, hr⟩
  · exact hi.noReport hno
  · refine hi.reports hr fun hpending d' hrivals hrep => ?_
    cases hd' : HashMap.get a.1.queues d' with
    | none =>
      rw [ReportedAt, queueAt_of_get_none hd'] at hrep
      cases hrep
    | some q' =>
      rw [ReportedAt, queueAt_of_get hd'] at hrep
      have hkept := hsep d' q' d q hd' hr.queue hrivals (mayAnnounce_iff.mpr (.inl hrep))
      have hwithdraws : a.1.mayWithdraw q = true :=
        mayWithdraw_iff.mpr (.inl ⟨hpending ▸ hr.changed, hpending ▸ hr.flag⟩)
      rw [hwithdraws] at hkept
      cases hkept

theorem Quiet.noReport {s s' : DataService τ × PIB} {e : Event} {o : Output} (hq : Quiet e s s')
    (hs : step s e = some (s', o)) (ho : ∀ action, o ≠ .polled action) : NoReport s.1 s'.1 := by
  obtain ⟨hshort, hextended⟩ := values_of_step hs ho
  refine ⟨hshort, hextended, fun d => ?_⟩
  rw [ReportedAt, (hq.queues d).reported]
  rfl

theorem shortFollows_of_run {rely : Past τ → DataService τ × PIB → Event → Prop} {pib : PIB}
    {h : Past τ} {s : DataService τ × PIB} (hr : Run step rely (new, pib) h s) :
    ShortFollows s.1 := by
  refine run_invariant (I := fun _ s => ShortFollows s.1)
    (fun p a => ⟨fun hm => absurd hm (Finset.notMem_empty _),
      fun hr => absurd hr (not_reportedAt_new _)⟩) ?_ ?_ ?_ hr
  · intro h s e s' o _ hs hq ho hi
    exact hi.noReport (hq.noReport hs ho)
  · intro h cx key a b hs hi
    rcases hs.reports with hno | ⟨d, q, pending, hr⟩
    · exact hi.noReport hno
    · exact hi.reports hr
  · intro h s cx key rounds a b hf hi
    exact hi.noReport hf.noReport

def polls : Event → Bool
  | .poll _ _ _ => true
  | _ => false

def PollsSeparate (t : Step τ) : Prop := polls t.event = true → Separate t.before.1

instance (t : Step τ) : Decidable (PollsSeparate t) := inferInstanceAs (Decidable (_ → _))

theorem extendedFollows_of_run {rely : Past τ → DataService τ × PIB → Event → Prop} {pib : PIB}
    {h : Past τ} {s : DataService τ × PIB} (hr : Run step rely (new, pib) h s)
    (hsep : ∀ t ∈ h, PollsSeparate t) : ExtendedFollows s.1 := by
  induction hr with
  | start =>
    intro a
    exact ⟨fun hm => absurd hm (Finset.notMem_empty _),
      fun ⟨_, hr⟩ => absurd hr (not_reportedAt_new _)⟩
  | @next h s s' e o _ _ hs ih =>
    rw [List.forall_mem_cons] at hsep
    obtain ⟨hpoll, hsep⟩ := hsep
    have hi := ih hsep
    rcases step_cases hs with ⟨hq, ho⟩ | ⟨cx, key, rounds, action, rfl, rfl, hp⟩
    · exact hi.noReport (hq.noReport hs ho)
    · exact pollAction_rule (P := fun a => ExtendedFollows a.1 ∧ Separate a.1)
        (Q := fun b => ExtendedFollows b.2.1)
        (fun a b hsilent ⟨hi, hsep⟩ => ⟨hi.silent hsep hsilent, hsep.silent hsilent⟩)
        (fun a b hf ⟨hi, _⟩ => hi.noReport hf.noReport) rounds ⟨hi, hpoll rfl⟩ hp

theorem reported_of_pending {rely : Past τ → DataService τ × PIB → Event → Prop}
    {start s : DataService τ × PIB} {t : Step τ} {h : Past τ}
    (hr : Run step rely start (t :: h) s) (ht : t.output = .polled .pending)
    {d : Option FullAddress} {q : DeviceQueue τ} (hq : HashMap.get s.1.queues d = some q) :
    q.lastPendingReported = some q.shouldBePending := by
  cases hr with
  | @next _ s₀ _ e o _ _ hs =>
    obtain rfl : o = .polled .pending := ht
    rcases step_cases hs with ⟨-, ho⟩ | ⟨cx, key, rounds, action, rfl, haction, hp⟩
    · exact absurd rfl (ho .pending)
    · obtain rfl := Output.polled.inj haction
      exact pollAction_pending hp hq

/-- When a poll has nothing left to do, the short pending set is that of the queues with an
indirect front request, and so is the extended one, if every poll so far began with no queue about
to withdraw what a rival has announced. -/
theorem pending_sets_follow_queues {rely : Past τ → DataService τ × PIB → Event → Prop} {pib : PIB}
    {t : Step τ} {h : Past τ} {s : DataService τ × PIB} (hr : Run step rely (new, pib) (t :: h) s)
    (ht : t.output = .polled .pending) :
    (∀ p a, (p, a) ∈ s.1.pendingTable.short.values ↔
        (s.1.queueAt (some ⟨p, .short a⟩)).shouldBePending = true) ∧
      ((∀ u ∈ t :: h, PollsSeparate u) → ∀ a, a ∈ s.1.pendingTable.extended.values ↔
        ∃ p, (s.1.queueAt (some ⟨p, .extended a⟩)).shouldBePending = true) := by
  have hflag : ∀ d, s.1.ReportedAt d ↔ (s.1.queueAt d).shouldBePending = true := by
    intro d
    cases hget : HashMap.get s.1.queues d with
    | none =>
      rw [ReportedAt, queueAt_of_get_none hget]
      simp [DeviceQueue.new, shouldBePending]
    | some q =>
      rw [ReportedAt, queueAt_of_get hget, reported_of_pending hr ht hget, Option.some.injEq]
  refine ⟨fun p a => ?_, fun hsep a => ?_⟩
  · rw [shortFollows_of_run hr, hflag]
  · rw [extendedFollows_of_run hr hsep]
    exact exists_congr fun p => hflag _

/- Two destinations of one extended address. In one run the second one has nothing to report any
   more when a request waits for the first one, in the other it has. -/
def inFirstPan : FullAddress := ⟨⟨1⟩, .extended ⟨5⟩⟩
def inSecondPan : FullAddress := ⟨⟨2⟩, .extended ⟨5⟩⟩

def reportedBefore : List Event :=
  [submit 0 0 [] inSecondPan false false, pollAt 1 0 [[inSecondPan]],
    .initPendingTableResult ⟨1⟩ true, pollAt 2 0 [[inSecondPan], [inSecondPan]],
    submit 3 1 [some inSecondPan] inFirstPan false true,
    pollAt 4 0 [[inFirstPan, inSecondPan], [inFirstPan, inSecondPan]],
    .setPendingResult ⟨4⟩ true, pollAt 5 0 [[inFirstPan, inSecondPan]]]

def reportedAfter : List Event :=
  [submit 0 0 [] inFirstPan false true, pollAt 1 0 [[inFirstPan]],
    .initPendingTableResult ⟨1⟩ true, pollAt 2 0 [[inFirstPan], [inFirstPan]],
    .setPendingResult ⟨2⟩ true, submit 3 1 [some inFirstPan] inSecondPan false false,
    pollAt 4 0 [[inFirstPan, inSecondPan], [inFirstPan, inSecondPan]],
    .setPendingResult ⟨4⟩ true, pollAt 5 0 [[inFirstPan, inSecondPan]],
    pollAt 6 0 [[inFirstPan, inSecondPan]]]

def playedReports (es : List Event) : Past SleepTimer × DataService SleepTimer × PIB :=
  replay step unrestricted (new, coordinator) es

theorem playedReports_run (es : List Event) :
    Run step unrestricted (new, coordinator) (playedReports es).1 (playedReports es).2 :=
  run_replay es

theorem pending_sets_follow_queues_reported : ∃ t h, (playedReports reportedBefore).1 = t :: h ∧
    ⟨5⟩ ∈ (playedReports reportedBefore).2.1.pendingTable.extended.values ∧
    ∀ a, a ∈ (playedReports reportedBefore).2.1.pendingTable.extended.values ↔
      ∃ p, ((playedReports reportedBefore).2.1.queueAt
        (some ⟨p, .extended a⟩)).shouldBePending = true :=
  ⟨_, _, rfl, by decide, (pending_sets_follow_queues (playedReports_run reportedBefore) rfl).2
    (by decide)⟩

/-- The report of the second queue takes away the address that the first one still needs. -/
theorem pending_address_withdrawn : ¬ ∀ (t : Step SleepTimer) (h : Past SleepTimer)
    (s : DataService SleepTimer × PIB), Run step unrestricted (new, coordinator) (t :: h) s →
      t.output = .polled .pending → ∀ a, a ∈ s.1.pendingTable.extended.values ↔
        ∃ p, (s.1.queueAt (some ⟨p, .extended a⟩)).shouldBePending = true := by
  intro hall
  have hmem := hall _ _ _ (playedReports_run reportedAfter) rfl ⟨5⟩
  have hno : ⟨5⟩ ∉ (playedReports reportedAfter).2.1.pendingTable.extended.values := by decide
  exact hno (hmem.mpr ⟨⟨1⟩, by decide⟩)

end DataService
end ZigbeeStack
