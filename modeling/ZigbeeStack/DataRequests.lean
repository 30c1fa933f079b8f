import ZigbeeStack.DataRuns

/-! What becomes of the requests from above: none is lost and none is confirmed twice, though each
is kept in two places, the queue of its destination and the two-way map of handles and keys. -/
namespace ZigbeeStack.DataService
open Runs DeviceQueue
variable {τ : Type}

def requested (t : Step τ) : Option (MsduHandle × DataRequest) :=
  match t.event with
  | .mcpsRequest key _ (.data r) => some (r.msduHandle, internalRequest key r)
  | _ => none

def confirmed (t : Step τ) : Option MsduHandle :=
  match t.output with
  | .polled (.ready (.confirm (.data c))) => some c.msduHandle
  | _ => none

def purged (t : Step τ) : Option MsduHandle :=
  match t.output with
  | .confirm (.purge ⟨handle, .ok _⟩) => some handle
  | _ => none

def released (t : Step τ) : Option MsduHandle := (confirmed t).or (purged t)

/-- The request `r` came with this handle, and the handle was not given back since. -/
def Outstanding (h : Past τ) (handle : MsduHandle) (r : DataRequest) : Prop :=
  Since (fun t => released t ≠ some handle) (fun t => requested t = some (handle, r)) h

def InUse (h : Past τ) (handle : MsduHandle) : Prop :=
  Since (fun t => released t ≠ some handle) (fun t => (requested t).map Prod.fst = some handle) h

instance (h : Past τ) (handle : MsduHandle) : Decidable (InUse h handle) :=
  inferInstanceAs (Decidable (Since _ _ h))

def keys (h : Past τ) : List UniqueKey := (h.filterMap submitted).map (·.key)

theorem keys_append (h h' : Past τ) : keys (h ++ h') = keys h ++ keys h' := by simp [keys]

/-- A new request has a new key, and one from above a handle that is not in use. -/
def Distinct (h : Past τ) (_ : DataService τ × PIB) : Event → Prop
  | .mcpsRequest key _ (.data r) => key ∉ keys h ∧ ¬ InUse h r.msduHandle
  | .mlmeResponse key _ => key ∉ keys h
  | _ => True

instance (h : Past τ) (s : DataService τ × PIB) : (e : Event) → Decidable (Distinct h s e)
  | .mcpsRequest key _ (.data r) =>
    inferInstanceAs (Decidable (key ∉ keys h ∧ ¬ InUse h r.msduHandle))
  | .mlmeResponse key _ => inferInstanceAs (Decidable (key ∉ keys h))
  | .mcpsRequest _ _ (.purge _) => .isTrue trivial
  | .initPendingTableResult _ _ => .isTrue trivial
  | .setPendingResult _ _ => .isTrue trivial
  | .sendResult _ _ => .isTrue trivial
  | .frame _ => .isTrue trivial
  | .poll _ _ _ => .isTrue trivial
  | .setPib _ => .isTrue trivial

theorem submitted_of_requested {t : Step τ} {handle : MsduHandle} {r : DataRequest}
    (h : requested t = some (handle, r)) : submitted t = some r := by
  unfold requested at h
  split at h
  · rename_i key order request he
    obtain ⟨-, rfl⟩ := Prod.mk.inj (Option.some.inj h)
    simp [submitted, submission, he]
  · cases h

theorem Outstanding.inUse {h : Past τ} {handle : MsduHandle} {r : DataRequest}
    (ho : Outstanding h handle r) : InUse h handle :=
  ho.mono (fun _ hp => hp) fun _ hq => by rw [hq]; rfl

theorem outstanding_cons {t : Step τ} {h : Past τ} {handle : MsduHandle} {r : DataRequest} :
    Outstanding (t :: h) handle r ↔
      requested t = some (handle, r) ∨ (released t ≠ some handle ∧ Outstanding h handle r) :=
  Iff.rfl

theorem Outstanding.known {h : Past τ} {handle : MsduHandle} {r : DataRequest}
    (ho : Outstanding h handle r) : r ∈ h.filterMap submitted := by
  obtain ⟨t, ht, hreq⟩ := ho.exists
  exact List.mem_filterMap.mpr ⟨t, ht, submitted_of_requested hreq⟩

/-- The two records of the requests, and what they say about the history: each pair in the two-way
map is that of an outstanding request, which waits in its queue, and a request from above waits in
a queue only while it is outstanding. -/
structure Tracked (h : Past τ) (s : DataService τ) : Prop where
  names : (keys h).Nodup
  addressed : Addressed s
  nodup : ∀ d, ((s.requestsAt d).map (·.key)).Nodup
  known : ∀ d, ∀ r ∈ s.requestsAt d, r ∈ h.filterMap submitted
  handles : ∀ handle k, (handle, k) ∈ s.msduHandles ↔ ∃ r, Outstanding h handle r ∧ r.key = k
  queued : ∀ handle r, Outstanding h handle r → r ∈ s.requestsAt r.destination
  live : ∀ d, ∀ r ∈ s.requestsAt d, ∀ t ∈ h, ∀ handle, requested t = some (handle, r) →
    Outstanding h handle r

theorem Tracked.unique {h : Past τ} {s : DataService τ} (hi : Tracked h s) {r r' : DataRequest}
    (hr : r ∈ h.filterMap submitted) (hr' : r' ∈ h.filterMap submitted) (hk : r.key = r'.key) :
    r = r' :=
  List.inj_on_of_nodup_map hi.names hr hr' hk

/-- A queued request whose key stands beside a handle is the outstanding request of that handle. -/
theorem Tracked.outstanding {h : Past τ} {s : DataService τ} (hi : Tracked h s)
    {d : Option FullAddress} {r : DataRequest} (hr : r ∈ s.requestsAt d) {handle : MsduHandle}
    (hm : (handle, r.key) ∈ s.msduHandles) : Outstanding h handle r := by
  obtain ⟨r', ho, hk⟩ := (hi.handles handle r.key).mp hm
  obtain rfl := hi.unique ho.known (hi.known d r hr) hk
  exact ho

theorem Tracked.congr {h : Past τ} {s s' : DataService τ} (hi : Tracked h s)
    (hreq : s'.requestsAt = s.requestsAt) (hm : ∀ p, p ∈ s'.msduHandles ↔ p ∈ s.msduHandles) :
    Tracked h s' where
  names := hi.names
  addressed := by
    unfold Addressed
    rw [hreq]
    exact hi.addressed
  nodup := by
    rw [hreq]
    exact hi.nodup
  known := by
    rw [hreq]
    exact hi.known
  handles handle k := (hm _).trans (hi.handles handle k)
  queued := by
    rw [hreq]
    exact hi.queued
  live := by
    rw [hreq]
    exact hi.live

/-- A step that neither submits nor gives back changes nothing. -/
theorem Tracked.later {h : Past τ} {s : DataService τ} (hi : Tracked h s) {t : Step τ}
    (hsub : submitted t = none) (hrel : released t = none) : Tracked (t :: h) s := by
  have hnone : ∀ handle r, requested t ≠ some (handle, r) := by
    intro handle r hreq
    rw [submitted_of_requested hreq] at hsub
    cases hsub
  have hout : ∀ handle r, Outstanding (t :: h) handle r ↔ Outstanding h handle r := by
    intro handle r
    simp [outstanding_cons, hnone, hrel]
  have hsubs : (t :: h).filterMap submitted = h.filterMap submitted := by
    rw [List.filterMap_cons, hsub]
  refine ⟨?_, hi.addressed, hi.nodup, ?_, fun handle k => ?_, fun handle r ho => ?_, ?_⟩
  · rw [keys, hsubs]
    exact hi.names
  · rw [hsubs]
    exact hi.known
  · simp only [hout]
    exact hi.handles handle k
  · exact hi.queued handle r ((hout handle r).mp ho)
  · intro d r hr u hu handle hreq
    rcases List.mem_cons.mp hu with rfl | hu
    · exact absurd hreq (hnone handle r)
    · exact (hout handle r).mpr (hi.live d r hr u hu handle hreq)

/-- The entry that leaves a queue is the only one with its key in all of them. -/
theorem Tracked.leaves {h : Past τ} {s s' : DataService τ} (hi : Tracked h s)
    {d : Option FullAddress} {r : DataRequest} (hl : Leaves s s' d r) (d' : Option FullAddress) :
    r ∈ s.requestsAt d ∧
      s'.requestsAt d' = (s.requestsAt d').filter fun e => e.key ≠ r.key := by
  obtain ⟨earlier, later, hsplit, hrest⟩ := hl
  have hr : r ∈ s.requestsAt d := by simp [hsplit]
  refine ⟨hr, ?_⟩
  rw [hrest, Function.update_apply]
  split
  · rename_i hd
    have hnodup := hi.nodup d
    rw [hsplit] at hnodup
    simp only [List.map_append, List.map_cons, List.nodup_append, List.nodup_cons,
      List.mem_map, List.mem_cons] at hnodup
    obtain ⟨-, ⟨hlater, -⟩, hearlier⟩ := hnodup
    have hne : ∀ e ∈ earlier, e.key ≠ r.key := fun e he =>
      hearlier e.key ⟨e, he, rfl⟩ r.key (.inl rfl)
    have hne' : ∀ e ∈ later, e.key ≠ r.key := fun e he hk => hlater ⟨e, he, hk⟩
    rw [hd, hsplit, List.filter_append, List.filter_cons]
    rw [List.filter_eq_self.mpr (by simpa using hne), List.filter_eq_self.mpr (by simpa using hne')]
    simp
  · rename_i hd
    refine (List.filter_eq_self.mpr fun e he => ?_).symm
    rw [decide_eq_true_eq]
    intro hk
    obtain rfl := hi.unique (hi.known d' e he) (hi.known d r hr) hk
    exact hd ((hi.addressed d' e he).symm.trans (hi.addressed d e hr))

/-- A request without a handle may leave. -/
theorem Tracked.drops {h : Past τ} {s s' : DataService τ} (hi : Tracked h s) {k : UniqueKey}
    (hreq : ∀ d, s'.requestsAt d = (s.requestsAt d).filter fun e => e.key ≠ k)
    (hm : ∀ p, p ∈ s'.msduHandles ↔ p ∈ s.msduHandles)
    (hk : ∀ handle, (handle, k) ∉ s.msduHandles) : Tracked h s' := by
  have hsub : ∀ d, ∀ r ∈ s'.requestsAt d, r ∈ s.requestsAt d := by
    intro d r hr
    rw [hreq] at hr
    exact List.mem_of_mem_filter hr
  refine ⟨hi.names, fun d r hr => hi.addressed d r (hsub d r hr), fun d => ?_,
    fun d r hr => hi.known d r (hsub d r hr), fun handle k' => (hm _).trans (hi.handles handle k'),
    fun handle r ho => ?_, fun d r hr => hi.live d r (hsub d r hr)⟩
  · rw [hreq]
    exact (hi.nodup d).sublist (List.filter_sublist.map _)
  · rw [hreq, List.mem_filter, decide_eq_true_eq]
    refine ⟨hi.queued handle r ho, ?_⟩
    rintro rfl
    exact hk handle ((hi.handles handle r.key).mpr ⟨r, ho, rfl⟩)

/-- A request leaves both records when its handle is given back. -/
theorem Tracked.releases {h : Past τ} {s s' : DataService τ} (hi : Tracked h s) {t : Step τ}
    {handle : MsduHandle} {k : UniqueKey} (hsub : submitted t = none)
    (hrel : released t = some handle) (hmem : (handle, k) ∈ s.msduHandles)
    (hreq : ∀ d, s'.requestsAt d = (s.requestsAt d).filter fun e => e.key ≠ k)
    (hm : ∀ p, p ∈ s'.msduHandles ↔ p ∈ s.msduHandles ∧ p.2 ≠ k) : Tracked (t :: h) s' := by
  have hnone : ∀ handle r, requested t ≠ some (handle, r) := by
    intro handle r hr
    rw [submitted_of_requested hr] at hsub
    cases hsub
  have hout : ∀ handle' r, Outstanding (t :: h) handle' r ↔
      handle' ≠ handle ∧ Outstanding h handle' r := by
    intro handle' r
    simp [outstanding_cons, hnone, hrel, eq_comm]
  have hkey : ∀ handle' r, Outstanding h handle' r → (handle' ≠ handle ↔ r.key ≠ k) := by
    intro handle' r ho
    have hm' := (hi.handles handle' r.key).mpr ⟨r, ho, rfl⟩
    constructor
    · rintro hne rfl
      exact hne (TwoWayMap.left_unique hm' hmem)
    · rintro hne rfl
      exact hne (TwoWayMap.right_unique hm' hmem)
  have hsubs : (t :: h).filterMap submitted = h.filterMap submitted := by
    rw [List.filterMap_cons, hsub]
  have hkept : ∀ d, ∀ r, r ∈ s'.requestsAt d ↔ r ∈ s.requestsAt d ∧ r.key ≠ k := by
    intro d r
    rw [hreq, List.mem_filter, decide_eq_true_eq]
  refine ⟨?_, fun d r hr => hi.addressed d r ((hkept d r).mp hr).1, fun d => ?_, ?_,
    fun handle' k' => ?_, fun handle' r ho => ?_, ?_⟩
  · rw [keys, hsubs]
    exact hi.names
  · rw [hreq]
    exact (hi.nodup d).sublist (List.filter_sublist.map _)
  · rw [hsubs]
    exact fun d r hr => hi.known d r ((hkept d r).mp hr).1
  · rw [hm, hi.handles]
    constructor
    · rintro ⟨⟨r, ho, rfl⟩, hne⟩
      exact ⟨r, (hout handle' r).mpr ⟨(hkey handle' r ho).mpr hne, ho⟩, rfl⟩
    · rintro ⟨r, ho, rfl⟩
      obtain ⟨hne, ho⟩ := (hout handle' r).mp ho
      exact ⟨⟨r, ho, rfl⟩, (hkey handle' r ho).mp hne⟩
  · obtain ⟨hne, ho⟩ := (hout handle' r).mp ho
    exact (hkept _ r).mpr ⟨hi.queued handle' r ho, (hkey handle' r ho).mp hne⟩
  · intro d r hr u hu handle' hur
    obtain ⟨hr, hne⟩ := (hkept d r).mp hr
    rcases List.mem_cons.mp hu with rfl | hu
    · exact absurd hur (hnone handle' r)
    · have ho := hi.live d r hr u hu handle' hur
      exact (hout handle' r).mpr ⟨(hkey handle' r ho).mpr hne, ho⟩

/-- A request comes into both records, or only into its queue if it has no handle. -/
theorem Tracked.submits {h : Past τ} {s s' : DataService τ} (hi : Tracked h s) {t : Step τ}
    {r : DataRequest} (hsub : submitted t = some r) (hrel : released t = none)
    (hfresh : r.key ∉ keys h)
    (hreq : s'.requestsAt =
      Function.update s.requestsAt r.destination (s.requestsAt r.destination ++ [r]))
    (hm : ∀ handle k, (handle, k) ∈ s'.msduHandles ↔
      (requested t = some (handle, r) ∧ k = r.key) ∨ (handle, k) ∈ s.msduHandles) :
    Tracked (t :: h) s' := by
  have hnew : ∀ r' ∈ h.filterMap submitted, r'.key ≠ r.key := by
    intro r' hr' hk
    exact hfresh (hk ▸ List.mem_map_of_mem hr')
  have hout : ∀ handle r', Outstanding (t :: h) handle r' ↔
      requested t = some (handle, r') ∨ Outstanding h handle r' := by
    intro handle r'
    simp [outstanding_cons, hrel]
  have hself : ∀ handle r', requested t = some (handle, r') → r' = r := by
    intro handle r' hr'
    exact Option.some.inj ((submitted_of_requested hr').symm.trans hsub)
  have hsubs : (t :: h).filterMap submitted = r :: h.filterMap submitted := by
    rw [List.filterMap_cons, hsub]
  have hmem : ∀ d r', r' ∈ s'.requestsAt d ↔
      r' ∈ s.requestsAt d ∨ (r' = r ∧ d = r.destination) := by
    intro d r'
    rw [hreq, Function.update_apply]
    split
    · rename_i hd
      simp [hd]
    · rename_i hd
      simp [hd]
  refine ⟨?_, fun d r' hr' => ?_, fun d => ?_, fun d r' hr' => ?_, fun handle k => ?_,
    fun handle r' ho => ?_, ?_⟩
  · rw [keys, hsubs, List.map_cons, List.nodup_cons]
    exact ⟨hfresh, hi.names⟩
  · rcases (hmem d r').mp hr' with hr' | ⟨rfl, rfl⟩
    · exact hi.addressed d r' hr'
    · rfl
  · rw [hreq, Function.update_apply]
    split
    · rw [List.map_append, List.nodup_append]
      refine ⟨hi.nodup _, by simp, ?_⟩
      rintro k hk k' hk' rfl
      obtain ⟨r', hr', rfl⟩ := List.mem_map.mp hk
      exact hnew r' (hi.known _ r' hr') (by simpa using hk')
    · exact hi.nodup d
  · rw [hsubs, List.mem_cons]
    rcases (hmem d r').mp hr' with hr' | ⟨rfl, -⟩
    · exact .inr (hi.known d r' hr')
    · exact .inl rfl
  · rw [hm, hi.handles]
    constructor
    · rintro (⟨hr, rfl⟩ | ⟨r', ho, rfl⟩)
      · exact ⟨r, (hout handle r).mpr (.inl hr), rfl⟩
      · exact ⟨r', (hout handle r').mpr (.inr ho), rfl⟩
    · rintro ⟨r', ho, rfl⟩
      rcases (hout handle r').mp ho with hr' | ho
      · obtain rfl := hself handle r' hr'
        exact .inl ⟨hr', rfl⟩
      · exact .inr ⟨r', ho, rfl⟩
  · rcases (hout handle r').mp ho with hr' | ho
    · obtain rfl := hself handle r' hr'
      exact (hmem _ _).mpr (.inr ⟨rfl, rfl⟩)
    · exact (hmem _ _).mpr (.inl (hi.queued handle r' ho))
  · intro d r' hr' u hu handle hur
    rcases List.mem_cons.mp hu with rfl | hu
    · exact (hout handle r').mpr (.inl hur)
    · rcases (hmem d r').mp hr' with hr' | ⟨rfl, -⟩
      · exact (hout handle r').mpr (.inr (hi.live d r' hr' u hu handle hur))
      · exact absurd rfl
          (hnew r' (List.mem_filterMap.mpr ⟨u, hu, submitted_of_requested hur⟩))

/-- Two entries of one key are one entry. -/
theorem Tracked.filter_key {h : Past τ} {s : DataService τ} (hi : Tracked h s) {r : DataRequest}
    (hr : r ∈ s.requestsAt r.destination) (d : Option FullAddress) :
    (s.requestsAt d).filter (fun e => e.key = r.key) = if d = r.destination then [r] else [] := by
  have hself : ∀ e ∈ s.requestsAt d, e.key = r.key → e = r := fun e he hk =>
    hi.unique (hi.known d e he) (hi.known _ r hr) hk
  split
  · rename_i hd
    rw [hd] at hself ⊢
    have hmem : r ∈ (s.requestsAt r.destination).filter fun e => e.key = r.key := by
      simpa using hr
    have hall : ∀ e ∈ (s.requestsAt r.destination).filter fun e => e.key = r.key, e = r := by
      intro e he
      rw [List.mem_filter, decide_eq_true_eq] at he
      exact hself e he.1 he.2
    have hnodup : ((s.requestsAt r.destination).filter fun e => e.key = r.key).Nodup :=
      ((hi.nodup r.destination).of_map _).filter _
    exact List.perm_singleton.mp ((List.perm_ext_iff_of_nodup hnodup (List.nodup_singleton r)).mpr
      fun e => ⟨fun he => List.mem_singleton.mpr (hall e he),
        fun he => (List.mem_singleton.mp he) ▸ hmem⟩)
  · rename_i hd
    rw [List.filter_eq_nil_iff]
    intro e he hk
    rw [decide_eq_true_eq] at hk
    obtain rfl := hself e he hk
    exact hd (hi.addressed d e he).symm

variable [Sleep τ]

theorem Tracked.mcpsData {h : Past τ} {s : DataService τ × PIB} (hi : Tracked h s.1)
    {t : Step τ} {key : UniqueKey} {r : Mcps.DataRequest} (hkey : key ∉ keys h)
    (hfree : ¬ InUse h r.msduHandle)
    (hreq : requested t = some (r.msduHandle, internalRequest key r)) (hrel : released t = none) :
    Tracked (t :: h) (s.1.processMcpsDataRequest s.2 key r).2 := by
  have hsub := submitted_of_requested hreq
  have hnew : ∀ d, ∀ e ∈ s.1.requestsAt d, e.key ≠ key := by
    rintro d e he rfl
    exact hkey (List.mem_map_of_mem (hi.known d e he))
  refine hi.submits hsub hrel hkey (requestsAt_insert s.2 (hnew _)) fun handle k => ?_
  have hpair : (handle, k) ∈ (s.1.processMcpsDataRequest s.2 key r).2.msduHandles ↔
      (handle, k) ∈ TwoWayMap.insert s.1.msduHandles r.msduHandle key := by
    rw [processMcpsDataRequest, (s.1.insert_rest s.2 _).1]
  rw [hpair, TwoWayMap.mem_insert, hreq]
  constructor
  · rintro (heq | ⟨hold, -⟩)
    · obtain ⟨rfl, rfl⟩ := Prod.mk.inj heq
      exact .inl ⟨rfl, rfl⟩
    · exact .inr hold
  · rintro (⟨heq, rfl⟩ | hold)
    · obtain ⟨rfl, -⟩ := Prod.mk.inj (Option.some.inj heq)
      exact .inl rfl
    · obtain ⟨r', ho, hk⟩ := (hi.handles handle k).mp hold
      refine .inr ⟨hold, ?_, ?_⟩
      · rintro rfl
        exact hfree ho.inUse
      · rintro rfl
        exact hkey (hk ▸ List.mem_map_of_mem ho.known)

theorem Tracked.mlmeResponse {h : Past τ} {s : DataService τ × PIB} (hi : Tracked h s.1)
    {t : Step τ} {r : DataRequest} (hkey : r.key ∉ keys h) (hsub : submitted t = some r)
    (hreq : requested t = none) (hrel : released t = none) :
    Tracked (t :: h) (s.1.insert s.2 r) := by
  have hnew : ∀ d, ∀ e ∈ s.1.requestsAt d, e.key ≠ r.key := by
    intro d e he hk
    exact hkey (hk ▸ List.mem_map_of_mem (hi.known d e he))
  refine hi.submits hsub hrel hkey (requestsAt_insert s.2 (hnew _)) fun handle k => ?_
  rw [(s.1.insert_rest s.2 r).1, hreq]
  simp

/-- A purge gives the handle back exactly when it stands in the two-way map. -/
theorem Tracked.purge {h : Past τ} {s : DataService τ × PIB} (hi : Tracked h s.1)
    {key : UniqueKey} {order : List (Option FullAddress)} {request : Mcps.PurgeRequest}
    {s' : DataService τ × PIB} {o : Output} (horder : HashMap.Enumerates order s.1.queues)
    (hs : step s (.mcpsRequest key order (.purge request)) = some (s', o)) :
    Tracked (⟨s, .mcpsRequest key order (.purge request), o, s'⟩ :: h) s'.1 ∧
      ∃ status, o = .confirm (.purge ⟨request.msduHandle, status⟩) ∧
        (status = .ok () ↔ ∃ r, Outstanding h request.msduHandle r) := by
  rw [step, if_pos horder] at hs
  simp only [processMcpsRequest, processMcpsPurgeRequest] at hs
  cases hr : TwoWayMap.removeByLeft s.1.msduHandles request.msduHandle with
  | mk removed msduHandles =>
    rw [hr] at hs
    cases removed with
    | none =>
      obtain ⟨rfl, rfl⟩ := Prod.mk.inj (Option.some.inj hs)
      refine ⟨hi.later rfl rfl, _, rfl, by simp, ?_⟩
      rintro ⟨r, ho⟩
      obtain ⟨hno, -⟩ :=
        (hr ▸ TwoWayMap.removeByLeft_removes s.1.msduHandles request.msduHandle).of_none
      exact (hno _ ((hi.handles _ _).mpr ⟨r, ho, rfl⟩) rfl).elim
    | some pair =>
      obtain ⟨handle, k⟩ := pair
      obtain ⟨rfl, rfl⟩ := Prod.mk.inj (Option.some.inj hs)
      have hremoves := hr ▸ TwoWayMap.removeByLeft_removes s.1.msduHandles request.msduHandle
      obtain ⟨hmem, rfl⟩ := hremoves.of_some
      obtain ⟨r, ho, rfl⟩ := (hi.handles _ _).mp hmem
      have hone : ∀ d d', (s.1.queueAt d).contains r.key = true →
          (s.1.queueAt d').contains r.key = true → d = d' := by
        intro d d' hd hd'
        obtain ⟨e, he, hk⟩ := List.mem_map.mp ((contains_iff _ _).mp hd)
        obtain ⟨e', he', hk'⟩ := List.mem_map.mp ((contains_iff _ _).mp hd')
        obtain rfl := hi.unique (hi.known d e he) (hi.known d' e' he') (hk.trans hk'.symm)
        exact (hi.addressed d e he).symm.trans (hi.addressed d' e he')
      refine ⟨hi.releases rfl rfl hmem (fun d => ?_) fun p => ?_, _, rfl, by simpa using ⟨r, ho⟩⟩
      · have hremove := remove_queueAt (s := { s.1 with msduHandles := msduHandles }) horder hone d
        rw [requestsAt, hremove, remove_requests]
        rfl
      · have hsame :
            p ∈ ({ s.1 with msduHandles := msduHandles }.remove r.key order).2.msduHandles ↔
            p ∈ msduHandles := by
          rw [remove, (removeFrom_rest _ _ _ _).1]
        rw [hsame, hremoves.mem_iff]
        refine and_congr_right fun hp => not_congr ?_
        constructor
        · intro heq
          exact TwoWayMap.right_unique (heq ▸ hp : (request.msduHandle, p.2) ∈ s.1.msduHandles) hmem
        · intro heq
          exact TwoWayMap.left_unique (heq ▸ hp : (p.1, r.key) ∈ s.1.msduHandles) hmem

omit [Sleep τ] in
/-- A call that leaves the queues' requests and the handles alone. -/
theorem Tracked.idle {h : Past τ} {s s' : DataService τ × PIB} {e : Event} (hi : Tracked h s.1)
    (hsub : submission s.2 e = none)
    (hreq : ∀ d, (s'.1.queueAt d).requests = (s.1.queueAt d).requests)
    (hm : s'.1.msduHandles = s.1.msduHandles) : Tracked (⟨s, e, .none, s'⟩ :: h) s'.1 :=
  Tracked.later (hi.congr (funext hreq) fun p => by rw [hm]) hsub rfl

theorem Tracked.final {h : Past τ} {cx : Waker} {key : UniqueKey} {a : DataService τ × PIB}
    {b : Poll DataServiceAction × DataService τ × PIB} {t : Step τ} (hi : Tracked h a.1)
    (hf : Final cx key a b) (hsub : submitted t = none) (hout : t.output = .polled b.1) :
    Tracked (t :: h) b.2.1 ∧ ∀ handle, confirmed t = some handle → ∃ r, Outstanding h handle r := by
  rcases hf.leaves with ⟨handle, result, d, r, haction, hl, hmem, hm⟩ | ⟨hno, hreq, hm⟩
  · have hconfirmed : confirmed t = some handle := by simp [confirmed, hout, haction]
    have hr := (hi.leaves hl d).1
    refine ⟨hi.releases hsub ?_ hmem (fun d' => (hi.leaves hl d').2) hm, ?_⟩
    · rw [released, hconfirmed]
      rfl
    · intro handle' hc
      obtain rfl := Option.some.inj (hconfirmed.symm.trans hc)
      exact ⟨r, hi.outstanding hr hmem⟩
  · have hconfirmed : confirmed t = none := by
      unfold confirmed
      split
      · rename_i hpolled
        rw [hout] at hpolled
        exact absurd (Output.polled.inj hpolled) (hno _)
      · rfl
    have hpurged : purged t = none := by simp [purged, hout]
    refine ⟨(hi.congr hreq hm).later hsub ?_, ?_⟩
    · rw [released, hconfirmed, hpurged]
      rfl
    · intro handle hc
      rw [hconfirmed] at hc
      cases hc

theorem Tracked.silent {h : Past τ} {cx : Waker} {key : UniqueKey} {a b : DataService τ × PIB}
    (hi : Tracked h a.1) (hs : Silent cx key a b) : Tracked h b.1 := by
  obtain ⟨hm, hreq | ⟨d, r, hl, hno⟩⟩ := hs.leaves
  · exact hi.congr hreq hm
  · exact hi.drops (fun d' => (hi.leaves hl d').2) hm hno

structure Faithful (t : Step τ) (past : Past τ) : Prop where
  confirm : ∀ handle, confirmed t = some handle → ∃ r, Outstanding past handle r
  purge : ∀ key order request, t.event = .mcpsRequest key order (.purge request) →
    ∃ status, t.output = .confirm (.purge ⟨request.msduHandle, status⟩) ∧
      (status = .ok () ↔ ∃ r, Outstanding past request.msduHandle r)

omit [Sleep τ] in
theorem faithful_of_quiet {t : Step τ} {past : Past τ} (hconfirm : confirmed t = none)
    (hpurge : ∀ key order request, t.event ≠ .mcpsRequest key order (.purge request)) :
    Faithful t past where
  confirm handle h := absurd (hconfirm.symm.trans h) (by simp)
  purge key order request h := absurd h (hpurge key order request)

theorem tracked_step {h : Past τ} {s s' : DataService τ × PIB} {e : Event} {o : Output}
    (hi : Tracked h s.1) (hrely : Distinct h s e) (hs : step s e = some (s', o)) :
    Tracked (⟨s, e, o, s'⟩ :: h) s'.1 ∧ Faithful ⟨s, e, o, s'⟩ h := by
  cases e with
  | mcpsRequest key order request =>
    cases request with
    | data r =>
      rw [step] at hs
      split at hs
      · obtain ⟨rfl, rfl⟩ := Prod.mk.inj (Option.some.inj hs)
        exact ⟨hi.mcpsData hrely.1 hrely.2 rfl rfl, faithful_of_quiet rfl (by simp)⟩
      · cases hs
    | purge request =>
      have horder : HashMap.Enumerates order s.1.queues := by
        rw [step] at hs
        split at hs
        · assumption
        · cases hs
      obtain ⟨hi', status, rfl, hstatus⟩ := hi.purge horder hs
      refine ⟨hi', fun handle hc => absurd hc (by simp [confirmed]),
        fun key' order' request' he => ?_⟩
      cases he
      exact ⟨status, rfl, hstatus⟩
  | mlmeResponse key response =>
    cases response with
    | associate deviceAddress fastAssociation status =>
      obtain ⟨rfl, rfl⟩ := Prod.mk.inj (Option.some.inj hs)
      exact ⟨hi.mlmeResponse hrely rfl rfl rfl, faithful_of_quiet rfl (by simp)⟩
  | initPendingTableResult key success =>
    obtain ⟨rfl, rfl⟩ := Prod.mk.inj (Option.some.inj hs)
    exact ⟨hi.idle rfl (fun _ => rfl) rfl, faithful_of_quiet rfl (by simp)⟩
  | setPendingResult key success =>
    obtain ⟨rfl, rfl⟩ := Prod.mk.inj (Option.some.inj hs)
    exact ⟨hi.idle rfl (fun _ => rfl) rfl, faithful_of_quiet rfl (by simp)⟩
  | sendResult key success =>
    obtain ⟨rfl, rfl⟩ := Prod.mk.inj (Option.some.inj hs)
    refine ⟨hi.idle rfl (fun d => ?_) rfl, faithful_of_quiet rfl (by simp)⟩
    rw [queueAt_processSendResult, processSendResult_requests]
  | frame f =>
    obtain ⟨rfl, rfl⟩ := Prod.mk.inj (Option.some.inj hs)
    refine ⟨hi.idle rfl (fun d => ?_) (s.1.processFrame_rest s.2 f).1,
      faithful_of_quiet rfl (by simp)⟩
    rcases s.1.queueAt_processFrame s.2 f d with hsame | ⟨payload, -, hack⟩ | ⟨-, -, -, hreq⟩
    · rw [hsame]
    · rw [hack, processAcknowledge_requests]
    · rw [hreq, processDatarequest_requests]
  | poll cx key rounds =>
    obtain ⟨⟨action, data, pib⟩, hp, heq⟩ := Option.map_eq_some_iff.mp hs
    obtain ⟨rfl, rfl⟩ := Prod.mk.inj heq
    have hrule := pollAction_rule (P := fun a => Tracked h a.1)
      (Q := fun b => ∀ t : Step τ, submitted t = none → t.output = .polled b.1 →
        Tracked (t :: h) b.2.1 ∧
          ∀ handle, confirmed t = some handle → ∃ r, Outstanding h handle r)
      (fun a b hsilent hi => hi.silent hsilent) (fun a b hf hi t hsub hout => hi.final hf hsub hout)
      rounds hi hp
    obtain ⟨hi', hconfirm⟩ := hrule ⟨s, .poll cx key rounds, .polled action, (data, pib)⟩ rfl rfl
    exact ⟨hi', hconfirm, fun _ _ _ he => absurd he (by simp)⟩
  | setPib pib =>
    obtain ⟨rfl, rfl⟩ := Prod.mk.inj (Option.some.inj hs)
    exact ⟨hi.idle rfl (fun _ => rfl) rfl, faithful_of_quiet rfl (by simp)⟩

theorem tracked_of_run {pib : PIB} {h : Past τ} {s : DataService τ × PIB}
    (hr : Run step Distinct (new, pib) h s) : Tracked h s.1 := by
  refine Run.invariant (P := fun h s => Tracked h s.1) ?_ ?_ hr
  · refine ⟨List.nodup_nil, fun d r hr => absurd hr List.not_mem_nil, fun d => List.nodup_nil,
      fun d r hr => absurd hr List.not_mem_nil, fun handle k => ⟨(fun hm => nomatch hm), ?_⟩,
      (fun _ _ ho => nomatch ho), fun d r hr => absurd hr List.not_mem_nil⟩
    rintro ⟨r, ho, -⟩
    cases ho
  · intro h s e s' o _ hi hrely hs
    exact (tracked_step hi hrely hs).1

theorem faithful_of_run {pib : PIB} {later past : Past τ} {t : Step τ} {s : DataService τ × PIB}
    (hr : Run step Distinct (new, pib) (later ++ t :: past) s) : Faithful t past := by
  obtain ⟨hpast, hrely, hstep⟩ := hr.cut
  exact (tracked_step (tracked_of_run hpast) hrely hstep).2

/-- A request whose handle was given back is never outstanding again. -/
theorem not_outstanding_again {pib : PIB} {later past : Past τ} {u : Step τ}
    {s : DataService τ × PIB} (hr : Run step Distinct (new, pib) (later ++ u :: past) s)
    {handle handle' : MsduHandle} {r : DataRequest} (hu : released u = some handle)
    (ho : Outstanding past handle r) : ¬ Outstanding (later ++ u :: past) handle' r := by
  have hi := tracked_of_run hr.cut.1
  have hnames := (tracked_of_run hr).names
  have hnew : ∀ t ∈ u :: later, requested t ≠ some (handle', r) := by
    intro t ht hreq
    have hsplit : keys (later ++ u :: past) = keys (later ++ [u]) ++ keys past := by
      rw [← keys_append, List.append_assoc]
      rfl
    have hlater : r.key ∈ keys (later ++ [u]) := by
      refine List.mem_map_of_mem (List.mem_filterMap.mpr ⟨t, ?_, submitted_of_requested hreq⟩)
      simpa [or_comm] using ht
    rw [hsplit, List.nodup_append] at hnames
    exact hnames.2.2 _ hlater _ (List.mem_map_of_mem ho.known) rfl
  intro hagain
  rcases since_append.mp hagain with hlater | ⟨-, hu' | ⟨hu', ho'⟩⟩
  · obtain ⟨t, ht, hreq⟩ := hlater.exists
    exact hnew t (List.mem_cons_of_mem _ ht) hreq
  · exact hnew u List.mem_cons_self hu'
  · have hm := (hi.handles handle r.key).mpr ⟨r, ho, rfl⟩
    have hm' := (hi.handles handle' r.key).mpr ⟨r, ho', rfl⟩
    exact hu' (hu.trans (congrArg some (TwoWayMap.left_unique hm hm')))

/-- Where the requests from above stand after a run. -/
structure Accounted (h : Past τ) (s : DataService τ) : Prop where
  held : ∀ handle r, Outstanding h handle r → (handle, r.key) ∈ s.msduHandles ∧
    ∀ d, (s.requestsAt d).filter (fun e => e.key = r.key) = if d = r.destination then [r] else []
  confirm : ∀ later u past handle, h = later ++ u :: past → confirmed u = some handle →
    ∃ r, ∀ r', Outstanding past handle r' ↔ r' = r
  ended : ∀ later u past handle r, h = later ++ u :: past → released u = some handle →
    Outstanding past handle r → (∀ d, ∀ e ∈ s.requestsAt d, e.key ≠ r.key) ∧
      ∀ later' v between handle', later = later' ++ v :: between → confirmed v = some handle' →
        ¬ Outstanding (between ++ u :: past) handle' r
  purge : ∀ later u past key order request, h = later ++ u :: past →
    u.event = .mcpsRequest key order (.purge request) →
    ∃ status, u.output = .confirm (.purge ⟨request.msduHandle, status⟩) ∧
      (status = .ok () ↔ ∃ r, Outstanding past request.msduHandle r)

/-- No request from above is lost or confirmed twice. -/
theorem requests_accounted {pib : PIB} {h : Past τ} {s : DataService τ × PIB}
    (hr : Run step Distinct (new, pib) h s) : Accounted h s.1 where
  held handle r ho := by
    have hi := tracked_of_run hr
    exact ⟨(hi.handles handle r.key).mpr ⟨r, ho, rfl⟩, hi.filter_key (hi.queued handle r ho)⟩
  confirm := by
    rintro later u past handle rfl hc
    have hi := tracked_of_run hr.cut.1
    obtain ⟨r, ho⟩ := (faithful_of_run hr).confirm handle hc
    refine ⟨r, fun r' => ⟨fun ho' => ?_, ?_⟩⟩
    · have hm := (hi.handles handle r.key).mpr ⟨r, ho, rfl⟩
      have hm' := (hi.handles handle r'.key).mpr ⟨r', ho', rfl⟩
      exact hi.unique ho'.known ho.known (TwoWayMap.right_unique hm' hm)
    · rintro rfl
      exact ho
  ended := by
    rintro later u past handle r rfl hu ho
    constructor
    · intro d e he hk
      have hi := tracked_of_run hr
      obtain ⟨t, ht, hreq⟩ := ho.exists
      have hmem : t ∈ later ++ u :: past :=
        List.mem_append_right _ (List.mem_cons_of_mem _ ht)
      have hknown := List.mem_filterMap.mpr ⟨t, hmem, submitted_of_requested hreq⟩
      obtain rfl := hi.unique (hi.known d e he) hknown hk
      exact not_outstanding_again hr hu ho (hi.live d e he t hmem handle hreq)
    · rintro later' v between handle' rfl -
      rw [List.append_assoc, List.cons_append] at hr
      exact not_outstanding_again hr.cut.1 hu ho
  purge := by
    rintro later u past key order request rfl he
    exact (faithful_of_run hr).purge key order request he

/- A request that is sent and confirmed, and a second one under the same handle that is purged. -/
def sentAndPurged : List Event :=
  [submit 0 7 [] device false false, pollAt 1 0 [[device]], .initPendingTableResult ⟨1⟩ true,
    pollAt 2 0 [[device], [device]], .sendResult ⟨2⟩ true, pollAt 3 0 [[device]],
    submit 4 7 [some device] device false true, .mcpsRequest ⟨5⟩ [some device] (.purge ⟨⟨⟨7⟩⟩⟩)]

def playedPurged : Past SleepTimer × DataService SleepTimer × PIB :=
  replay step Distinct (new, coordinator) sentAndPurged

theorem requests_accounted_purged :
    playedPurged.1.filterMap confirmed = [⟨⟨7⟩⟩] ∧ playedPurged.1.filterMap purged = [⟨⟨7⟩⟩] ∧
      Accounted playedPurged.1 playedPurged.2.1 :=
  ⟨by decide, by decide, requests_accounted (run_replay sentAndPurged)⟩

end ZigbeeStack.DataService
