import ZigbeeStack.MacRuns
import ZigbeeStack.PendingMirror
import ZigbeeStack.RadioParameters

/-! Where the MAC keeps the keys of the commands that it awaits an answer to. -/
namespace ZigbeeStack

inductive TableSlot where
  | init
  | short
  | extended
deriving DecidableEq, Repr

inductive KeySlot where
  | param (param : RadioParam)
  | table (slot : TableSlot)
  | queue (destination : Option FullAddress)
deriving DecidableEq, Repr

def KeySlot.kind : KeySlot → CommandKind
  | .param _ => .setParam
  | .table .init => .initPendingTable
  | .table .short | .table .extended => .setPending
  | .queue _ => .sendPacket

def MacInput.command : MacInput → Option (CommandKind × UniqueKey)
  | .management (.setParam key _ _) => some (.setParam, key)
  | .data (.initPendingTable key) => some (.initPendingTable, key)
  | .data (.setPendingShort key _ _) => some (.setPending, key)
  | .data (.setPendingExtended key _ _) => some (.setPending, key)
  | .data (.sendFrame key _) => some (.sendPacket, key)
  | _ => none

/-! The queues: the key of a transmission is held while the radio has its frame, for the request
at the front. -/
namespace DeviceQueue
variable {τ : Type}

def held (q : DeviceQueue τ) : Option UniqueKey :=
  match q.state with
  | .sending key _ _ => some key
  | _ => none

theorem held_eq_some {q : DeviceQueue τ} {key : UniqueKey} :
    q.held = some key ↔ ∃ ack payload, q.state = .sending key ack payload := by
  unfold held
  split
  · rename_i k ack payload hst
    constructor
    · intro h
      obtain rfl := Option.some.inj h
      exact ⟨ack, payload, hst⟩
    · rintro ⟨ack', payload', h⟩
      cases hst.symm.trans h
      rfl
  · rename_i hno
    refine iff_of_false (by simp) ?_
    rintro ⟨ack, payload, h⟩
    exact hno key ack payload h

def Carries (q q' : DeviceQueue τ) : Prop :=
  ∀ key, q'.held = some key → q.held = some key ∧
    ∀ r, q.requests.head? = some r → q'.requests.head? = some r

theorem Carries.refl (q : DeviceQueue τ) : Carries q q := fun _ hk => ⟨hk, fun _ hr => hr⟩

theorem Carries.trans {q q' q'' : DeviceQueue τ} (h : Carries q q') (h' : Carries q' q'') :
    Carries q q'' := by
  intro key hk
  obtain ⟨hk, hr'⟩ := h' key hk
  obtain ⟨hk, hr⟩ := h key hk
  exact ⟨hk, fun r hfront => hr' r (hr r hfront)⟩

theorem Advances.sending {st : DeviceQueueState τ} {key : UniqueKey} {ack : Option UInt8}
    {payload : List UInt8} (h : Advances st (.sending key ack payload)) :
    ∃ ack' payload', st = .sending key ack' payload' := by
  cases h with
  | refl _ => exact ⟨_, _, rfl⟩
  | acknowledged _ ack' payload' _ => exact ⟨ack', payload', rfl⟩

theorem held_of_advances {q q' : DeviceQueue τ} (h : Advances q.state q'.state) {key : UniqueKey}
    (hk : q'.held = some key) : q.held = some key := by
  obtain ⟨ack, payload, hst⟩ := held_eq_some.mp hk
  rw [hst] at h
  exact held_eq_some.mpr h.sending

theorem carries_of_advances {q q' : DeviceQueue τ} (h : Advances q.state q'.state)
    (hreq : q'.requests = q.requests) : Carries q q' :=
  fun _ hk => ⟨held_of_advances h hk, fun r hr => by rw [hreq, hr]⟩

theorem carries_of_idle {q q' : DeviceQueue τ} {b : Bool}
    (h : q'.state = .idle b) : Carries q q' := by
  intro key hk
  obtain ⟨ack, payload, hst⟩ := held_eq_some.mp hk
  cases h.symm.trans hst

theorem remove_carries (q : DeviceQueue τ) (key : UniqueKey) : Carries q (q.remove key).2 := by
  by_cases hfirst : q.requests.head?.any (·.key == key) = true
  · exact carries_of_idle (b := false) (by rw [remove_state, if_pos hfirst])
  · refine fun k hk => ⟨held_of_advances (q.remove_advances key) hk, fun r hr => ?_⟩
    rw [remove_head? (by simpa using hfirst), hr]

variable [Sleep τ]

theorem insert_carries (q : DeviceQueue τ) (pib : PIB) (entry : DataRequest) :
    Carries q (q.insert pib entry).2 := by
  refine fun k hk => ⟨held_of_advances (by rw [insert_state]; exact .refl _) hk, fun r hr => ?_⟩
  rw [insert_requests]
  split
  · exact hr
  · rw [List.head?_append, hr]
    rfl

/-- The completion of a transmission is taken by the queue that holds its key, and by no other. -/
theorem processSendResult_of_not_held {q : DeviceQueue τ} {key : UniqueKey} (success : Bool)
    (h : q.held ≠ some key) : q.processSendResult key success = q := by
  unfold processSendResult
  split
  · rename_i k ack payload hst
    rw [if_neg]
    rintro rfl
    exact h (held_eq_some.mpr ⟨ack, payload, hst⟩)
  · rfl

theorem processSendResult_not_held (q : DeviceQueue τ) (key : UniqueKey) (success : Bool) :
    (q.processSendResult key success).held ≠ some key := by
  intro hk
  by_cases h : q.held = some key
  · obtain ⟨ack, payload, hst⟩ := held_eq_some.mp h
    obtain ⟨ack', payload', hst'⟩ := held_eq_some.mp hk
    simp only [processSendResult, hst, if_true] at hst'
    revert hst'
    cases success with
    | true => cases ack <;> simp
    | false =>
      simp only [Bool.false_eq_true, if_false, sendFailed]
      repeat' split
      all_goals simp
  · rw [processSendResult_of_not_held success h] at hk
    exact h hk

/-- A poll that sends nothing carries on with the key that the queue holds. -/
theorem PollOutcome.carries {q q' : DeviceQueue τ} {pib pib' : PIB} {now : Instant} {cx : Waker}
    {sendKey : UniqueKey} {action : Poll DeviceQueueAction}
    (h : PollOutcome q pib now cx sendKey (action, q', pib'))
    (hsend : ∀ k f, action ≠ .ready (.sendFrame k f)) : Carries q q' := by
  cases h with
  | setPending _ => exact .refl _
  | empty _ _ => exact carries_of_idle rfl
  | sendFrame _ _ _ _ _ => exact absurd rfl (hsend _ _)
  | noAck _ _ _ _ _ _ => exact carries_of_idle rfl
  | result _ _ _ => exact carries_of_idle rfl
  | @expired q₁ i k es _ hs hp =>
    by_cases hi : i = 0
    · exact carries_of_idle (b := false) (by simp [hi])
    · intro key hk
      have hk₁ : q₁.held = some key := by
        simpa only [held, if_neg hi] using hk
      refine ⟨held_of_advances hs.advances hk₁, fun r hr => ?_⟩
      obtain ⟨earlier, e, later, hes, rfl, -, hes'⟩ := pollTimeouts_some hp
      -- an entry behind the front one goes, so the front one stays
      cases earlier with
      | nil => exact absurd rfl hi
      | cons first earlier =>
        rw [← hs.requests, requests_eq_view, hes] at hr
        rw [requests_eq_view]
        simpa [hes'] using hr
  | @waits q₁ es _ hs hp =>
    exact carries_of_advances hs.advances
      ((requests_of_view (pollTimeouts_none hp)).trans hs.requests)

end DeviceQueue

/-! The tables: one key for the command that clears both, one for the update of each. -/
namespace CombinedPendingTable

def held (c : CombinedPendingTable) : TableSlot → Option UniqueKey
  | .init => c.initializing
  | .short => c.short.updating.map Prod.fst
  | .extended => c.extended.updating.map Prod.fst

theorem set_held (c : CombinedPendingTable) (address : Option FullAddress) (inserted : Bool) :
    (c.set address inserted).held = c.held := by
  funext slot
  cases address with
  | none => cases slot <;> rfl
  | some address =>
    obtain ⟨panId, address⟩ := address
    cases address with
    | short address =>
      cases slot with
      | short => exact congrArg (Option.map Prod.fst) (c.short.set_view (panId, address) inserted).1
      | _ => rfl
    | extended address =>
      cases slot with
      | extended => exact congrArg (Option.map Prod.fst) (c.extended.set_view address inserted).1
      | _ => rfl

theorem reportInitResult_of_not_held {c : CombinedPendingTable} {key : UniqueKey} (result : Bool)
    (h : c.held .init ≠ some key) : c.reportInitResult key result = c := if_neg h

theorem reportInitResult_held {c : CombinedPendingTable} {key : UniqueKey} {result : Bool}
    {slot : TableSlot} {k : UniqueKey} (h : (c.reportInitResult key result).held slot = some k) :
    c.held slot = some k ∧ (slot = .init → k ≠ key) := by
  by_cases hinit : c.initializing = some key
  · rw [reportInitResult, if_pos hinit] at h
    cases slot with
    | init => cases h
    | short => cases result <;> exact ⟨h, by simp⟩
    | extended => cases result <;> exact ⟨h, by simp⟩
  · rw [reportInitResult_of_not_held result hinit] at h
    refine ⟨h, ?_⟩
    rintro rfl rfl
    exact hinit h

end CombinedPendingTable

namespace PendingTable
variable {T : Type} {n : Nat}

theorem reportUpdateResult_of_not_held {t : PendingTable T n} {key : UniqueKey} (result : Bool)
    (h : t.updating.map Prod.fst ≠ some key) : t.reportUpdateResult key result = t :=
  t.reportUpdateResult_view_of_ne result fun i hu => h (by rw [hu]; rfl)

theorem reportUpdateResult_held {t : PendingTable T n} {key : UniqueKey} {result : Bool}
    {k : UniqueKey} (h : (t.reportUpdateResult key result).updating.map Prod.fst = some k) :
    t.updating.map Prod.fst = some k ∧ k ≠ key := by
  by_cases hu : t.updating.map Prod.fst = some key
  · obtain ⟨⟨key', i⟩, hi, rfl⟩ := Option.map_eq_some_iff.mp hu
    have hnone : (t.reportUpdateResult key' result).updating = none :=
      congrArg WriteBack.View.updating (t.reportUpdateResult_view result hi)
    rw [hnone] at h
    cases h
  · rw [reportUpdateResult_of_not_held result hu] at h
    exact ⟨h, fun hk => hu (hk ▸ h)⟩

theorem UpdatePolled.held {t t' : PendingTable T n} {key : UniqueKey}
    {action : Poll (PendingTableUpdate T n)} (h : UpdatePolled t key (action, t')) {k : UniqueKey}
    (hk : t'.updating.map Prod.fst = some k) :
    t.updating.map Prod.fst = some k ∨ ((∃ update, action = .ready update) ∧ k = key) := by
  cases h with
  | sends _ _ hview =>
    have hu : t'.updating = _ := congrArg WriteBack.View.updating hview
    rw [hu] at hk
    exact .inr ⟨⟨_, rfl⟩, (Option.some.inj hk).symm⟩
  | waits hview _ _ =>
    have hu : t'.updating = t.updating := congrArg WriteBack.View.updating hview
    rw [hu] at hk
    exact .inl hk

end PendingTable

namespace CombinedPendingTable

theorem reportUpdateResult_of_not_held {c : CombinedPendingTable} {key : UniqueKey}
    (success : Bool) (hs : c.held .short ≠ some key) (he : c.held .extended ≠ some key) :
    c.reportUpdateResult key success = c := by
  rw [reportUpdateResult, c.short.reportUpdateResult_of_not_held success hs,
    c.extended.reportUpdateResult_of_not_held success he]

theorem reportUpdateResult_held {c : CombinedPendingTable} {key : UniqueKey} {success : Bool}
    {slot : TableSlot} {k : UniqueKey} (h : (c.reportUpdateResult key success).held slot = some k) :
    c.held slot = some k ∧ (slot ≠ .init → k ≠ key) := by
  cases slot with
  | init => exact ⟨h, by simp⟩
  | short => exact (PendingTable.reportUpdateResult_held h).imp_right fun hk _ => hk
  | extended => exact (PendingTable.reportUpdateResult_held h).imp_right fun hk _ => hk

/-- A poll holds on to the keys that are there, and adds that of the command it returns. -/
theorem pollAction_held {c c' : CombinedPendingTable} {cx : Waker} {key : UniqueKey}
    {action : Poll CombinedPendingTableAction} (h : c.pollAction cx key = (action, c'))
    {slot : TableSlot} {k : UniqueKey} (hk : c'.held slot = some k) :
    c.held slot = some k ∨ ∃ a, action = .ready a ∧
      (MacInput.data (.ofCombined a)).command = some ((KeySlot.table slot).kind, k) := by
  have hp := PendingMirror.hostPolled c cx key
  rw [h] at hp
  cases hp with
  | initializing _ => cases slot <;> exact .inl hk
  | init _ _ =>
    cases slot with
    | init =>
      obtain rfl := Option.some.inj hk
      exact .inr ⟨_, rfl, rfl⟩
    | _ => exact .inl hk
  | updateShort _ hs =>
    cases slot with
    | short =>
      rcases hs.held hk with hk | ⟨-, rfl⟩
      · exact .inl hk
      · exact .inr ⟨_, rfl, rfl⟩
    | _ => exact .inl hk
  | updateExtended _ hs he =>
    cases slot with
    | init => exact .inl hk
    | short => exact .inl ((hs.held hk).resolve_right (by simp))
    | extended =>
      rcases he.held hk with hk | ⟨-, rfl⟩
      · exact .inl hk
      · exact .inr ⟨_, rfl, rfl⟩
  | waits _ _ hs he =>
    cases slot with
    | init => exact .inl hk
    | short => exact .inl ((hs.held hk).resolve_right (by simp))
    | extended => exact .inl ((he.held hk).resolve_right (by simp))

end CombinedPendingTable

/-! The parameters: one key each. -/
namespace ManagementService

def held (self : ManagementService) (param : RadioParam) : Option UniqueKey :=
  (HashMap.get self.radioParams param).bind (·.updating)

theorem held_eq_some {self : ManagementService} {param : RadioParam} {key : UniqueKey} :
    self.held param = some key ↔
      ∃ info, HashMap.get self.radioParams param = some info ∧ info.updating = some key :=
  Option.bind_eq_some_iff

theorem held_of_radioParams {self self' : ManagementService}
    (h : self'.radioParams = self.radioParams) : self'.held = self.held := by
  funext param
  rw [held, held, h]

theorem refreshed_updating (current : Option RadioParamInfo) (value : RadioParamValue) :
    (refreshed current value).updating = current.bind (·.updating) := by
  cases current with
  | none => rfl
  | some info =>
    simp only [refreshed]
    split <;> rfl

theorem updateRadioParameters_held (self : ManagementService) (pib : PIB) :
    (self.updateRadioParameters pib).held = self.held := by
  funext param
  rw [held, get_updateRadioParameters]
  cases pib.wanted param with
  | none => rfl
  | some value => exact refreshed_updating _ _

theorem new_held (pib : PIB) (param : RadioParam) : (new pib).held param = none := by
  rw [new, updateRadioParameters_held]
  rfl

theorem processSetParamResult_of_not_held {self : ManagementService} {key : UniqueKey}
    (result : Bool) (h : ∀ param, self.held param ≠ some key) :
    self.processSetParamResult key result = self := by
  have hno : ∀ param info, HashMap.get self.radioParams param = some info →
      info.updating ≠ some key :=
    fun param info hget hu => h param (held_eq_some.mpr ⟨info, hget, hu⟩)
  have hwake : (self.radioParams.entries.any fun e =>
      decide (e.2.updating = some key) && (e.2.dirty || !result)) = false := by
    refine List.any_eq_false.mpr fun e he => ?_
    simp [hno e.1 e.2 (HashMap.get_eq_some_iff.mpr he)]
  simp only [processSetParamResult, hwake]
  rw [HashMap.mapValues_eq_self fun param info hget => if_neg (hno param info hget)]
  rfl

theorem processSetParamResult_held {self : ManagementService} {key : UniqueKey} {result : Bool}
    {param : RadioParam} {k : UniqueKey}
    (h : (self.processSetParamResult key result).held param = some k) :
    self.held param = some k ∧ k ≠ key := by
  obtain ⟨info', hget', hu'⟩ := held_eq_some.mp h
  rw [get_processSetParamResult] at hget'
  obtain ⟨info, hget, rfl⟩ := Option.map_eq_some_iff.mp hget'
  split at hu'
  · cases hu'
  · rename_i hne
    refine ⟨held_eq_some.mpr ⟨info, hget, hu'⟩, ?_⟩
    rintro rfl
    exact hne hu'

theorem pollAction_held {self self' : ManagementService} {cx : Waker} {key : UniqueKey}
    {order : List RadioParam} {action : Poll ManagementServiceAction}
    (h : self.pollAction cx key order = (action, self')) {param : RadioParam} {k : UniqueKey}
    (hk : self'.held param = some k) :
    self.held param = some k ∨ ∃ a, action = .ready a ∧
      (MacInput.management a).command = some (.setParam, k) := by
  have hp := self.paramsPolled cx key order
  rw [h] at hp
  cases hp with
  | @sends param' info _ hget _ _ hset =>
    rw [held, hset, HashMap.get_set] at hk
    split at hk
    · obtain rfl := Option.some.inj hk
      exact .inr ⟨_, rfl, rfl⟩
    · exact .inl hk
  | keeps _ hsame =>
    rw [held_of_radioParams hsame] at hk
    exact .inl hk

theorem pollAction_command_key {self self' : ManagementService} {cx : Waker} {key : UniqueKey}
    {order : List RadioParam} {action : ManagementServiceAction}
    (h : self.pollAction cx key order = (.ready action, self')) {kind : CommandKind}
    {k : UniqueKey} (hk : (MacInput.management action).command = some (kind, k)) : k = key := by
  have hp := self.paramsPolled cx key order
  rw [h] at hp
  cases hp with
  | sends _ _ _ _ =>
    cases hk
    rfl
  | keeps hno _ =>
    cases action with
    | setParam k' param value => exact absurd rfl (hno k' param value)
    | sendFrame f => cases hk

theorem processMlmeRequest_held {τ : Type} {self self' : ManagementService} {pib pib' : PIB}
    {data data' : DataService τ} {bsn dsn : UInt8} {request : Mlme.Request}
    {confirm : Mlme.Confirm}
    (h : self.processMlmeRequest pib data bsn dsn request = (confirm, self', data', pib'))
    {param : RadioParam} {k : UniqueKey} (hk : self'.held param = some k) :
    self.held param = some k := by
  cases paramsRequested h with
  | keeps hsame _ => rwa [held_of_radioParams hsame] at hk
  | refreshes heq =>
    subst heq
    rwa [updateRadioParameters_held] at hk
  | resets heq =>
    subst heq
    rw [new_held] at hk
    cases hk

theorem processMlmeBeaconRequest_radioParams (self : ManagementService) (pib : PIB)
    (request : Mlme.BeaconRequest) :
    (self.processMlmeBeaconRequest pib request).2.1.radioParams = self.radioParams := by
  unfold processMlmeBeaconRequest
  split <;> rfl

theorem processFrame_held (self : ManagementService) (pib : PIB) (f : Frame) :
    (self.processFrame pib f).2.1.held = self.held := by
  refine held_of_radioParams ?_
  unfold processFrame
  split
  · unfold processFrameBeaconRequest
    split
    · exact self.processMlmeBeaconRequest_radioParams pib _
    · rfl
  · rfl
  · rfl

end ManagementService

/-! The data service: its tables and its queues. -/
namespace DataService
open DeviceQueue
variable {τ : Type}

structure Holds (s s' : DataService τ) : Prop where
  tables : ∀ slot k, s'.pendingTable.held slot = some k → s.pendingTable.held slot = some k
  queues : ∀ d, Carries (s.queueAt d) (s'.queueAt d)
  requests : ∀ d, ∀ r ∈ s'.requestsAt d, r ∈ s.requestsAt d

theorem Holds.refl (s : DataService τ) : Holds s s :=
  ⟨fun _ _ hk => hk, fun _ => .refl _, fun _ _ hr => hr⟩

theorem Holds.trans {s s' s'' : DataService τ} (h : Holds s s') (h' : Holds s' s'') :
    Holds s s'' where
  tables slot k hk := h.tables slot k (h'.tables slot k hk)
  queues d := (h.queues d).trans (h'.queues d)
  requests d r hr := h.requests d r (h'.requests d r hr)

theorem Holds.of_tables {s s' : DataService τ} (hqueues : s'.queueAt = s.queueAt)
    (htables : ∀ slot k, s'.pendingTable.held slot = some k → s.pendingTable.held slot = some k) :
    Holds s s' := by
  refine ⟨htables, fun d => ?_, fun d r hr => ?_⟩
  · rw [hqueues]
    exact .refl _
  · rw [requestsAt, hqueues] at hr
    exact hr

/-- One queue moves on and the rest stays. -/
theorem Holds.of_queue {s s' : DataService τ} {d : Option FullAddress} {q : DeviceQueue τ}
    (hqueues : s'.queueAt = Function.update s.queueAt d q)
    (htables : s'.pendingTable.held = s.pendingTable.held) (hq : Carries (s.queueAt d) q)
    (hreq : ∀ r ∈ q.requests, r ∈ s.requestsAt d) : Holds s s' := by
  refine ⟨fun slot k hk => by rwa [← htables], fun d' => ?_, fun d' r hr => ?_⟩
  · rw [hqueues, Function.update_apply]
    split
    · rename_i hd
      rwa [hd]
    · exact .refl _
  · rw [requestsAt_of_update hqueues, Function.update_apply] at hr
    split at hr
    · rename_i hd
      rw [hd]
      exact hreq r hr
    · exact hr

structure Polls (s : DataService τ) (action : Poll DataServiceAction) (s' : DataService τ) :
    Prop where
  tables : ∀ slot k, s'.pendingTable.held slot = some k → s.pendingTable.held slot = some k ∨
    ∃ a, action = .ready a ∧ (MacInput.data a).command = some ((KeySlot.table slot).kind, k)
  queues : (∀ d, Carries (s.queueAt d) (s'.queueAt d)) ∨
    ∃ d k f r, action = .ready (.sendFrame k f) ∧ (s'.queueAt d).held = some k ∧
      (s'.requestsAt d).head? = some r ∧ ∀ d', d' ≠ d → Carries (s.queueAt d') (s'.queueAt d')
  requests : ∀ d, ∀ r ∈ s'.requestsAt d, r ∈ s.requestsAt d

theorem Holds.polls {s s' : DataService τ} (h : Holds s s') (action : Poll DataServiceAction) :
    Polls s action s' :=
  ⟨fun slot k hk => .inl (h.tables slot k hk), .inl h.queues, h.requests⟩

theorem Holds.trans_polls {s s' s'' : DataService τ} {action : Poll DataServiceAction}
    (h : Holds s s') (h' : Polls s' action s'') : Polls s action s'' where
  tables slot k hk := (h'.tables slot k hk).imp_left (h.tables slot k)
  queues := by
    rcases h'.queues with hq | ⟨d, k, f, r, haction, hheld, hfront, hothers⟩
    · exact .inl fun d => (h.queues d).trans (hq d)
    · exact .inr ⟨d, k, f, r, haction, hheld, hfront,
        fun d' hd => (h.queues d').trans (hothers d' hd)⟩
  requests d r hr := h.requests d r (h'.requests d r hr)

variable [Sleep τ]

/-- The poll of a queue that sends nothing. -/
theorem Holds.of_outcome {s s' : DataService τ} {d : Option FullAddress} {q q' : DeviceQueue τ}
    {pib pib' : PIB} {now : Instant} {cx : Waker} {key : UniqueKey}
    {action : Poll DeviceQueueAction} (hq : HashMap.get s.queues d = some q)
    (hp : PollOutcome q pib now cx key (action, q', pib'))
    (hsend : ∀ k f, action ≠ .ready (.sendFrame k f))
    (hqueues : s'.queueAt = Function.update s.queueAt d q')
    (htables : s'.pendingTable.held = s.pendingTable.held) : Holds s s' := by
  refine .of_queue hqueues htables ?_ fun r hr => ?_
  · rw [queueAt_of_get hq]
    exact hp.carries hsend
  · rw [requestsAt, queueAt_of_get hq]
    exact hp.mem_requests hr

theorem Silent.holds {cx : Waker} {key : UniqueKey} {a b : DataService τ × PIB}
    (h : Silent cx key a b) : Holds a.1 b.1 := by
  cases h with
  | table hp =>
    refine .of_tables rfl fun slot k hk => ?_
    exact (CombinedPendingTable.pollAction_held hp hk).resolve_right (by simp)
  | @waits s pib pib' d q q' now hq hp =>
    exact .of_outcome hq hp (by simp) (s.queueAt_setQueue d q') rfl
  | @empty s pib pib' d q q' now hq hp =>
    have hupd := (s.setQueue d q').queueAt_remove d
    rw [queueAt_setQueue, Function.update_idem] at hupd
    exact .of_queue hupd rfl (carries_of_idle rfl) fun r hr => absurd hr List.not_mem_nil
  | @setPending s pib pib' d q q' now pending hq hp =>
    exact .of_outcome hq hp (by simp) (s.queueAt_setQueue d q')
      (s.pendingTable.set_held d pending)
  | @unreported s pib pib' d q q' now k result msduHandles hq hp hr =>
    exact .of_outcome hq hp (by simp) (s.queueAt_setQueue d q') rfl

theorem Final.polls {cx : Waker} {key : UniqueKey} {a : DataService τ × PIB}
    {b : Poll DataServiceAction × DataService τ × PIB} (h : Final cx key a b) :
    Polls a.1 b.1 b.2.1 := by
  cases h with
  | @table s pib action table hp =>
    refine ⟨fun slot k hk => ?_, .inl fun d => .refl _, fun d r hr => hr⟩
    refine (CombinedPendingTable.pollAction_held hp hk).imp_right ?_
    rintro ⟨a, ha, hcommand⟩
    cases ha
    exact ⟨_, rfl, hcommand⟩
  | @sendFrame s pib pib' d q q' now k f hq hp =>
    obtain ⟨r, datarequest, morePending, hfront, -, -, -, hst, -⟩ := hp.advances
    have hreq : (s.setQueue d q').requestsAt = s.requestsAt :=
      requestsAt_same hq (s.queueAt_setQueue d q') hp.requests
    refine ⟨fun slot k hk => .inl hk, .inr ⟨d, k, f, r, rfl, ?_, ?_, fun d' hd => ?_⟩,
      fun d' r' hr => ?_⟩
    · rw [queueAt_setQueue, Function.update_self]
      exact held_eq_some.mpr ⟨_, _, hst⟩
    · rw [hreq, requestsAt, queueAt_of_get hq]
      exact hfront
    · rw [queueAt_setQueue, Function.update_of_ne hd]
      exact .refl _
    · rwa [hreq] at hr
  | @confirm s pib pib' d q q' now k result handle k' msduHandles hq hp hr =>
    have hholds : Holds s { s.setQueue d q' with msduHandles := msduHandles } :=
      .of_outcome hq hp (by simp) (s.queueAt_setQueue d q') rfl
    exact hholds.polls _
  | @pending s pib =>
    have hholds : Holds s { s with waker := s.waker.pend cx } :=
      .of_tables rfl fun _ _ hk => hk
    exact hholds.polls _

/-- The rule for what a call of the poll does. -/
theorem pollAction_polls {s s' : DataService τ} {pib pib' : PIB} {cx : Waker} {key : UniqueKey}
    {rounds : List (List (Option FullAddress × Instant))} {action : Poll DataServiceAction}
    (h : s.pollAction pib cx key rounds = some (action, s', pib')) : Polls s action s' :=
  pollAction_rule (P := fun a => Holds s a.1) (Q := fun b => Polls s b.1 b.2.1)
    (fun _ _ hs hi => hi.trans hs.holds) (fun _ _ hf hi => hi.trans_polls hf.polls) rounds
    (Holds.refl s) h

/-- The command that a poll returns has the key that was drawn for it. -/
theorem Final.command_key {cx : Waker} {key : UniqueKey} {a : DataService τ × PIB}
    {b : Poll DataServiceAction × DataService τ × PIB} (h : Final cx key a b)
    {action : DataServiceAction} (haction : b.1 = .ready action) {kind : CommandKind}
    {k : UniqueKey} (hk : (MacInput.data action).command = some (kind, k)) : k = key := by
  cases h with
  | @table s pib action table hp =>
    cases haction
    have hhost := PendingMirror.hostPolled s.pendingTable cx key
    rw [hp] at hhost
    cases hhost with
    | init _ _ => cases hk; rfl
    | updateShort _ _ => cases hk; rfl
    | updateExtended _ _ _ => cases hk; rfl
  | sendFrame hq hp =>
    cases haction
    cases hk
    cases hp
    rfl
  | confirm _ _ _ =>
    cases haction
    cases hk
  | pending => cases haction

theorem pollAction_command_key {s s' : DataService τ} {pib pib' : PIB} {cx : Waker}
    {key : UniqueKey} {rounds : List (List (Option FullAddress × Instant))}
    {action : DataServiceAction}
    (h : s.pollAction pib cx key rounds = some (.ready action, s', pib')) {kind : CommandKind}
    {k : UniqueKey} (hk : (MacInput.data action).command = some (kind, k)) : k = key := by
  have hrule : ∀ a kind k, (Poll.ready action, s', pib').1 = .ready a →
      (MacInput.data a).command = some (kind, k) → k = key :=
    pollAction_rule (P := fun _ => True)
      (Q := fun b => ∀ a kind k, b.1 = .ready a →
        (MacInput.data a).command = some (kind, k) → k = key)
      (fun _ _ _ _ => trivial) (fun _ _ hf _ _ _ _ ha hk => hf.command_key ha hk) rounds trivial h
  exact hrule action kind k rfl hk

end DataService
end ZigbeeStack
