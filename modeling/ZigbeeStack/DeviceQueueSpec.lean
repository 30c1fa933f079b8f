import ZigbeeStack.DeviceQueue

/-! What each operation of a device queue can do, said once. The invariants of its runs are
derived from these lemmas, not from the definitions. -/
namespace ZigbeeStack

def DeviceQueueEntry.view {τ : Type} (e : DeviceQueueEntry τ) : DataRequest × Nat :=
  (e.data, e.retriesLeft)

namespace DeviceQueue
variable {τ : Type}

def requests (q : DeviceQueue τ) : List DataRequest := q.entries.map (·.data)

theorem requests_eq_view (q : DeviceQueue τ) :
    q.requests = (q.entries.map DeviceQueueEntry.view).map Prod.fst := by
  simp [requests, DeviceQueueEntry.view, Function.comp_def]

theorem requests_of_view {q q' : DeviceQueue τ}
    (h : q'.entries.map DeviceQueueEntry.view = q.entries.map DeviceQueueEntry.view) :
    q'.requests = q.requests := by
  rw [requests_eq_view, requests_eq_view, h]

theorem shouldBePending_eq (q : DeviceQueue τ) :
    q.shouldBePending = q.requests.head?.any (·.indirect) := by
  cases h : q.entries <;> simp [shouldBePending, requests, h]

theorem shouldBePending_of_requests {q q' : DeviceQueue τ} (h : q'.requests = q.requests) :
    q'.shouldBePending = q.shouldBePending := by
  rw [shouldBePending_eq, shouldBePending_eq, h]

theorem contains_iff (q : DeviceQueue τ) (k : UniqueKey) :
    q.contains k = true ↔ k ∈ q.requests.map (·.key) := by
  simp [contains, requests]

@[simp] theorem remove_requests (q : DeviceQueue τ) (k : UniqueKey) :
    (q.remove k).2.requests = q.requests.filter fun r => r.key ≠ k := by
  have h : ((q.remove k).2.entries.map (·.data)) =
      (q.entries.map (·.data)).filter fun r => r.key ≠ k := by
    rw [remove, List.filter_map]
    split <;> simp [Function.comp_def, bne, BEq.beq]
  exact h

theorem remove_state (q : DeviceQueue τ) (k : UniqueKey) :
    (q.remove k).2.state =
      if q.requests.head?.any (·.key == k) then .idle false else q.state := by
  have h : q.requests.head?.any (·.key == k) = q.entries.head?.any (·.data.key == k) := by
    cases h : q.entries <;> simp [requests, h]
  rw [h, remove]
  split <;> rfl

theorem remove_head? {q : DeviceQueue τ} {k : UniqueKey}
    (h : q.requests.head?.any (·.key == k) = false) :
    (q.remove k).2.requests.head? = q.requests.head? := by
  rw [remove_requests]
  cases hr : q.requests with
  | nil => rfl
  | cons r rest =>
    have hk : r.key ≠ k := by simpa [hr] using h
    simp [hk]

theorem remove_fst (q : DeviceQueue τ) (k : UniqueKey) : (q.remove k).1 = q.contains k := by
  have hlt : (q.entries.filter fun e => e.data.key != k).length < q.entries.length ↔
      q.contains k = true := by
    simp [List.length_filter_lt_length_iff_exists, contains]
  have hfirst : (q.entries.head?.any fun front => front.data.key == k) = true →
      q.contains k = true := by
    cases hes : q.entries with
    | nil => simp
    | cons front rest =>
      intro hk
      simp [contains, hes, show front.data.key = k by simpa using hk]
  rw [Bool.eq_iff_iff, ← hlt, remove]
  split
  · rename_i hor
    simp only [Bool.or_eq_true, decide_eq_true_eq] at hor
    simpa using hor.elim (fun hf => hlt.mpr (hfirst hf)) id
  · rename_i hor
    simp only [Bool.or_eq_true, decide_eq_true_eq, not_or] at hor
    simpa using hor.2

theorem remove_of_not_contains {q : DeviceQueue τ} {k : UniqueKey} (h : q.contains k = false) :
    (q.remove k).2 = q := by
  have hne : ∀ e ∈ q.entries, (e.data.key != k) = true := by
    intro e he
    simpa [bne] using List.any_eq_false.mp h e he
  have hfirst : (q.entries.head?.any fun front => front.data.key == k) = false := by
    cases hes : q.entries with
    | nil => rfl
    | cons front rest => simpa [hes] using hne front (by simp [hes])
  rw [remove, hfirst, List.filter_eq_self.mpr hne]
  simp

theorem remove_reported (q : DeviceQueue τ) (k : UniqueKey) :
    (q.remove k).2.lastPendingReported = q.lastPendingReported := by
  rw [remove]
  split <;> rfl

@[simp] theorem processDatarequest_requests (q : DeviceQueue τ) :
    q.processDatarequest.requests = q.requests := rfl

theorem processDatarequest_state (q : DeviceQueue τ) :
    q.processDatarequest.state = .idle true ∨ q.processDatarequest.state = q.state := by
  unfold processDatarequest
  cases h : q.state with
  | idle _ => exact .inl rfl
  | _ => exact .inr rfl

@[simp] theorem processAcknowledge_requests (q : DeviceQueue τ) (n : Option UInt8)
    (payload : List UInt8) : (q.processAcknowledge n payload).requests = q.requests := by
  unfold processAcknowledge
  repeat' split
  all_goals rfl

@[simp] theorem sendFailed_requests (q : DeviceQueue τ) :
    q.sendFailed.requests = q.requests := by
  unfold sendFailed
  split
  · rename_i front rest hes
    split
    · rfl
    · split
      · simp [requests, hes]
      · rfl
  · rfl

inductive Advances : DeviceQueueState τ → DeviceQueueState τ → Prop where
  | refl (st) : Advances st st
  | givesUp (st) : Advances st (.idle false)
  | ends (st result) : Advances st (.haveResult result)
  | acknowledged (k ack payload payload') :
      Advances (.sending k ack payload) (.sending k none payload')
  | sentOut (k n payload timeout) :
      Advances (.sending k (some n) payload) (.waitingForAck n timeout)
  | waits (n timeout timeout') : Advances (.waitingForAck n timeout) (.waitingForAck n timeout')

theorem remove_advances (q : DeviceQueue τ) (k : UniqueKey) :
    Advances q.state (q.remove k).2.state := by
  rw [remove_state]
  split
  · exact .givesUp _
  · exact .refl _

theorem sendFailed_advances (q : DeviceQueue τ) : Advances q.state q.sendFailed.state := by
  unfold sendFailed
  split
  · split
    · exact .givesUp _
    · split
      · exact .givesUp _
      · exact .ends _ _
  · exact .givesUp _

theorem processAcknowledge_advances (q : DeviceQueue τ) (n : Option UInt8) (payload : List UInt8) :
    Advances q.state (q.processAcknowledge n payload).state := by
  unfold processAcknowledge
  cases hst : q.state with
  | waitingForAck a timeout =>
    dsimp only
    split
    · exact .ends _ _
    · rw [hst]
      exact .refl _
  | sending k a p =>
    dsimp only
    split
    · exact .acknowledged _ _ _ _
    · rw [hst]
      exact .refl _
  | _ =>
    dsimp only
    rw [hst]
    exact .refl _

@[simp] theorem processAcknowledge_reported (q : DeviceQueue τ) (n : Option UInt8)
    (payload : List UInt8) :
    (q.processAcknowledge n payload).lastPendingReported = q.lastPendingReported := by
  unfold processAcknowledge
  repeat' split
  all_goals rfl

@[simp] theorem sendFailed_reported (q : DeviceQueue τ) :
    q.sendFailed.lastPendingReported = q.lastPendingReported := by
  unfold sendFailed
  repeat' split
  all_goals rfl

/-! A frame draws the next sequence number, which is the one it wants acknowledged. -/

@[simp] theorem createFrame_sequenceNumber (r : DataRequest) (pib : PIB) (morePending : Bool) :
    (createFrame r pib morePending).1.2.sequenceNumber = some pib.macDsn := rfl

@[simp] theorem createFrame_ackRequested (r : DataRequest) (pib : PIB) (morePending : Bool) :
    (createFrame r pib morePending).1.1 =
      if r.acknowledgeRequest then some pib.macDsn else none := rfl

variable [Sleep τ]

@[simp] theorem processSendResult_requests (q : DeviceQueue τ) (k : UniqueKey) (success : Bool) :
    (q.processSendResult k success).requests = q.requests := by
  unfold processSendResult
  repeat' split
  all_goals first | rfl | exact q.sendFailed_requests

@[simp] theorem processSendResult_reported (q : DeviceQueue τ) (k : UniqueKey) (success : Bool) :
    (q.processSendResult k success).lastPendingReported = q.lastPendingReported := by
  unfold processSendResult
  repeat' split
  all_goals first | rfl | exact q.sendFailed_reported

theorem processSendResult_advances (q : DeviceQueue τ) (k : UniqueKey) (success : Bool) :
    Advances q.state (q.processSendResult k success).state := by
  unfold processSendResult
  cases hst : q.state with
  | sending key ack payload =>
    dsimp only
    split
    · cases success with
      | true =>
        cases ack with
        | some n => exact .sentOut _ _ _ _
        | none => exact .ends _ _
      | false =>
        rw [← hst]
        exact q.sendFailed_advances
    · rw [hst]
      exact .refl _
  | _ =>
    dsimp only
    rw [hst]
    exact .refl _

theorem insert_requests (q : DeviceQueue τ) (pib : PIB) (entry : DataRequest) :
    (q.insert pib entry).2.requests =
      if q.contains entry.key then q.requests else q.requests ++ [entry] := by
  unfold insert
  split
  · rfl
  · simp [requests]

@[simp] theorem insert_reported (q : DeviceQueue τ) (pib : PIB) (entry : DataRequest) :
    (q.insert pib entry).2.lastPendingReported = q.lastPendingReported := by
  unfold insert
  split <;> rfl

@[simp] theorem insert_state (q : DeviceQueue τ) (pib : PIB) (entry : DataRequest) :
    (q.insert pib entry).2.state = q.state := by
  unfold insert
  split <;> rfl

/-! The expiry loop. -/

theorem pollTimeouts_none_iff {now : Instant} {es : List (DeviceQueueEntry τ)} :
    (pollTimeouts now es).1 = none ↔ ∀ e ∈ es, (Sleep.poll now e.timeout).1 = false := by
  induction es with
  | nil => simp [pollTimeouts]
  | cons e es ih =>
    rw [pollTimeouts, List.forall_mem_cons, ← ih]
    cases hp : Sleep.poll now e.timeout with
    | mk ready timeout => cases ready <;> simp

theorem pollTimeouts_none {now : Instant} {es es' : List (DeviceQueueEntry τ)}
    (h : pollTimeouts now es = (none, es')) :
    es'.map DeviceQueueEntry.view = es.map DeviceQueueEntry.view := by
  induction es generalizing es' with
  | nil => simp_all [pollTimeouts]
  | cons e es ih =>
    rw [pollTimeouts] at h
    cases hp : Sleep.poll now e.timeout with
    | mk ready timeout =>
      cases ready with
      | true => simp [hp] at h
      | false =>
        cases hr : pollTimeouts now es with
        | mk expired rest =>
          simp only [hp, hr, Prod.mk.injEq, Option.map_eq_none_iff] at h
          obtain ⟨rfl, rfl⟩ := h
          simp [ih hr, DeviceQueueEntry.view]

/-- The first entry whose timer is ready goes, the others stay in order. -/
theorem pollTimeouts_some {now : Instant} {es es' : List (DeviceQueueEntry τ)} {i : Nat}
    {k : UniqueKey} (h : pollTimeouts now es = (some (i, k), es')) :
    ∃ earlier e later, es.map DeviceQueueEntry.view = earlier ++ e :: later ∧
      i = earlier.length ∧ k = e.1.key ∧ es'.map DeviceQueueEntry.view = earlier ++ later := by
  induction es generalizing es' i with
  | nil => simp [pollTimeouts] at h
  | cons e es ih =>
    rw [pollTimeouts] at h
    cases hp : Sleep.poll now e.timeout with
    | mk ready timeout =>
      cases ready with
      | true =>
        simp only [hp, Prod.mk.injEq, Option.some.injEq] at h
        obtain ⟨⟨rfl, rfl⟩, rfl⟩ := h
        exact ⟨[], e.view, es.map DeviceQueueEntry.view, by simp, rfl, rfl, by simp⟩
      | false =>
        cases hr : pollTimeouts now es with
        | mk expired rest =>
          cases expired with
          | none => simp [hp, hr] at h
          | some ik =>
            simp only [hp, hr, Option.map_some, Prod.mk.injEq, Option.some.injEq] at h
            obtain ⟨⟨rfl, rfl⟩, rfl⟩ := h
            obtain ⟨earlier, x, later, hes, hi, hk, hrest⟩ := ih hr
            refine ⟨e.view :: earlier, x, later, by simp [hes], by simp [hi], hk, ?_⟩
            simp [hrest, DeviceQueueEntry.view]

/-- Timers that were all pending are all pending when polled again at the same instant. -/
theorem pollTimeouts_again [LawfulSleep τ] {now : Instant} {es es' : List (DeviceQueueEntry τ)}
    (h : pollTimeouts now es = (none, es')) : (pollTimeouts now es').1 = none := by
  induction es generalizing es' with
  | nil =>
    simp only [pollTimeouts, Prod.mk.injEq] at h
    obtain ⟨-, rfl⟩ := h
    rfl
  | cons e es ih =>
    rw [pollTimeouts] at h
    cases hp : Sleep.poll now e.timeout with
    | mk ready timeout =>
      cases ready with
      | true => simp [hp] at h
      | false =>
        cases hr : pollTimeouts now es with
        | mk expired rest =>
          simp only [hp, hr, Prod.mk.injEq, Option.map_eq_none_iff] at h
          obtain ⟨rfl, rfl⟩ := h
          have hagain : (Sleep.poll now timeout).1 = false := by
            have hlaw := LawfulSleep.pending_again now e.timeout (by rw [hp])
            rwa [hp] at hlaw
          rw [pollTimeouts]
          cases hp' : Sleep.poll now timeout with
          | mk ready' timeout' =>
            rw [hp'] at hagain
            obtain rfl : ready' = false := hagain
            have hrest := ih hr
            cases hr' : pollTimeouts now rest with
            | mk expired' rest' =>
              rw [hr'] at hrest
              obtain rfl : expired' = none := hrest
              simp

/-! One poll. -/

inductive Settles (now : Instant) (q : DeviceQueue τ) : DeviceQueue τ → Prop where
  | waitsForDevice {front rest} : q.entries = front :: rest → q.state = .idle false →
      front.data.indirect = true → Settles now q q
  | waitsForRadio {front rest k ack payload} : q.entries = front :: rest →
      q.state = .sending k ack payload → Settles now q q
  | waitsForAck {front rest n timeout timeout'} : q.entries = front :: rest →
      q.state = .waitingForAck n timeout → Sleep.poll now timeout = (false, timeout') →
      Settles now q { q with state := .waitingForAck n timeout' }
  | leavesToDevice {front rest n timeout timeout'} : q.entries = front :: rest →
      q.state = .waitingForAck n timeout → Sleep.poll now timeout = (true, timeout') →
      front.data.indirect = true → Settles now q { q with state := .idle false }
  | retries {front rest n timeout timeout'} : q.entries = front :: rest →
      q.state = .waitingForAck n timeout → Sleep.poll now timeout = (true, timeout') →
      front.data.indirect = false → 0 < front.retriesLeft →
      Settles now q { q with
        state := .idle false
        entries := { front with retriesLeft := front.retriesLeft - 1 } :: rest }

inductive PollOutcome (q : DeviceQueue τ) (pib : PIB) (now : Instant) (cx : Waker)
    (sendKey : UniqueKey) : Poll DeviceQueueAction × DeviceQueue τ × PIB → Prop where
  | setPending : q.lastPendingReported ≠ some q.shouldBePending →
      PollOutcome q pib now cx sendKey (.ready (.setPending q.shouldBePending),
        { q with lastPendingReported := some q.shouldBePending }, pib)
  | empty : q.lastPendingReported = some q.shouldBePending → q.entries = [] →
      PollOutcome q pib now cx sendKey (.ready .empty, { q with state := .idle false }, pib)
  | sendFrame {front rest datarequest} : q.lastPendingReported = some q.shouldBePending →
      q.entries = front :: rest → q.state = .idle datarequest →
      (front.data.indirect = false ∨ datarequest = true) → ∀ morePending,
      PollOutcome q pib now cx sendKey
        (.ready (.sendFrame sendKey (createFrame front.data pib morePending).1.2),
          { q with state := .sending sendKey (createFrame front.data pib morePending).1.1 [] },
          (createFrame front.data pib morePending).2)
  | noAck {front rest n timeout timeout'} : q.lastPendingReported = some q.shouldBePending →
      q.entries = front :: rest → q.state = .waitingForAck n timeout →
      Sleep.poll now timeout = (true, timeout') → front.data.indirect = false →
      front.retriesLeft = 0 →
      PollOutcome q pib now cx sendKey (.ready (.reportResult front.data.key (.error .noAck)),
        { q with state := .idle false, entries := rest }, pib)
  | result {front rest result} : q.lastPendingReported = some q.shouldBePending →
      q.entries = front :: rest → q.state = .haveResult result →
      PollOutcome q pib now cx sendKey (.ready (.reportResult front.data.key result),
        { q with state := .idle false, entries := rest }, pib)
  | expired {q₁ i k es} : q.lastPendingReported = some q.shouldBePending → Settles now q q₁ →
      pollTimeouts now q₁.entries = (some (i, k), es) →
      PollOutcome q pib now cx sendKey
        (.ready (.reportResult k (.error .transactionExpired)),
          { q₁ with
            state := if i = 0 then .idle false else q₁.state
            entries := es }, pib)
  | waits {q₁ es} : q.lastPendingReported = some q.shouldBePending → Settles now q q₁ →
      pollTimeouts now q₁.entries = (none, es) →
      PollOutcome q pib now cx sendKey
        (.pending, { q₁ with entries := es, waker := q₁.waker.pend cx }, pib)

theorem Settles.requests {now : Instant} {q q₁ : DeviceQueue τ} (h : Settles now q q₁) :
    q₁.requests = q.requests := by
  cases h with
  | retries hes _ _ _ _ => simp [DeviceQueue.requests, hes]
  | _ => rfl

theorem pollExpiry_outcome {q q₁ : DeviceQueue τ} (pib : PIB) {now : Instant} (cx : Waker)
    (sendKey : UniqueKey) (hrep : q.lastPendingReported = some q.shouldBePending)
    (hs : Settles now q q₁) :
    PollOutcome q pib now cx sendKey
      ((q₁.pollExpiry now cx).1, (q₁.pollExpiry now cx).2, pib) := by
  unfold pollExpiry
  cases hp : pollTimeouts now q₁.entries with
  | mk expired es =>
    cases expired with
    | none => exact .waits hrep hs hp
    | some ik => exact .expired hrep hs hp

theorem pollNextAction_outcome (q : DeviceQueue τ) (pib : PIB) (now : Instant) (cx : Waker)
    (sendKey : UniqueKey) :
    PollOutcome q pib now cx sendKey (q.pollNextAction pib now cx sendKey) := by
  unfold pollNextAction
  by_cases hrep : q.lastPendingReported ≠ some q.shouldBePending
  · rw [if_pos hrep]
    exact .setPending hrep
  rw [if_neg hrep]
  rw [not_not] at hrep
  cases hes : q.entries with
  | nil => simpa [hes] using PollOutcome.empty hrep hes
  | cons front rest =>
    cases hst : q.state with
    | idle datarequest =>
      dsimp only
      by_cases hgo : (!front.data.indirect || datarequest) = true
      · rw [if_pos hgo, ← hes]
        exact .sendFrame hrep hes hst (by simpa using hgo) _
      · rw [if_neg hgo, ← hes]
        obtain ⟨hind, rfl⟩ : front.data.indirect = true ∧ datarequest = false := by
          simpa using hgo
        have hq : { q with state := .idle false } = q := by rw [← hst]
        rw [hq]
        exact pollExpiry_outcome pib cx sendKey hrep (.waitsForDevice hes hst hind)
    | sending k ack payload =>
      exact pollExpiry_outcome pib cx sendKey hrep (.waitsForRadio hes hst)
    | waitingForAck n timeout =>
      dsimp only
      cases hp : Sleep.poll now timeout with
      | mk ready timeout' =>
        cases ready with
        | false =>
          dsimp only
          rw [← hes]
          exact pollExpiry_outcome pib cx sendKey hrep (.waitsForAck hes hst hp)
        | true =>
          dsimp only
          by_cases hind : front.data.indirect = true
          · rw [if_pos hind, ← hes]
            exact pollExpiry_outcome pib cx sendKey hrep (.leavesToDevice hes hst hp hind)
          rw [if_neg hind]
          rw [Bool.not_eq_true] at hind
          by_cases hleft : 0 < front.retriesLeft
          · rw [if_pos hleft]
            exact pollExpiry_outcome pib cx sendKey hrep (.retries hes hst hp hind hleft)
          · rw [if_neg hleft]
            exact .noAck hrep hes hst hp hind (by omega)
    | haveResult result => exact .result hrep hes hst

/-- A reported request leaves the queue, and nothing else does. -/
theorem PollOutcome.requests {q q' : DeviceQueue τ} {pib pib' : PIB} {now : Instant} {cx : Waker}
    {sendKey : UniqueKey} {action : Poll DeviceQueueAction}
    (h : PollOutcome q pib now cx sendKey (action, q', pib')) :
    match action with
    | .ready (.reportResult k _) => ∃ earlier r later, q.requests = earlier ++ r :: later ∧
        r.key = k ∧ q'.requests = earlier ++ later
    | .ready .empty => q.requests = [] ∧ q'.requests = []
    | _ => q'.requests = q.requests := by
  cases h with
  | setPending _ => rfl
  | empty _ hes => exact ⟨by simp [DeviceQueue.requests, hes], by simp [DeviceQueue.requests, hes]⟩
  | sendFrame _ _ _ _ => rfl
  | @noAck front rest _ _ _ _ hes _ _ _ _ =>
    exact ⟨[], front.data, rest.map (·.data), by simp [DeviceQueue.requests, hes], rfl, rfl⟩
  | @result front rest res _ hes _ =>
    exact ⟨[], front.data, rest.map (·.data), by simp [DeviceQueue.requests, hes], rfl, rfl⟩
  | expired _ hs hp =>
    obtain ⟨earlier, e, later, hes, -, hk, hes'⟩ := pollTimeouts_some hp
    refine ⟨earlier.map Prod.fst, e.1, later.map Prod.fst, ?_, hk.symm, ?_⟩
    · rw [← hs.requests, requests_eq_view, hes]
      simp
    · rw [requests_eq_view]
      simp [hes']
  | waits _ hs hp =>
    refine (requests_of_view ?_).trans hs.requests
    exact pollTimeouts_none hp

theorem PollOutcome.mem_requests {q q' : DeviceQueue τ} {pib pib' : PIB} {now : Instant}
    {cx : Waker} {sendKey : UniqueKey} {action : Poll DeviceQueueAction}
    (h : PollOutcome q pib now cx sendKey (action, q', pib')) {r : DataRequest}
    (hr : r ∈ q'.requests) : r ∈ q.requests := by
  have hreq := h.requests
  split at hreq
  · obtain ⟨earlier, r', later, hq, -, hq'⟩ := hreq
    rw [hq', List.mem_append] at hr
    rw [hq, List.mem_append]
    exact hr.imp_right (List.mem_cons_of_mem r')
  · rw [hreq.2] at hr
    exact absurd hr List.not_mem_nil
  · rwa [← hreq]

theorem Settles.reported {now : Instant} {q q₁ : DeviceQueue τ} (h : Settles now q q₁) :
    q₁.lastPendingReported = q.lastPendingReported := by
  cases h <;> rfl

/-- The pending flag changes only with the report of the front entry's. Everything else happens
while the flag is the front entry's. -/
theorem PollOutcome.reported {q q' : DeviceQueue τ} {pib pib' : PIB} {now : Instant} {cx : Waker}
    {sendKey : UniqueKey} {action : Poll DeviceQueueAction}
    (h : PollOutcome q pib now cx sendKey (action, q', pib')) :
    match action with
    | .ready (.setPending pending) => pending = q.shouldBePending ∧
        q'.lastPendingReported = some pending
    | _ => q.lastPendingReported = some q.shouldBePending ∧
        q'.lastPendingReported = q.lastPendingReported := by
  cases h with
  | setPending _ => exact ⟨rfl, rfl⟩
  | empty hrep _ => exact ⟨hrep, rfl⟩
  | sendFrame hrep _ _ _ _ => exact ⟨hrep, rfl⟩
  | noAck hrep _ _ _ _ _ => exact ⟨hrep, rfl⟩
  | result hrep _ _ => exact ⟨hrep, rfl⟩
  | expired hrep hs _ => exact ⟨hrep, hs.reported⟩
  | waits hrep hs _ => exact ⟨hrep, hs.reported⟩

theorem Settles.advances {now : Instant} {q q₁ : DeviceQueue τ} (h : Settles now q q₁) :
    Advances q.state q₁.state := by
  cases h with
  | waitsForDevice _ _ _ => exact .refl _
  | waitsForRadio _ _ => exact .refl _
  | waitsForAck _ hst _ =>
    rw [hst]
    exact .waits _ _ _
  | leavesToDevice _ _ _ _ => exact .givesUp _
  | retries _ _ _ _ _ => exact .givesUp _

/-- Only a frame that is sent begins a transmission, from an idle queue, and an indirect one only
after a request of the device. -/
theorem PollOutcome.advances {q q' : DeviceQueue τ} {pib pib' : PIB} {now : Instant} {cx : Waker}
    {sendKey : UniqueKey} {action : Poll DeviceQueueAction}
    (h : PollOutcome q pib now cx sendKey (action, q', pib')) :
    match action with
    | .ready (.sendFrame k f) => ∃ r datarequest morePending, q.requests.head? = some r ∧
        q.state = .idle datarequest ∧ (r.indirect = false ∨ datarequest = true) ∧
        f = (createFrame r pib morePending).1.2 ∧
        q'.state = .sending k (createFrame r pib morePending).1.1 [] ∧
        pib' = (createFrame r pib morePending).2
    | _ => Advances q.state q'.state ∧ pib' = pib := by
  cases h with
  | setPending _ => exact ⟨.refl _, rfl⟩
  | empty _ _ => exact ⟨.givesUp _, rfl⟩
  | @sendFrame front rest datarequest _ hes hst hgo morePending =>
    refine ⟨front.data, datarequest, morePending, ?_, hst, hgo, rfl, rfl, rfl⟩
    simp [DeviceQueue.requests, hes]
  | noAck _ _ _ _ _ _ => exact ⟨.givesUp _, rfl⟩
  | result _ _ _ => exact ⟨.givesUp _, rfl⟩
  | expired _ hs _ =>
    refine ⟨?_, rfl⟩
    dsimp only
    split
    · exact .givesUp _
    · exact hs.advances
  | waits _ hs _ => exact ⟨hs.advances, rfl⟩

end DeviceQueue
end ZigbeeStack
