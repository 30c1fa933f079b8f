import ZigbeeStack.DataRuns

/-! The poll of the data service returns: each round that does not return lowers the work that is
left. A request counts twice, since when it leaves, the pending flag may have to be reported again;
a queue counts once itself. -/
namespace ZigbeeStack
variable {τ : Type}

namespace DeviceQueue

def work (q : DeviceQueue τ) : Nat :=
  1 + 2 * q.requests.length + if q.lastPendingReported = some q.shouldBePending then 0 else 1

theorem work_pos (q : DeviceQueue τ) : 0 < q.work := by
  rw [work]
  omega

variable [Sleep τ] {q q' : DeviceQueue τ} {pib pib' : PIB} {now : Instant} {cx : Waker}
  {sendKey : UniqueKey}

theorem PollOutcome.work_pending (h : PollOutcome q pib now cx sendKey (.pending, q', pib')) :
    q'.work = q.work := by
  have hrequests : q'.requests = q.requests := h.requests
  obtain ⟨-, hreported⟩ : _ ∧ q'.lastPendingReported = q.lastPendingReported := h.reported
  rw [work, work, shouldBePending_of_requests hrequests, hrequests, hreported]

theorem PollOutcome.work_setPending {pending : Bool}
    (h : PollOutcome q pib now cx sendKey (.ready (.setPending pending), q', pib')) :
    q'.work < q.work := by
  have hrequests : q'.requests = q.requests := h.requests
  obtain ⟨rfl, hreported⟩ : pending = q.shouldBePending ∧ q'.lastPendingReported = some pending :=
    h.reported
  have hunreported : q.lastPendingReported ≠ some q.shouldBePending := by
    cases h with
    | setPending hunreported => exact hunreported
  rw [work, work, shouldBePending_of_requests hrequests, hrequests, if_neg hunreported,
    if_pos hreported]
  omega

/-- The flag may have to be reported again, but one request is gone. -/
theorem PollOutcome.work_reportResult {k : UniqueKey}
    {result : Except DeviceQueueError (List UInt8)}
    (h : PollOutcome q pib now cx sendKey (.ready (.reportResult k result), q', pib')) :
    q'.work < q.work := by
  obtain ⟨earlier, r, later, hq, -, hq'⟩ := h.requests
  obtain ⟨hreported, -⟩ : q.lastPendingReported = _ ∧ _ := h.reported
  have hlen : q.requests.length = q'.requests.length + 1 := by
    rw [hq, hq', List.length_append, List.length_append, List.length_cons]
    omega
  rw [work, work, if_pos hreported, hlen]
  split_ifs <;> omega

end DeviceQueue

namespace DataService
open Runs
variable {s s' : DataService τ} {d : Option FullAddress} {q q' : DeviceQueue τ}

def work (s : DataService τ) : Nat := HashMap.total DeviceQueue.work s.queues

theorem work_setQueue (q' : DeviceQueue τ) (hq : HashMap.get s.queues d = some q) :
    (s.setQueue d q').work + q.work = s.work + q'.work :=
  HashMap.total_set DeviceQueue.work q' hq

theorem work_remove (hq : HashMap.get s.queues d = some q) :
    HashMap.total DeviceQueue.work (HashMap.remove (s.setQueue d q').queues d) < s.work := by
  have hset := work_setQueue q' hq
  have hget : HashMap.get (s.setQueue d q').queues d = some q' := HashMap.get_set_self _ _ _
  have hremove : (s.setQueue d q').work = _ := HashMap.total_remove DeviceQueue.work hget
  have hpos := q.work_pos
  omega

variable [Sleep τ] {pib pib' : PIB} {now : Instant} {cx : Waker} {key : UniqueKey}

theorem processQueueAction_retry {action : DeviceQueueAction} {pib'' : PIB}
    (hq : HashMap.get s.queues d = some q)
    (hp : DeviceQueue.PollOutcome q pib now cx key (.ready action, q', pib'))
    (h : (s.setQueue d q').processQueueAction pib' d action = .retry s' pib'') :
    s'.work < s.work := by
  have hset := work_setQueue q' hq
  cases action with
  | empty =>
    obtain ⟨rfl, -⟩ := Round.retry.inj h
    exact work_remove hq
  | setPending pending =>
    obtain ⟨rfl, -⟩ := Round.retry.inj h
    have hlt := hp.work_setPending
    change (s.setQueue d q').work < s.work
    omega
  | sendFrame k frame => cases h
  | reportResult k result =>
    have hlt := hp.work_reportResult
    simp only [processQueueAction] at h
    split at h
    · cases h
    · obtain ⟨rfl, -⟩ := Round.retry.inj h
      change (s.setQueue d q').work < s.work
      omega

theorem pollQueues_retry {visits : List (Option FullAddress × Instant)}
    (h : s.pollQueues pib cx key visits = .retry s' pib') : s'.work < s.work := by
  induction visits generalizing s pib with
  | nil => cases h
  | cons visit rest ih =>
    obtain ⟨d, now⟩ := visit
    rw [pollQueues] at h
    cases hq : HashMap.get s.queues d with
    | none =>
      rw [hq] at h
      exact ih h
    | some q =>
      rw [hq] at h
      dsimp only at h
      have hp := q.pollNextAction_outcome pib now cx key
      generalize q.pollNextAction pib now cx key = out at hp h
      obtain ⟨action, q', pib₁⟩ := out
      cases action with
      | ready action => exact processQueueAction_retry hq hp h
      | pending =>
        have hset := work_setQueue q' hq
        have hsame := hp.work_pending
        have hlt := ih h
        omega

/-- A round that does not return has lowered the work. -/
theorem pollRound_retry {visits : List (Option FullAddress × Instant)}
    (h : s.pollRound pib cx key visits = .retry s' pib') : s'.work < s.work := by
  unfold pollRound at h
  split at h
  · cases h
  · have hlt := pollQueues_retry h
    exact hlt

def chosenRounds (choose : Nat → DataService τ → List (Option FullAddress × Instant)) (cx : Waker)
    (key : UniqueKey) : Nat → DataService τ → PIB → List (List (Option FullAddress × Instant))
  | 0, _, _ => []
  | n+1, s, pib =>
    choose n s :: match s.pollRound pib cx key (choose n s) with
      | .done _ _ _ => []
      | .retry s pib => chosenRounds choose cx key n s pib

/-- The poll returns, from any state, in any order of the queues and whatever the timers do, after
at most one round more than there is work. -/
theorem pollAction_returns (choose : Nat → DataService τ → List (Option FullAddress × Instant))
    (hchoose : ∀ n s, HashMap.Enumerates ((choose n s).map Prod.fst) s.queues) (cx : Waker)
    (key : UniqueKey) (s : DataService τ) (pib : PIB) (n : Nat) (hn : s.work < n) :
    (s.pollAction pib cx key (chosenRounds choose cx key n s pib)).isSome := by
  induction n generalizing s pib with
  | zero => omega
  | succ n ih =>
    rw [chosenRounds, pollAction, if_pos (hchoose n s)]
    cases hround : s.pollRound pib cx key (choose n s) with
    | done action s' pib' => rfl
    | retry s' pib' =>
      have hlt := pollRound_retry hround
      exact ih s' pib' (by omega)

def mapOrder (now : Instant) (_ : Nat) (s : DataService SleepTimer) :
    List (Option FullAddress × Instant) :=
  s.queues.keys.map fun destination => (destination, now)

theorem mapOrder_enumerates (now : Instant) (n : Nat) (s : DataService SleepTimer) :
    HashMap.Enumerates ((mapOrder now n s).map Prod.fst) s.queues := by
  have hkeys : (mapOrder now n s).map Prod.fst = s.queues.keys := by
    simp [mapOrder, Function.comp_def]
  rw [hkeys]
  exact .refl _

def joiner : FullAddress := ⟨coordinator.macPanId, .extended ⟨5⟩⟩

def announcing : List Event :=
  [.mlmeResponse ⟨0⟩ (.associate ⟨5⟩ false (.ok (some ⟨9⟩))), pollAt 1 0 [[joiner]],
    .initPendingTableResult ⟨1⟩ true, pollAt 2 0 [[joiner], [joiner]],
    .setPendingResult ⟨2⟩ true, pollAt 3 0 [[joiner]]]

def announced : Past SleepTimer × DataService SleepTimer × PIB :=
  replay step unrestricted (new, coordinator) announcing

/- The rounds of a poll at the end of its time: the answer expires, it is not announced any more,
and the queue goes. -/
def expiryRounds (n : Nat) : List (List (Option FullAddress × Instant)) :=
  chosenRounds (mapOrder coordinator.macTransactionPersistenceTime) 0 ⟨4⟩ n announced.2.1
    announced.2.2

theorem pollAction_returns_announced :
    (announced.1.length = 6 ∧ (expiryRounds 4).length = 3 ∧
      announced.2.1.pollAction announced.2.2 0 ⟨4⟩ (expiryRounds 2) = none) ∧
    (announced.2.1.pollAction announced.2.2 0 ⟨4⟩ (expiryRounds 4)).isSome :=
  ⟨⟨by decide, by decide, by decide⟩,
    pollAction_returns _ (mapOrder_enumerates coordinator.macTransactionPersistenceTime) 0 ⟨4⟩
      announced.2.1 announced.2.2 4 (by decide)⟩

end DataService
end ZigbeeStack
