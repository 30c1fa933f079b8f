import ZigbeeStack.DataService
import ZigbeeStack.DeviceQueueSpec

/-! What one call of the data service's poll does: changes that its caller does not see, and then
one that it does. -/
namespace ZigbeeStack.DataService
variable {τ : Type} [Sleep τ]

inductive Silent (cx : Waker) (key : UniqueKey) :
    DataService τ × PIB → DataService τ × PIB → Prop where
  | table {s pib table} : s.pendingTable.pollAction cx key = (.pending, table) →
      Silent cx key (s, pib) ({ s with pendingTable := table }, pib)
  | waits {s pib pib' d q q' now} : HashMap.get s.queues d = some q →
      DeviceQueue.PollOutcome q pib now cx key (.pending, q', pib') →
      Silent cx key (s, pib) (s.setQueue d q', pib')
  | empty {s pib pib' d q q' now} : HashMap.get s.queues d = some q →
      DeviceQueue.PollOutcome q pib now cx key (.ready .empty, q', pib') →
      Silent cx key (s, pib)
        ({ s with queues := HashMap.remove (s.setQueue d q').queues d }, pib')
  | setPending {s pib pib' d q q' now pending} : HashMap.get s.queues d = some q →
      DeviceQueue.PollOutcome q pib now cx key (.ready (.setPending pending), q', pib') →
      Silent cx key (s, pib)
        ({ s.setQueue d q' with pendingTable := s.pendingTable.set d pending }, pib')
  | unreported {s pib pib' d q q' now k result msduHandles} : HashMap.get s.queues d = some q →
      DeviceQueue.PollOutcome q pib now cx key (.ready (.reportResult k result), q', pib') →
      TwoWayMap.removeByRight s.msduHandles k = (none, msduHandles) →
      Silent cx key (s, pib) ({ s.setQueue d q' with msduHandles := msduHandles }, pib')

inductive Final (cx : Waker) (key : UniqueKey) :
    DataService τ × PIB → Poll DataServiceAction × DataService τ × PIB → Prop where
  | table {s pib action table} : s.pendingTable.pollAction cx key = (.ready action, table) →
      Final cx key (s, pib) (.ready (.ofCombined action), { s with pendingTable := table }, pib)
  | sendFrame {s pib pib' d q q' now k frame} : HashMap.get s.queues d = some q →
      DeviceQueue.PollOutcome q pib now cx key (.ready (.sendFrame k frame), q', pib') →
      Final cx key (s, pib) (.ready (.sendFrame k frame), s.setQueue d q', pib')
  | confirm {s pib pib' d q q' now k result handle k' msduHandles} :
      HashMap.get s.queues d = some q →
      DeviceQueue.PollOutcome q pib now cx key (.ready (.reportResult k result), q', pib') →
      TwoWayMap.removeByRight s.msduHandles k = (some (handle, k'), msduHandles) →
      Final cx key (s, pib)
        (.ready (.confirm (.data ⟨handle, result.mapError DeviceQueueError.toService⟩)),
          { s.setQueue d q' with msduHandles := msduHandles }, pib')
  | pending {s pib} : Final cx key (s, pib) (.pending, { s with waker := s.waker.pend cx }, pib)

section Rule
variable {cx : Waker} {key : UniqueKey} {P : DataService τ × PIB → Prop}
  {Q : Poll DataServiceAction × DataService τ × PIB → Prop}

def Round.Leads (P : DataService τ × PIB → Prop)
    (Q : Poll DataServiceAction × DataService τ × PIB → Prop) : Round τ → Prop
  | .done action s pib => Q (action, s, pib)
  | .retry s pib => P (s, pib)

theorem processQueueAction_leads (hsilent : ∀ a b, Silent cx key a b → P a → P b)
    (hfinal : ∀ a b, Final cx key a b → P a → Q b) {s : DataService τ} {pib pib' : PIB}
    {d : Option FullAddress} {q q' : DeviceQueue τ} {now : Instant} {action : DeviceQueueAction}
    (hP : P (s, pib)) (hq : HashMap.get s.queues d = some q)
    (hp : DeviceQueue.PollOutcome q pib now cx key (.ready action, q', pib')) :
    ((s.setQueue d q').processQueueAction pib' d action).Leads P Q := by
  cases action with
  | empty => exact hsilent _ _ (.empty hq hp) hP
  | setPending pending => exact hsilent _ _ (.setPending hq hp) hP
  | sendFrame k frame => exact hfinal _ _ (.sendFrame hq hp) hP
  | reportResult k result =>
    simp only [processQueueAction]
    cases hr : TwoWayMap.removeByRight s.msduHandles k with
    | mk removed msduHandles =>
      rw [show TwoWayMap.removeByRight (s.setQueue d q').msduHandles k =
        (removed, msduHandles) from hr]
      cases removed with
      | none => exact hsilent _ _ (.unreported hq hp hr) hP
      | some pair =>
        obtain ⟨handle, k'⟩ := pair
        exact hfinal _ _ (.confirm hq hp hr) hP

theorem pollQueues_leads (hsilent : ∀ a b, Silent cx key a b → P a → P b)
    (hfinal : ∀ a b, Final cx key a b → P a → Q b)
    (visits : List (Option FullAddress × Instant)) {s : DataService τ} {pib : PIB}
    (hP : P (s, pib)) : (s.pollQueues pib cx key visits).Leads P Q := by
  induction visits generalizing s pib with
  | nil => exact hfinal _ _ .pending hP
  | cons visit rest ih =>
    obtain ⟨d, now⟩ := visit
    rw [pollQueues]
    cases hq : HashMap.get s.queues d with
    | none => exact ih hP
    | some q =>
      have hp := q.pollNextAction_outcome pib now cx key
      dsimp only
      generalize q.pollNextAction pib now cx key = out at hp ⊢
      obtain ⟨action, q', pib'⟩ := out
      cases action with
      | ready action => exact processQueueAction_leads hsilent hfinal hP hq hp
      | pending => exact ih (hsilent _ _ (.waits hq hp) hP)

/-- The rule of the poll: `P` holds before it and over its silent changes, and its last change
leads from `P` to `Q`. -/
theorem pollAction_rule (hsilent : ∀ a b, Silent cx key a b → P a → P b)
    (hfinal : ∀ a b, Final cx key a b → P a → Q b)
    (rounds : List (List (Option FullAddress × Instant))) {s : DataService τ} {pib : PIB}
    {out : Poll DataServiceAction × DataService τ × PIB} (hP : P (s, pib))
    (h : s.pollAction pib cx key rounds = some out) : Q out := by
  induction rounds generalizing s pib with
  | nil => cases h
  | cons visits rounds ih =>
    rw [pollAction] at h
    split at h
    · have hround : (s.pollRound pib cx key visits).Leads P Q := by
        unfold pollRound
        cases ht : s.pendingTable.pollAction cx key with
        | mk action table =>
          cases action with
          | ready action => exact hfinal _ _ (.table ht) hP
          | pending => exact pollQueues_leads hsilent hfinal visits (hsilent _ _ (.table ht) hP)
      generalize s.pollRound pib cx key visits = round at hround h
      cases round with
      | done action s' pib' =>
        obtain rfl := Option.some.inj h
        exact hround
      | retry s' pib' => exact ih hround h
    · cases h

end Rule

/-! A poll that returns pending has asked every queue, and left each with its flag reported. -/

theorem pollQueues_pending {cx : Waker} {key : UniqueKey}
    {visits : List (Option FullAddress × Instant)} (hnodup : (visits.map Prod.fst).Nodup)
    {s s' : DataService τ} {pib pib' : PIB}
    (h : s.pollQueues pib cx key visits = .done .pending s' pib') :
    s'.pendingTable = s.pendingTable ∧
      (∀ d, d ∉ visits.map Prod.fst → HashMap.get s'.queues d = HashMap.get s.queues d) ∧
      ∀ d ∈ visits.map Prod.fst, ∀ q, HashMap.get s'.queues d = some q →
        q.lastPendingReported = some q.shouldBePending := by
  induction visits generalizing s pib with
  | nil =>
    obtain ⟨-, rfl, -⟩ := Round.done.inj h
    exact ⟨rfl, fun _ _ => rfl, fun d hd => absurd hd List.not_mem_nil⟩
  | cons visit rest ih =>
    obtain ⟨d, now⟩ := visit
    obtain ⟨hd, hnodup⟩ := List.nodup_cons.mp hnodup
    rw [pollQueues] at h
    cases hq : HashMap.get s.queues d with
    | none =>
      rw [hq] at h
      obtain ⟨htable, hother, hvisited⟩ := ih hnodup h
      refine ⟨htable, fun d' hd' => hother d' fun hmem => hd' (List.mem_cons_of_mem _ hmem), ?_⟩
      intro d' hd' q hq'
      rcases List.mem_cons.mp hd' with rfl | hmem
      · rw [hother _ hd, hq] at hq'
        cases hq'
      · exact hvisited d' hmem q hq'
    | some q =>
      rw [hq] at h
      dsimp only at h
      have hp := q.pollNextAction_outcome pib now cx key
      generalize q.pollNextAction pib now cx key = out at hp h
      obtain ⟨action, q', pib₁⟩ := out
      cases action with
      | ready action =>
        cases action with
        | reportResult k result =>
          simp only [processQueueAction] at h
          split at h
          · cases h
          · cases h
        | _ => cases h
      | pending =>
        obtain ⟨htable, hother, hvisited⟩ := ih hnodup h
        refine ⟨htable, fun d' hd' => ?_, fun d' hd' q₁ hq₁ => ?_⟩
        · have hne : d' ≠ d := fun heq => hd' (List.mem_cons.mpr (.inl heq))
          rw [hother d' fun hmem => hd' (List.mem_cons_of_mem _ hmem)]
          exact HashMap.get_set_ne _ _ hne
        · rcases List.mem_cons.mp hd' with rfl | hmem
          · have hget : HashMap.get s'.queues d' = some q' :=
              (hother _ hd).trans (HashMap.get_set_self _ _ _)
            obtain rfl : q' = q₁ := Option.some.inj (hget.symm.trans hq₁)
            have hrequests : q'.requests = q.requests := hp.requests
            have hreported : q.lastPendingReported = some q.shouldBePending ∧
                q'.lastPendingReported = q.lastPendingReported := hp.reported
            rw [DeviceQueue.shouldBePending_of_requests hrequests, hreported.2]
            exact hreported.1
          · exact hvisited d' hmem q₁ hq₁

theorem pollAction_pending {cx : Waker} {key : UniqueKey}
    {rounds : List (List (Option FullAddress × Instant))} {s s' : DataService τ} {pib pib' : PIB}
    (h : s.pollAction pib cx key rounds = some (.pending, s', pib')) {d : Option FullAddress}
    {q : DeviceQueue τ} (hq : HashMap.get s'.queues d = some q) :
    q.lastPendingReported = some q.shouldBePending := by
  induction rounds generalizing s pib with
  | nil => cases h
  | cons visits rounds ih =>
    rw [pollAction] at h
    split at h
    · rename_i henum
      cases hround : s.pollRound pib cx key visits with
      | retry s₁ pib₁ =>
        rw [hround] at h
        exact ih h
      | done action s₁ pib₁ =>
        rw [hround] at h
        obtain ⟨rfl, rfl, rfl⟩ : action = .pending ∧ s₁ = s' ∧ pib₁ = pib' := by simpa using h
        unfold pollRound at hround
        split at hround
        · cases hround
        · obtain ⟨-, hother, hvisited⟩ := pollQueues_pending (HashMap.order_nodup henum) hround
          by_cases hd : d ∈ visits.map Prod.fst
          · exact hvisited d hd q hq
          · rw [hother d hd] at hq
            exact absurd (HashMap.mem_order henum hq) hd
    · cases h

end ZigbeeStack.DataService
