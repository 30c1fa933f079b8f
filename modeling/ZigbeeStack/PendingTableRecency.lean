import ZigbeeStack.PendingTableSlots

/-! The order of a pending table tells how long ago each member with a slot was inserted or
promoted, so a slot that is needed is taken from the member that was left alone the longest. -/
namespace ZigbeeStack.PendingTable
open Runs
variable {T : Type} {n : Nat}

/- Everything that is done to a table: besides the events that fill it, the radio may forget it. -/
inductive Operation (T : Type) where
  | event (e : Event T)
  | assumeEmpty

def Operation.refreshes : Operation T → Option T
  | .event (.insert value) => some value
  | .event (.set value true) => some value
  | .event (.promote value) => some value
  | _ => none

def Operation.removes : Operation T → Option T
  | .event e => e.removes
  | .assumeEmpty => none

section Ages
variable {age age' : T → Nat}

def Ranked (age : T → Nat) (t : PendingTable T n) : Prop :=
  t.order.Pairwise fun i j => ∀ v w, t.slot i = some v → t.slot j = some w → age w < age v

theorem Ranked.congr {t t' : PendingTable T n} (hr : Ranked age t) (hs : t'.slot = t.slot)
    (ho : t'.order = t.order) : Ranked age t' := by
  unfold Ranked
  rw [hs, ho]
  exact hr

/-- Time passes for every member alike. -/
theorem Ranked.pass {t : PendingTable T n} (hr : Ranked age t)
    (hage : ∀ i v, t.slot i = some v → age' v = age v + 1) : Ranked age' t := by
  refine List.Pairwise.imp (fun {i j} hij v w hv hw => ?_) hr
  have hlt := hij v w hv hw
  rw [hage i v hv, hage j w hw]
  omega

/-- The member of slot `i` becomes the most recent one, whether it had the slot or gets it now. -/
theorem Ranked.touch {t t' : PendingTable T n} (hr : Ranked age t) {i : Fin n} {v : T}
    (hage : age' v = 0) (hother : ∀ j w, j ≠ i → t.slot j = some w → age' w = age w + 1)
    (hs : ∀ j, t'.slot j = if j = i then some v else t.slot j)
    (ho : t'.order = t.order.filter (· ≠ i) ++ [i]) : Ranked age' t' := by
  unfold Ranked
  rw [ho]
  refine List.pairwise_append.mpr ⟨?_, List.pairwise_singleton _ _, ?_⟩
  · refine (List.Pairwise.filter _ hr).imp_of_mem fun {j k} hj hk hjk => ?_
    have hji : j ≠ i := by simpa using List.of_mem_filter hj
    have hki : k ≠ i := by simpa using List.of_mem_filter hk
    rw [hs, hs, if_neg hji, if_neg hki]
    intro u w hu hw
    have hlt := hjk u w hu hw
    rw [hother j u hji hu, hother k w hki hw]
    omega
  · intro j hj k hk
    have hji : j ≠ i := by simpa using List.of_mem_filter hj
    obtain rfl := List.mem_singleton.mp hk
    rw [hs, hs, if_neg hji, if_pos rfl]
    intro u w hu hw
    obtain rfl := Option.some.inj hw
    rw [hage, hother j u hji hu]
    omega

/-- A slot that falls free may stand anywhere. -/
theorem Ranked.clear {t t' : PendingTable T n} (hr : Ranked age t) {i : Fin n}
    (hage : ∀ j v, t.slot j = some v → age' v = age v + 1)
    (hs : ∀ j, t'.slot j = if j = i then none else t.slot j)
    (ho : t'.order = i :: t.order.filter (· ≠ i)) : Ranked age' t' := by
  unfold Ranked
  rw [ho]
  refine List.pairwise_cons.mpr ⟨fun j _ v w hv _ => ?_, ?_⟩
  · rw [hs, if_pos rfl] at hv
    cases hv
  · exact pairwise_others (R := fun a b => ∀ v w, a = some v → b = some w → age' w < age' v)
      (hr.pass hage) fun j hji => (hs j).trans (if_neg hji)

/-- The slot in front holds the oldest member. -/
theorem Ranked.oldest [NeZero n] {t : PendingTable T n} (hr : Ranked age t) {v : T}
    (hv : t.slot t.nextIndex = some v) {j : Fin n} {w : T} (hw : t.slot j = some w)
    (hwv : w ≠ v) : age w < age v := by
  have hsplit : t.order = t.nextIndex :: t.order.tail := (List.cons_head_tail t.order_ne_nil).symm
  have hj := t.mem_order j
  unfold Ranked at hr
  rw [hsplit] at hr hj
  rcases List.mem_cons.mp hj with rfl | hj
  · exact absurd (Option.some.inj (hw.symm.trans hv)) hwv
  · exact (List.pairwise_cons.mp hr).1 j hj v w hv hw

end Ages

section Steps
variable [DecidableEq T] [NeZero n]

def perform (t : PendingTable T n) : Operation T → PendingTable T n
  | .event e => (t.next e).1
  | .assumeEmpty => t.assumeEmpty

inductive Places (t : PendingTable T n) (op : Operation T) (t' : PendingTable T n) : Prop where
  | stays : (∀ v, op.refreshes = some v → v ∉ t.values) → t'.slot = t.slot →
      t'.order = t.order → Places t op t'
  | clears (v i) : op.refreshes = none → op.removes = some v → t.slot i = some v →
      (∀ j, t'.slot j = if j = i then none else t.slot j) →
      t'.order = i :: t.order.filter (· ≠ i) → Places t op t'
  | moves (v i) : op.refreshes = some v → t.slot i = some v → t'.slot = t.slot →
      t'.order = t.order.filter (· ≠ i) ++ [i] → Places t op t'
  | fills (v) : op.refreshes = some v → ¬ t.HasSlot v →
      (∀ j, t'.slot j = if j = t.nextIndex then some v else t.slot j) →
      t'.order = t.order.filter (· ≠ t.nextIndex) ++ [t.nextIndex] → Places t op t'

omit [DecidableEq T] in
theorem Promoted.places {t t' : PendingTable T n} {members : Finset T} {v : T}
    {op : Operation T} (hp : Promoted { t with values := members } v t')
    (hop : op.refreshes = some v) (hmem : v ∉ members → v ∉ t.values) : Places t op t' := by
  cases hp with
  | absent hv =>
    refine .stays (fun w hw => ?_) rfl rfl
    obtain rfl := Option.some.inj (hop.symm.trans hw)
    exact hmem hv
  | @moved i _ hi => exact .moves v i hop hi rfl rfl
  | placed _ hno => exact .fills v hop hno (fun j => t.slot_setEntry t.nextIndex j (.new v)) rfl

theorem Removed.places {t t' : PendingTable T n} {v : T} {op : Operation T} (hr : Removed t v t')
    (hop : op.refreshes = none) (hremoves : op.removes = some v) : Places t op t' := by
  have hstays : ∀ w, op.refreshes = some w → w ∉ t.values := by simp [hop]
  cases hr with
  | absent _ => exact .stays hstays rfl rfl
  | @cleared i _ hi =>
    exact .clears v i hop hremoves hi (fun j => t.slot_setEntry i j .default) rfl
  | unplaced _ _ => exact .stays hstays rfl rfl

theorem insert_places (t : PendingTable T n) (v : T) {op : Operation T}
    (hop : op.refreshes = some v) : Places t op (t.insert v).2 :=
  ({ t with values := Insert.insert v t.values }.promoted v).places hop
    fun hno => absurd (Finset.mem_insert_self v t.values) hno

theorem perform_places (t : PendingTable T n) (op : Operation T) : Places t op (t.perform op) := by
  cases op with
  | assumeEmpty => exact .stays (by simp [Operation.refreshes]) rfl rfl
  | event e =>
    cases e with
    | insert value => exact t.insert_places value rfl
    | remove value => exact (t.removed value).places rfl rfl
    | set value inserted =>
      cases inserted with
      | false => exact (t.removed value).places rfl rfl
      | true => exact t.insert_places value rfl
    | promote value => exact (t.promoted value).places rfl id
    | pollUpdate cx key =>
      obtain ⟨-, hs, ho⟩ := t.pollUpdate_placement cx key
      exact .stays (by simp [Operation.refreshes]) hs ho
    | reportUpdateResult token result =>
      obtain ⟨-, hs, ho⟩ := t.reportUpdateResult_placement token result
      exact .stays (by simp [Operation.refreshes]) hs ho

theorem WellPlaced.perform {t : PendingTable T n} (hw : WellPlaced t) (op : Operation T) :
    WellPlaced (t.perform op) := by
  cases op with
  | event e => exact hw.next e
  | assumeEmpty => exact hw.congr rfl rfl rfl

/-- An operation makes the member that it refreshes the youngest. -/
theorem Ranked.places {age age' : T → Nat} {t t' : PendingTable T n} {op : Operation T}
    (hr : Ranked age t) (hw : WellPlaced t) (hp : Places t op t')
    (hage : ∀ v, age' v = if op.refreshes = some v then 0 else age v + 1) : Ranked age' t' := by
  have hpast : ∀ v, op.refreshes ≠ some v → age' v = age v + 1 := fun v hv => by
    rw [hage, if_neg hv]
  cases hp with
  | stays hno hs ho =>
    have hpass : Ranked age' t := hr.pass fun i v hi => hpast v fun hv =>
      absurd (hw.member i v hi) (hno v hv)
    exact hpass.congr hs ho
  | clears v i hop _ _ hs ho => exact hr.clear (fun j w _ => hpast w (by simp [hop])) hs ho
  | moves v i hop hi hs ho =>
    refine hr.touch (by rw [hage, if_pos hop]) (fun j w hji hj => hpast w fun hw' => ?_) ?_ ho
    · obtain rfl := Option.some.inj (hop.symm.trans hw')
      exact hji (hw.distinct j i v hj hi)
    · intro j
      rw [hs]
      split
      · rename_i hji
        rw [hji, hi]
      · rfl
  | fills v hop hno hs ho =>
    refine hr.touch (by rw [hage, if_pos hop]) (fun j w _ hj => hpast w fun hw' => ?_) hs ho
    obtain rfl := Option.some.inj (hop.symm.trans hw')
    exact hno ⟨j, hj⟩

omit [DecidableEq T] in
/-- A member loses its slot when it is removed, or to a new one that finds no free slot, and then
it is the oldest of all. -/
theorem Places.loses {age : T → Nat} {t t' : PendingTable T n} {op : Operation T}
    (hp : Places t op t') (hr : Ranked age t) (hw : WellPlaced t) {i : Fin n} {v : T}
    (hv : t.slot i = some v) (hlost : t'.slot i ≠ some v) :
    (t'.slot i = none ∧ op.removes = some v) ∨
      ((∀ j, (t.slot j).isSome) ∧ ∀ j w, t.slot j = some w → w ≠ v → age w < age v) := by
  cases hp with
  | stays _ hs _ =>
    rw [hs] at hlost
    exact absurd hv hlost
  | clears w k _ hremoves hk hs _ =>
    rw [hs] at hlost ⊢
    split at hlost
    · rename_i hik
      obtain rfl : w = v := Option.some.inj (hk.symm.trans (hik ▸ hv))
      exact .inl ⟨if_pos hik, hremoves⟩
    · exact absurd hv hlost
  | moves _ _ _ _ hs _ =>
    rw [hs] at hlost
    exact absurd hv hlost
  | fills w _ _ hs _ =>
    rw [hs] at hlost
    split at hlost
    · rename_i hi
      rw [hi] at hv
      exact .inr ⟨hw.full_of_nextIndex (by simp [hv]), fun j x hx hxv => hr.oldest hv hx hxv⟩
    · exact absurd hv hlost

end Steps
end ZigbeeStack.PendingTable
