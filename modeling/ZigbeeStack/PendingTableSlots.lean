import ZigbeeStack.PendingTable
import ZigbeeStack.Runs
import Mathlib.Data.Fintype.Card

/-! Which members of a pending table have a slot, over every sequence of its operations. -/
namespace ZigbeeStack.PendingTable
open Runs
variable {T : Type} {n : Nat}

def slot (t : PendingTable T n) (i : Fin n) : Option T := (t.table i).value

def HasSlot (t : PendingTable T n) (v : T) : Prop := ∃ i, t.slot i = some v

theorem slot_setEntry (t : PendingTable T n) (i j : Fin n) (e : PendingTableEntry T) :
    (t.setEntry i e).slot j = if j = i then e.value else t.slot j := by
  simp only [slot, setEntry, Function.update_apply]
  split <;> rfl

section Index
variable [DecidableEq T]

theorem getIndex_some {t : PendingTable T n} {v : T} {i : Fin n} (h : t.getIndex v = some i) :
    t.slot i = some v := by
  simpa [slot] using List.find?_some h

theorem getIndex_none {t : PendingTable T n} {v : T} (h : t.getIndex v = none) :
    ¬ t.HasSlot v := by
  rintro ⟨i, hi⟩
  have := List.find?_eq_none.mp h i (List.mem_finRange i)
  simp only [decide_eq_true_eq] at this
  exact this hi

theorem getIndex_isSome_iff {t : PendingTable T n} {v : T} :
    (t.getIndex v).isSome ↔ t.HasSlot v := by
  constructor
  · intro h
    obtain ⟨i, hi⟩ := Option.isSome_iff_exists.mp h
    exact ⟨i, getIndex_some hi⟩
  · intro h
    cases hi : t.getIndex v with
    | some i => rfl
    | none => exact absurd h (getIndex_none hi)

end Index

structure WellPlaced (t : PendingTable T n) : Prop where
  member : ∀ i v, t.slot i = some v → v ∈ t.values
  distinct : ∀ i j v, t.slot i = some v → t.slot j = some v → i = j
  free_first : t.order.Pairwise fun i j => (t.slot i).isSome → (t.slot j).isSome

theorem wellPlaced_new : WellPlaced (new n : PendingTable T n) where
  member := by simp [slot, new, PendingTableEntry.default]
  distinct := by simp [slot, new, PendingTableEntry.default]
  free_first := List.pairwise_of_forall fun _ _ h => by cases h

/-- Two tables place alike when they have the same members, slots and order; the other fields are
about the radio. -/
theorem WellPlaced.congr {t t' : PendingTable T n} (hw : WellPlaced t)
    (hv : t'.values = t.values) (hs : t'.slot = t.slot) (ho : t'.order = t.order) :
    WellPlaced t' := by
  constructor
  · rw [hv, hs]
    exact hw.member
  · rw [hs]
    exact hw.distinct
  · rw [ho, hs]
    exact hw.free_first

theorem WellPlaced.promoteIndex {t : PendingTable T n} (hw : WellPlaced t) {i : Fin n}
    (hi : (t.slot i).isSome) : WellPlaced (t.promoteIndex i) where
  member := hw.member
  distinct := hw.distinct
  free_first := by
    refine List.pairwise_append.mpr ⟨hw.free_first.filter _, List.pairwise_singleton _ _, ?_⟩
    rintro j - k hk -
    obtain rfl := List.mem_singleton.mp hk
    exact hi

/-- When no slot is free, there are at least as many members as slots. -/
theorem WellPlaced.card_of_full {t : PendingTable T n} (hw : WellPlaced t)
    (hfull : ∀ i, (t.slot i).isSome) : n ≤ t.values.card := by
  choose f hf using fun i => Option.isSome_iff_exists.mp (hfull i)
  have hinj : Function.Injective f := fun i j hij => hw.distinct i j (f i) (hf i) (hij ▸ hf j)
  calc
    n = (Finset.univ : Finset (Fin n)).card := by simp
    _ ≤ t.values.card := Finset.card_le_card_of_injOn f (fun i _ => hw.member i (f i) (hf i))
      hinj.injOn

/-- If the slot that is overwritten next is taken, all are. -/
theorem WellPlaced.full_of_nextIndex [NeZero n] {t : PendingTable T n} (hw : WellPlaced t)
    (hsome : (t.slot t.nextIndex).isSome) (i : Fin n) : (t.slot i).isSome := by
  have hsplit : t.order = t.nextIndex :: t.order.tail := (List.cons_head_tail t.order_ne_nil).symm
  have hfirst := hw.free_first
  have hi := t.mem_order i
  rw [hsplit] at hfirst hi
  rcases List.mem_cons.mp hi with rfl | hi
  · exact hsome
  · exact (List.pairwise_cons.mp hfirst).1 i hi hsome

/-- While a slot is free, the slot that is overwritten next is free. -/
theorem WellPlaced.nextIndex_free [NeZero n] {t : PendingTable T n} (hw : WellPlaced t)
    (hcard : t.values.card < n) : t.slot t.nextIndex = none := by
  by_contra hne
  have hsome : (t.slot t.nextIndex).isSome := Option.isSome_iff_ne_none.mpr hne
  exact absurd (hw.card_of_full (hw.full_of_nextIndex hsome)) (by omega)

/-- What holds between the slots in their order still holds between all but one of them when that
one is written. -/
theorem pairwise_others {slot slot' : Fin n → Option T} {order : List (Fin n)} {i : Fin n}
    {R : Option T → Option T → Prop} (h : order.Pairwise fun j k => R (slot j) (slot k))
    (hslot : ∀ j, j ≠ i → slot' j = slot j) :
    (order.filter (· ≠ i)).Pairwise fun j k => R (slot' j) (slot' k) := by
  refine (h.filter _).imp_of_mem fun {j k} hj hk hjk => ?_
  have hji : j ≠ i := by simpa using List.of_mem_filter hj
  have hki : k ≠ i := by simpa using List.of_mem_filter hk
  rw [hslot j hji, hslot k hki]
  exact hjk

/-- Giving a free slot, or an evicted one, to a member that had none. -/
theorem WellPlaced.place {t : PendingTable T n} (hw : WellPlaced t) {v : T} (hv : v ∈ t.values)
    (hno : ¬ t.HasSlot v) (i : Fin n) :
    WellPlaced ((t.setEntry i (.new v)).promoteIndex i) := by
  have hslot : ∀ j, ((t.setEntry i (.new v)).promoteIndex i).slot j =
      if j = i then some v else t.slot j := fun j => t.slot_setEntry i j (.new v)
  have hother : ∀ j, t.slot j ≠ some v := fun j hj => hno ⟨j, hj⟩
  refine ⟨fun j w hj => ?_, fun j k w hj hk => ?_, ?_⟩
  · rw [hslot] at hj
    split at hj
    · cases hj
      exact hv
    · exact hw.member j w hj
  · rw [hslot] at hj hk
    split at hj <;> split at hk
    · simp [*]
    · cases hj
      exact absurd hk (hother k)
    · cases hk
      exact absurd hj (hother j)
    · exact hw.distinct j k w hj hk
  · refine List.pairwise_append.mpr ⟨?_, List.pairwise_singleton _ _, ?_⟩
    · exact pairwise_others (R := fun a b => a.isSome → b.isSome) hw.free_first
        fun j hji => (hslot j).trans (if_neg hji)
    · rintro j - k hk -
      obtain rfl := List.mem_singleton.mp hk
      rw [hslot, if_pos rfl]
      rfl

/-- Clearing the slot of a value that is no member any more. -/
theorem WellPlaced.clear {t : PendingTable T n} {v : T} {i : Fin n}
    (hmember : ∀ j w, t.slot j = some w → w = v ∨ w ∈ t.values)
    (hdistinct : ∀ j k w, t.slot j = some w → t.slot k = some w → j = k)
    (hfirst : t.order.Pairwise fun j k => (t.slot j).isSome → (t.slot k).isSome)
    (hi : t.slot i = some v) : WellPlaced ((t.setEntry i .default).demoteIndex i) := by
  have hslot : ∀ j, ((t.setEntry i .default).demoteIndex i).slot j =
      if j = i then none else t.slot j := fun j => t.slot_setEntry i j .default
  refine ⟨fun j w hj => ?_, fun j k w hj hk => ?_, ?_⟩
  · rw [hslot] at hj
    split at hj
    · cases hj
    · rename_i hji
      refine (hmember j w hj).resolve_left ?_
      rintro rfl
      exact hji (hdistinct j i w hj hi)
  · rw [hslot] at hj hk
    split at hj
    · cases hj
    · split at hk
      · cases hk
      · exact hdistinct j k w hj hk
  · refine List.pairwise_cons.mpr ⟨fun j _ hsome => ?_, ?_⟩
    · rw [hslot, if_pos rfl] at hsome
      cases hsome
    · exact pairwise_others (R := fun a b => a.isSome → b.isSome) hfirst
        fun j hji => (hslot j).trans (if_neg hji)

section Operations
variable [DecidableEq T]

inductive Removed (t : PendingTable T n) (v : T) : PendingTable T n → Prop where
  | absent : v ∉ t.values → Removed t v t
  | cleared {i} : v ∈ t.values → t.slot i = some v → Removed t v
      (({ t with values := t.values.erase v }.setEntry i .default).demoteIndex i)
  | unplaced : v ∈ t.values → ¬ t.HasSlot v → Removed t v { t with values := t.values.erase v }

theorem removed (t : PendingTable T n) (v : T) : Removed t v (t.remove v).2 := by
  unfold remove
  split
  · rename_i hv
    dsimp only
    split
    · rename_i i hi
      exact .cleared hv (getIndex_some hi)
    · rename_i hi
      exact .unplaced hv (getIndex_none hi)
  · rename_i hv
    exact .absent hv

theorem Removed.values {t t' : PendingTable T n} {v : T} (h : Removed t v t') :
    t'.values = t.values.erase v := by
  cases h with
  | absent hv => exact (Finset.erase_eq_of_notMem hv).symm
  | cleared _ _ => rfl
  | unplaced _ _ => rfl

theorem WellPlaced.remove {t : PendingTable T n} (hw : WellPlaced t) (v : T) :
    WellPlaced (t.remove v).2 := by
  have hp := t.removed v
  generalize (t.remove v).2 = t' at hp ⊢
  cases hp with
  | absent _ => exact hw
  | cleared _ hi =>
    refine .clear (fun j w hj => ?_) hw.distinct hw.free_first hi
    by_cases hwv : w = v
    · exact .inl hwv
    · exact .inr (Finset.mem_erase.mpr ⟨hwv, hw.member j w hj⟩)
  | unplaced _ hno =>
    refine ⟨fun i w hi => ?_, hw.distinct, hw.free_first⟩
    refine Finset.mem_erase.mpr ⟨?_, hw.member i w hi⟩
    rintro rfl
    exact hno ⟨i, hi⟩

/-- More members, the same slots. -/
theorem WellPlaced.grow {t : PendingTable T n} (hw : WellPlaced t) (v : T) :
    WellPlaced { t with values := Insert.insert v t.values } where
  member i w hi := Finset.mem_insert_of_mem (hw.member i w hi)
  distinct := hw.distinct
  free_first := hw.free_first

variable [NeZero n]

inductive Promoted (t : PendingTable T n) (v : T) : PendingTable T n → Prop where
  | absent : v ∉ t.values → Promoted t v t
  | moved {i} : v ∈ t.values → t.slot i = some v → Promoted t v (t.promoteIndex i)
  | placed : v ∈ t.values → ¬ t.HasSlot v →
      Promoted t v ((t.setEntry t.nextIndex (.new v)).promoteIndex t.nextIndex)

theorem promoted (t : PendingTable T n) (v : T) : Promoted t v (t.promote v).2 := by
  unfold promote
  split
  · rename_i hv
    split
    · rename_i i hi
      exact .moved hv (getIndex_some hi)
    · rename_i hi
      exact .placed hv (getIndex_none hi)
  · rename_i hv
    exact .absent hv

theorem WellPlaced.promote {t : PendingTable T n} (hw : WellPlaced t) (v : T) :
    WellPlaced (t.promote v).2 := by
  have hp := t.promoted v
  generalize (t.promote v).2 = t' at hp ⊢
  cases hp with
  | absent _ => exact hw
  | moved _ hi => exact hw.promoteIndex (by simp [hi])
  | placed hv hno => exact hw.place hv hno t.nextIndex

theorem WellPlaced.insert {t : PendingTable T n} (hw : WellPlaced t) (v : T) :
    WellPlaced (t.insert v).2 := (hw.grow v).promote v

theorem set_values (t : PendingTable T n) (v : T) (inserted : Bool) :
    (t.set v inserted).values =
      if inserted then Insert.insert v t.values else t.values.erase v := by
  cases inserted with
  | false => exact (t.removed v).values
  | true =>
    have hp := { t with values := Insert.insert v t.values }.promoted v
    have hset : t.set v true = ({ t with values := Insert.insert v t.values }.promote v).2 := rfl
    rw [hset]
    generalize ({ t with values := Insert.insert v t.values }.promote v).2 = t' at hp
    cases hp <;> rfl

def AllPlaced (t : PendingTable T n) : Prop :=
  t.values.card ≤ n → ∀ v ∈ t.values, t.HasSlot v

theorem AllPlaced.promote {t : PendingTable T n} (ha : AllPlaced t) (v : T) :
    AllPlaced (t.promote v).2 := by
  have hp := t.promoted v
  generalize (t.promote v).2 = t' at hp ⊢
  cases hp with
  | absent _ => exact ha
  | moved _ _ => exact ha
  | placed hv hno => exact fun hcard => absurd (ha hcard v hv) hno

theorem AllPlaced.insert {t : PendingTable T n} (ha : AllPlaced t) (hw : WellPlaced t) (v : T) :
    AllPlaced (t.insert v).2 := by
  by_cases hv : v ∈ t.values
  · have hsame : { t with values := Insert.insert v t.values } = t := by
      rw [Finset.insert_eq_of_mem hv]
    unfold PendingTable.insert
    rw [hsame]
    exact ha.promote v
  · -- a new member goes to a free slot, and nobody else loses theirs
    have hp := { t with values := Insert.insert v t.values }.promoted v
    have hdef : (t.insert v).2 = ({ t with values := Insert.insert v t.values }.promote v).2 := rfl
    rw [hdef]
    generalize ({ t with values := Insert.insert v t.values }.promote v).2 = t' at hp ⊢
    cases hp with
    | absent hno => exact absurd (Finset.mem_insert_self v t.values) hno
    | moved _ hi => exact absurd (hw.member _ v hi) hv
    | placed _ _ =>
      intro hcard w hmem
      have hroom : t.values.card < n := by
        have hinsert : (Insert.insert v t.values).card = t.values.card + 1 :=
          Finset.card_insert_of_notMem hv
        have hcard : (Insert.insert v t.values).card ≤ n := hcard
        omega
      have hfree := hw.nextIndex_free hroom
      rcases Finset.mem_insert.mp hmem with rfl | hmem
      · exact ⟨t.nextIndex, by simp [slot, setEntry, nextIndex, PendingTable.promoteIndex,
          PendingTableEntry.new]⟩
      · obtain ⟨j, hj⟩ := ha hroom.le w hmem
        refine ⟨j, ?_⟩
        have hji : j ≠ t.nextIndex := by
          rintro rfl
          simp [hfree] at hj
        exact (slot_setEntry _ _ _ _).trans ((if_neg hji).trans hj)

omit [NeZero n] in
theorem Removed.hasSlot_iff {t t' : PendingTable T n} {v w : T} (h : Removed t v t')
    (hwv : w ≠ v) : t'.HasSlot w ↔ t.HasSlot w := by
  cases h with
  | absent _ => rfl
  | unplaced _ _ => rfl
  | @cleared i _ hi =>
    refine exists_congr fun j => ?_
    have hslot := ({ t with values := t.values.erase v }).slot_setEntry i j .default
    by_cases hji : j = i
    · subst hji
      rw [if_pos rfl] at hslot
      constructor
      · intro hj
        cases hslot.symm.trans hj
      · intro hj
        exact absurd (Option.some.inj (hj.symm.trans hi)) hwv
    · rw [if_neg hji] at hslot
      exact Eq.congr_left hslot

/-- Taking `v` out of a set that is one too large for the slots leaves no member without one. -/
def TakesOverflow (t : PendingTable T n) (v : T) : Prop :=
  v ∈ t.values → t.values.card = n + 1 → ∀ w ∈ t.values, w ≠ v → (t.getIndex w).isSome

omit [NeZero n] in
theorem AllPlaced.remove_iff {t : PendingTable T n} (ha : AllPlaced t) (v : T) :
    AllPlaced (t.remove v).2 ↔ TakesOverflow t v := by
  have hp := t.removed v
  generalize (t.remove v).2 = t' at hp ⊢
  by_cases hv : v ∈ t.values
  · have hvalues := hp.values
    have hcard : t'.values.card + 1 = t.values.card := by
      rw [hvalues]
      exact Finset.card_erase_add_one hv
    constructor
    · intro hall _ hone w hw hwv
      rw [getIndex_isSome_iff, ← hp.hasSlot_iff hwv]
      exact hall (by omega) w (hvalues ▸ Finset.mem_erase.mpr ⟨hwv, hw⟩)
    · intro hover hle w hw
      rw [hvalues] at hw
      obtain ⟨hwv, hw⟩ := Finset.mem_erase.mp hw
      rw [hp.hasSlot_iff hwv]
      by_cases hroom : t.values.card ≤ n
      · exact ha hroom w hw
      · exact getIndex_isSome_iff.mp (hover hv (by omega) w hw hwv)
  · cases hp with
    | absent _ => exact ⟨fun _ hmem => absurd hmem hv, fun _ => ha⟩
    | cleared hmem _ => exact absurd hmem hv
    | unplaced hmem _ => exact absurd hmem hv

end Operations

/-! Runs. -/

inductive Event (T : Type) where
  | insert (value : T)
  | remove (value : T)
  | set (value : T) (inserted : Bool)
  | promote (value : T)
  | pollUpdate (cx : Waker) (key : UniqueKey)
  | reportUpdateResult (token : UniqueKey) (result : Bool)

inductive Output (T : Type) (n : Nat) where
  | none
  | changed (result : Bool)
  | polled (update : Poll (PendingTableUpdate T n))

variable [DecidableEq T] [NeZero n]

def next (t : PendingTable T n) : Event T → PendingTable T n × Output T n
  | .insert value => ((t.insert value).2, .changed (t.insert value).1)
  | .remove value => ((t.remove value).2, .changed (t.remove value).1)
  | .set value inserted => (t.set value inserted, .none)
  | .promote value => ((t.promote value).2, .changed (t.promote value).1)
  | .pollUpdate cx key => ((t.pollUpdate cx key).2, .polled (t.pollUpdate cx key).1)
  | .reportUpdateResult token result => (t.reportUpdateResult token result, .none)

def step (t : PendingTable T n) (e : Event T) : Option (PendingTable T n × Output T n) :=
  some (t.next e)

def AnyOrder (_ : History (PendingTable T n) (Event T) (Output T n)) (_ : PendingTable T n)
    (_ : Event T) : Prop := True

def Event.removes : Event T → Option T
  | .remove value => some value
  | .set value false => some value
  | _ => none

omit [DecidableEq T] [NeZero n] in
theorem reportUpdateResult_placement (t : PendingTable T n) (token : UniqueKey) (result : Bool) :
    (t.reportUpdateResult token result).values = t.values ∧
      (t.reportUpdateResult token result).slot = t.slot ∧
      (t.reportUpdateResult token result).order = t.order := by
  unfold reportUpdateResult
  repeat' split
  all_goals refine ⟨rfl, funext fun j => ?_, rfl⟩
  all_goals first | rfl | skip
  simp only [slot, wake, Function.update_apply]
  split <;> simp [*]

omit [DecidableEq T] [NeZero n] in
theorem pollUpdate_placement (t : PendingTable T n) (cx : Waker) (key : UniqueKey) :
    (t.pollUpdate cx key).2.values = t.values ∧ (t.pollUpdate cx key).2.slot = t.slot ∧
      (t.pollUpdate cx key).2.order = t.order := by
  unfold pollUpdate
  split
  · refine ⟨rfl, funext fun j => ?_, rfl⟩
    simp only [slot, Function.update_apply]
    split <;> simp [*]
  · exact ⟨rfl, rfl, rfl⟩

theorem WellPlaced.next {t : PendingTable T n} (hw : WellPlaced t) (e : Event T) :
    WellPlaced (t.next e).1 := by
  cases e with
  | insert value => exact hw.insert value
  | remove value => exact hw.remove value
  | set value inserted =>
    cases inserted with
    | false => exact hw.remove value
    | true => exact hw.insert value
  | promote value => exact hw.promote value
  | pollUpdate cx key =>
    obtain ⟨hv, hs, ho⟩ := t.pollUpdate_placement cx key
    exact hw.congr hv hs ho
  | reportUpdateResult token result =>
    obtain ⟨hv, hs, ho⟩ := t.reportUpdateResult_placement token result
    exact hw.congr hv hs ho

theorem wellPlaced_of_run {h : History (PendingTable T n) (Event T) (Output T n)}
    {t : PendingTable T n} (hr : Run step AnyOrder (new n) h t) : WellPlaced t := by
  refine Run.invariant (P := fun _ t => WellPlaced t) wellPlaced_new ?_ hr
  intro h t e t' o _ hw _ hs
  obtain rfl : (t.next e).1 = t' := congrArg Prod.fst (Option.some.inj hs)
  exact hw.next e

omit [DecidableEq T] [NeZero n] in
theorem AllPlaced.congr {t t' : PendingTable T n} (ha : AllPlaced t)
    (hv : t'.values = t.values) (hs : t'.slot = t.slot) : AllPlaced t' := by
  unfold AllPlaced HasSlot
  rw [hv, hs]
  exact ha

/-- Only a removal can leave a member out, and only one that does not take the overflow. -/
theorem AllPlaced.next_iff {t : PendingTable T n} (hw : WellPlaced t) (ha : AllPlaced t)
    (e : Event T) :
    AllPlaced (t.next e).1 ↔ ∀ value, e.removes = some value → TakesOverflow t value := by
  cases e with
  | insert value => exact iff_of_true (ha.insert hw value) (by simp [Event.removes])
  | remove value => exact (ha.remove_iff value).trans (by simp [Event.removes])
  | set value inserted =>
    cases inserted with
    | false => exact (ha.remove_iff value).trans (by simp [Event.removes])
    | true => exact iff_of_true (ha.insert hw value) (by simp [Event.removes])
  | promote value => exact iff_of_true (ha.promote value) (by simp [Event.removes])
  | pollUpdate cx key =>
    obtain ⟨hv, hs, -⟩ := t.pollUpdate_placement cx key
    exact iff_of_true (ha.congr hv hs) (by simp [Event.removes])
  | reportUpdateResult token result =>
    obtain ⟨hv, hs, -⟩ := t.reportUpdateResult_placement token result
    exact iff_of_true (ha.congr hv hs) (by simp [Event.removes])

/-- Every state of a run places all its members, as far as there is room, exactly when every
removal from a set that is one too large takes the member without a slot. -/
theorem allPlaced_iff {h : History (PendingTable T n) (Event T) (Output T n)}
    {t : PendingTable T n} (hr : Run step AnyOrder (new n) h t) :
    ((∀ u ∈ h, AllPlaced u.before) ∧ AllPlaced t) ↔
      ∀ u ∈ h, ∀ value, u.event.removes = some value → TakesOverflow u.before value := by
  induction hr with
  | start => simp [AllPlaced, new]
  | @next h t t' e o hr _ hs ih =>
    obtain rfl : (t.next e).1 = t' := congrArg Prod.fst (Option.some.inj hs)
    have hw := wellPlaced_of_run hr
    rw [List.forall_mem_cons, List.forall_mem_cons, ← ih]
    constructor
    · rintro ⟨⟨ha, hall⟩, hnext⟩
      exact ⟨(AllPlaced.next_iff hw ha e).mp hnext, hall, ha⟩
    · rintro ⟨hover, hall, ha⟩
      exact ⟨⟨ha, hall⟩, (AllPlaced.next_iff hw ha e).mpr hover⟩

instance (h : History (PendingTable T n) (Event T) (Output T n)) (t : PendingTable T n)
    (e : Event T) : Decidable (AnyOrder h t e) := .isTrue trivial

/- Nine members for eight slots, of which the last one goes again. -/
def overflow : List (Event Nat) :=
  (List.range 9).map Event.insert ++ [.remove 8]

theorem overflow_run : Run step AnyOrder (new 8 : PendingTable Nat 8)
    (replay step AnyOrder (new 8) overflow).1 (replay step AnyOrder (new 8) overflow).2 :=
  run_replay overflow

theorem allPlaced_iff_overflow :
    ((∀ u ∈ (replay step AnyOrder (new 8) overflow).1, AllPlaced u.before) ∧
        AllPlaced (replay step AnyOrder (new 8) overflow).2) ↔
      ∀ u ∈ (replay step AnyOrder (new 8) overflow).1, ∀ value, u.event.removes = some value →
        TakesOverflow u.before value :=
  allPlaced_iff overflow_run

/-- The member that was evicted gets no slot back when one falls free. -/
theorem evicted_member_left_out : ¬ ∀ (h : History (PendingTable Nat 8) (Event Nat) (Output Nat 8))
    (t : PendingTable Nat 8), Run step AnyOrder (new 8) h t → AllPlaced t := by
  intro hall
  have hplaced := hall _ _ overflow_run (by decide) 0 (by decide)
  rw [← getIndex_isSome_iff] at hplaced
  revert hplaced
  decide

end ZigbeeStack.PendingTable
