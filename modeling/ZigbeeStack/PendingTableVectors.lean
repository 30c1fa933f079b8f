import ZigbeeStack.PendingTableRecency

/-! The pending table as it is stored: two vectors of positions into each other, where a position
may lie outside and a table may be empty. From any start it keeps to the indexed table. -/
namespace ZigbeeStack
open Runs

structure VecPendingTable (T : Type) where
  values : Finset T
  table : List (PendingTableEntry T)
  order : List Nat
  updating : Option (UniqueKey × Nat)
  waker : WakerStore

namespace VecPendingTable
variable {T : Type}

def new (size : Nat) : VecPendingTable T where
  values := ∅
  table := List.replicate size .default
  order := List.range size
  updating := none
  waker := .new

def wake (self : VecPendingTable T) : VecPendingTable T := { self with waker := self.waker.wake }

def assumeEmpty (self : VecPendingTable T) : VecPendingTable T :=
  let self : VecPendingTable T := { self with
    table := self.table.map fun entry => { entry with dirty := entry.value.isSome } }
  self.wake

def promoteIndex (self : VecPendingTable T) (index : Nat) : VecPendingTable T :=
  { self with order := self.order.filter (· ≠ index) ++ [index] }

def demoteIndex (self : VecPendingTable T) (index : Nat) : VecPendingTable T :=
  { self with order := index :: self.order.filter (· ≠ index) }

def setEntry (self : VecPendingTable T) (index : Nat) (entry : PendingTableEntry T) :
    Except Panic (VecPendingTable T) :=
  if index < self.table.length then
    .ok { self with
      table := self.table.set index entry
      waker := if self.updating.isNone then self.waker.wake else self.waker }
  else .error .bounds

def setDirty (self : VecPendingTable T) (index : Nat) (dirty : Bool) :
    Except Panic (VecPendingTable T) :=
  match self.table[index]? with
  | some entry => .ok { self with table := self.table.set index { entry with dirty := dirty } }
  | none => .error .bounds

def reportUpdateResult (self : VecPendingTable T) (token : UniqueKey) (result : Bool) :
    Except Panic (VecPendingTable T) :=
  match self.updating with
  | some (currentToken, index) =>
    if token = currentToken then do
      let self := { self with updating := none }
      let self ← if result then .ok self else self.setDirty index true
      return self.wake
    else .ok self
  | none => .ok self

/- The update is a key, a position and what the slot holds. -/
def pollUpdate (self : VecPendingTable T) (cx : Waker) (key : UniqueKey) :
    Except Panic (Poll (UniqueKey × Nat × Option T) × VecPendingTable T) :=
  match self.updating, self.table.findIdx? (·.dirty) with
  | none, some index => do
    let self ← self.setDirty index false
    let value := self.table[index]?.bind (·.value)
    return (.ready (key, index, value), { self with updating := some (key, index) })
  | _, _ => .ok (.pending, { self with waker := self.waker.register cx })

variable [DecidableEq T]

def getIndex (self : VecPendingTable T) (value : T) : Option Nat :=
  self.table.findIdx? fun entry => entry.value = some value

def promote (self : VecPendingTable T) (value : T) : Except Panic (Bool × VecPendingTable T) :=
  if value ∈ self.values then
    match self.getIndex value with
    | some currentIndex => .ok (true, self.promoteIndex currentIndex)
    | none =>
      match self.order.head? with
      | some nextIndex => do
        let self ← self.setEntry nextIndex (.new value)
        return (true, self.promoteIndex nextIndex)
      | none => .error .unwrap
  else .ok (false, self)

def insert (self : VecPendingTable T) (value : T) : Except Panic (Bool × VecPendingTable T) := do
  let inserted := value ∉ self.values
  let (_, self) ← { self with values := Insert.insert value self.values }.promote value
  return (inserted, self)

def remove (self : VecPendingTable T) (value : T) : Except Panic (Bool × VecPendingTable T) :=
  if value ∈ self.values then
    let self := { self with values := self.values.erase value }
    match self.getIndex value with
    | some index => do
      let self ← self.setEntry index .default
      return (true, self.demoteIndex index)
    | none => .ok (true, self)
  else .ok (false, self)

def set (self : VecPendingTable T) (value : T) (inserted : Bool) :
    Except Panic (VecPendingTable T) :=
  if inserted then (self.insert value).map Prod.snd else (self.remove value).map Prod.snd

def perform (self : VecPendingTable T) : PendingTable.Operation T → Except Panic (VecPendingTable T)
  | .event (.insert value) => (self.insert value).map Prod.snd
  | .event (.remove value) => (self.remove value).map Prod.snd
  | .event (.set value inserted) => self.set value inserted
  | .event (.promote value) => (self.promote value).map Prod.snd
  | .event (.pollUpdate cx key) => (self.pollUpdate cx key).map Prod.snd
  | .event (.reportUpdateResult token result) => self.reportUpdateResult token result
  | .assumeEmpty => .ok self.assumeEmpty

end VecPendingTable

section Vectors
variable {n : Nat} {α : Type}

theorem set_ofFn (f : Fin n → α) (i : Fin n) (a : α) :
    (List.ofFn f).set i a = List.ofFn (Function.update f i a) := by
  apply List.ext_getElem (by simp)
  intro j hj _
  have hj : j < n := by simpa using hj
  by_cases hij : i.val = j
  · obtain rfl : i = ⟨j, hj⟩ := Fin.ext hij
    simp
  · have hne : (⟨j, hj⟩ : Fin n) ≠ i := fun h => hij (congrArg Fin.val h).symm
    simp [hij, hne]

theorem findIdx?_ofFn (f : Fin n → α) (p : α → Bool) :
    (List.ofFn f).findIdx? p = ((List.finRange n).find? fun i => p (f i)).map Fin.val := by
  induction n with
  | zero => rfl
  | succ n ih =>
    rw [List.ofFn_succ, List.findIdx?_cons, List.finRange_succ, List.find?_cons]
    cases p (f 0) with
    | true => rfl
    | false =>
      rw [ih, List.find?_map, Option.map_map, Option.map_map]
      rfl

theorem filter_map_val (order : List (Fin n)) (i : Fin n) :
    (order.map Fin.val).filter (· ≠ i.val) = (order.filter (· ≠ i)).map Fin.val := by
  rw [List.filter_map]
  refine congrArg (List.map Fin.val) (List.filter_congr fun j _ => ?_)
  simp [Fin.ext_iff]

end Vectors

namespace PendingTable
variable {T : Type} {n : Nat}

def vectors (t : PendingTable T n) : VecPendingTable T where
  values := t.values
  table := List.ofFn t.table
  order := t.order.map Fin.val
  updating := t.updating.map fun (key, index) => (key, index.val)
  waker := t.waker

theorem vectors_new : (new n : PendingTable T n).vectors = .new n := by
  simp only [vectors, new, VecPendingTable.new, List.ofFn_const, List.map_coe_finRange_eq_range]
  rfl

theorem vectors_table_getElem? (t : PendingTable T n) (i : Fin n) :
    t.vectors.table[i.val]? = some (t.table i) := by
  simp [vectors]

theorem vectors_promoteIndex (t : PendingTable T n) (i : Fin n) :
    t.vectors.promoteIndex i.val = (t.promoteIndex i).vectors := by
  simp only [VecPendingTable.promoteIndex, vectors, promoteIndex, filter_map_val, List.map_append]
  rfl

theorem vectors_demoteIndex (t : PendingTable T n) (i : Fin n) :
    t.vectors.demoteIndex i.val = (t.demoteIndex i).vectors := by
  simp only [VecPendingTable.demoteIndex, vectors, demoteIndex, filter_map_val, List.map_cons]

theorem vectors_setEntry (t : PendingTable T n) (i : Fin n) (e : PendingTableEntry T) :
    t.vectors.setEntry i.val e = .ok (t.setEntry i e).vectors := by
  have hlen : i.val < t.vectors.table.length := by simp [vectors]
  rw [VecPendingTable.setEntry, if_pos hlen]
  simp only [vectors, setEntry, set_ofFn, Option.isNone_map]

def setDirty (t : PendingTable T n) (i : Fin n) (dirty : Bool) : PendingTable T n :=
  { t with table := Function.update t.table i { t.table i with dirty := dirty } }

theorem vectors_setDirty (t : PendingTable T n) (i : Fin n) (dirty : Bool) :
    t.vectors.setDirty i.val dirty = .ok (t.setDirty i dirty).vectors := by
  rw [VecPendingTable.setDirty, vectors_table_getElem?]
  simp only [vectors, setDirty, set_ofFn]

theorem vectors_reportUpdateResult (t : PendingTable T n) (token : UniqueKey) (result : Bool) :
    t.vectors.reportUpdateResult token result =
      .ok (t.reportUpdateResult token result).vectors := by
  unfold VecPendingTable.reportUpdateResult reportUpdateResult
  cases hup : t.updating with
  | none =>
    have hvec : t.vectors.updating = none := by simp [vectors, hup]
    simp only [hvec]
  | some u =>
    obtain ⟨currentToken, i⟩ := u
    have hvec : t.vectors.updating = some (currentToken, i.val) := by simp [vectors, hup]
    simp only [hvec]
    by_cases htoken : token = currentToken
    · rw [if_pos htoken, if_pos htoken]
      cases result with
      | true => rfl
      | false =>
        have hdirty := vectors_setDirty { t with updating := none } i true
        have hnone : ({ t with updating := none } : PendingTable T n).vectors =
            { t.vectors with updating := none } := rfl
        rw [hnone] at hdirty
        simp only [Bool.false_eq_true, if_false, hdirty]
        rfl
    · rw [if_neg htoken, if_neg htoken]

theorem vectors_pollUpdate (t : PendingTable T n) (cx : Waker) (key : UniqueKey) :
    (t.vectors.pollUpdate cx key).map Prod.snd = .ok (t.pollUpdate cx key).2.vectors := by
  have hdirty : t.vectors.table.findIdx? (·.dirty) = t.firstDirty.map Fin.val :=
    findIdx?_ofFn t.table _
  unfold VecPendingTable.pollUpdate pollUpdate
  rw [hdirty]
  cases hup : t.updating with
  | some u =>
    have hvec : t.vectors.updating = some (u.1, u.2.val) := by simp [vectors, hup]
    simp only [hvec]
    simp [vectors, hup, Except.map]
  | none =>
    have hvec : t.vectors.updating = none := by simp [vectors, hup]
    simp only [hvec]
    cases t.firstDirty with
    | none => simp [vectors, hup, Except.map]
    | some i =>
      simp only [Option.map_some, vectors_setDirty]
      rfl

variable [DecidableEq T]

theorem vectors_getIndex (t : PendingTable T n) (v : T) :
    t.vectors.getIndex v = (t.getIndex v).map Fin.val :=
  findIdx?_ofFn t.table _

variable [NeZero n]

omit [DecidableEq T] in
theorem vectors_head? (t : PendingTable T n) : t.vectors.order.head? = some t.nextIndex.val := by
  simp [vectors, nextIndex, List.head?_eq_some_head t.order_ne_nil]

theorem vectors_promote (t : PendingTable T n) (v : T) :
    t.vectors.promote v = .ok ((t.promote v).1, (t.promote v).2.vectors) := by
  have hvalues : t.vectors.values = t.values := rfl
  unfold VecPendingTable.promote promote
  rw [vectors_getIndex, vectors_head?, hvalues]
  by_cases hv : v ∈ t.values
  · rw [if_pos hv, if_pos hv]
    cases t.getIndex v with
    | some i => simp only [Option.map_some, vectors_promoteIndex]
    | none =>
      simp only [Option.map_none, vectors_setEntry]
      exact congrArg (fun s => Except.ok (true, s)) (vectors_promoteIndex _ _)
  · rw [if_neg hv, if_neg hv]

theorem vectors_insert (t : PendingTable T n) (v : T) :
    t.vectors.insert v = .ok ((t.insert v).1, (t.insert v).2.vectors) := by
  have hgrown : ({ t with values := Insert.insert v t.values } : PendingTable T n).vectors =
      { t.vectors with values := Insert.insert v t.vectors.values } := rfl
  unfold VecPendingTable.insert
  rw [← hgrown, vectors_promote]
  rfl

omit [NeZero n] in
theorem vectors_remove (t : PendingTable T n) (v : T) :
    t.vectors.remove v = .ok ((t.remove v).1, (t.remove v).2.vectors) := by
  have hvalues : t.vectors.values = t.values := rfl
  have hshrunk : ({ t with values := t.values.erase v } : PendingTable T n).vectors =
      { t.vectors with values := t.vectors.values.erase v } := rfl
  unfold VecPendingTable.remove remove
  dsimp only
  rw [← hshrunk, vectors_getIndex, hvalues]
  by_cases hv : v ∈ t.values
  · rw [if_pos hv, if_pos hv]
    cases ({ t with values := t.values.erase v } : PendingTable T n).getIndex v with
    | some i =>
      simp only [Option.map_some, vectors_setEntry]
      exact congrArg (fun s => Except.ok (true, s)) (vectors_demoteIndex _ _)
    | none => rfl
  · rw [if_neg hv, if_neg hv]

/-- No operation on the vectors goes wrong, and each does what it does on the indexed table. -/
theorem vectors_perform (t : PendingTable T n) (op : Operation T) :
    t.vectors.perform op = .ok (t.perform op).vectors := by
  cases op with
  | assumeEmpty =>
    simp only [VecPendingTable.perform, VecPendingTable.assumeEmpty, vectors, List.map_ofFn]
    rfl
  | event e =>
    cases e with
    | insert value => exact congrArg (Except.map Prod.snd) (t.vectors_insert value)
    | remove value => exact congrArg (Except.map Prod.snd) (t.vectors_remove value)
    | set value inserted =>
      cases inserted with
      | false => exact congrArg (Except.map Prod.snd) (t.vectors_remove value)
      | true => exact congrArg (Except.map Prod.snd) (t.vectors_insert value)
    | promote value => exact congrArg (Except.map Prod.snd) (t.vectors_promote value)
    | pollUpdate cx key => exact t.vectors_pollUpdate cx key
    | reportUpdateResult token result => exact t.vectors_reportUpdateResult token result

end PendingTable

namespace VecPendingTable
open PendingTable
variable {T : Type} {n : Nat}

def slot (self : VecPendingTable T) (i : Nat) : Option T := self.table[i]?.bind (·.value)

theorem slot_vectors (t : PendingTable T n) (i : Fin n) : t.vectors.slot i.val = t.slot i := by
  rw [slot, vectors_table_getElem?]
  rfl

theorem slot_vectors_some {t : PendingTable T n} {i : Nat} {v : T}
    (h : t.vectors.slot i = some v) : ∃ j : Fin n, j.val = i ∧ t.slot j = some v := by
  by_cases hi : i < n
  · exact ⟨⟨i, hi⟩, rfl, (slot_vectors t ⟨i, hi⟩).symm.trans h⟩
  · have hnone : t.vectors.table[i]? = none := List.getElem?_eq_none (by simpa [vectors] using hi)
    simp [slot, hnone] at h

variable [DecidableEq T]

/-- An operation that panics cannot happen. -/
def step (self : VecPendingTable T) (op : Operation T) : Option (VecPendingTable T × Unit) :=
  match self.perform op with
  | .ok self => some (self, ())
  | .error _ => none

omit [DecidableEq T] in
def AnyOrder (_ : History (VecPendingTable T) (Operation T) Unit) (_ : VecPendingTable T)
    (_ : Operation T) : Prop := True

def age (h : History (VecPendingTable T) (Operation T) Unit) (v : T) : Nat :=
  h.findIdx fun u => u.event.refreshes = some v

structure KeepsRecent (n : Nat) (h : History (VecPendingTable T) (Operation T) Unit)
    (t : VecPendingTable T) : Prop where
  no_panic : ∀ op, ∃ t', t.perform op = .ok t'
  size : t.table.length = n
  order_perm : t.order.Perm (List.range n)
  member : ∀ i v, t.slot i = some v → v ∈ t.values
  distinct : ∀ i j v, t.slot i = some v → t.slot j = some v → i = j
  free_first : t.order.Pairwise fun i j => (t.slot i).isSome → (t.slot j).isSome
  oldest_first : t.order.Pairwise fun i j => ∀ v w, t.slot i = some v → t.slot j = some w →
    age h w < age h v

/-- Whoever loses a slot was removed, or was the oldest member in a full table. -/
def EvictsOldest (n : Nat) (h : History (VecPendingTable T) (Operation T) Unit) : Prop :=
  ∀ later u past, h = later ++ u :: past → ∀ i v, u.before.slot i = some v →
    u.after.slot i ≠ some v →
    (u.after.slot i = none ∧ u.event.removes = some v) ∨
      ((∀ j < n, (u.before.slot j).isSome) ∧
        ∀ j w, u.before.slot j = some w → w ≠ v → age past w < age past v)

theorem age_cons (u : Transition (VecPendingTable T) (Operation T) Unit)
    (h : History (VecPendingTable T) (Operation T) Unit) (v : T) :
    age (u :: h) v = if u.event.refreshes = some v then 0 else age h v + 1 := by
  unfold age
  rw [List.findIdx_cons]
  by_cases hv : u.event.refreshes = some v <;> simp [hv]

variable [NeZero n]

theorem step_vectors (t : PendingTable T n) (op : Operation T) :
    t.vectors.step op = some ((t.perform op).vectors, ()) := by
  rw [step, vectors_perform]

/-- The vectors always hold an indexed table whose order tells the ages. -/
theorem represents_of_run {h : History (VecPendingTable T) (Operation T) Unit}
    {t : VecPendingTable T} (hr : Run step AnyOrder (new n) h t) :
    ∃ t' : PendingTable T n, t = t'.vectors ∧ WellPlaced t' ∧ Ranked (age h) t' := by
  refine hr.invariant (P := fun h t => ∃ t' : PendingTable T n, t = t'.vectors ∧ WellPlaced t' ∧
    Ranked (age h) t') ⟨.new n, vectors_new.symm, wellPlaced_new, ?_⟩ ?_
  · exact List.pairwise_of_forall fun _ _ v _ hv => by cases hv
  · rintro h _ op _ o - ⟨t, rfl, hw, hranked⟩ - hs
    rw [step_vectors] at hs
    obtain ⟨rfl, -⟩ := Prod.mk.inj (Option.some.inj hs)
    exact ⟨t.perform op, rfl, hw.perform op,
      hranked.places hw (t.perform_places op) (age_cons _ h)⟩

theorem keepsRecent_vectors {h : History (VecPendingTable T) (Operation T) Unit}
    {t : PendingTable T n} (hw : WellPlaced t) (hr : Ranked (age h) t) :
    KeepsRecent n h t.vectors where
  no_panic op := ⟨_, vectors_perform t op⟩
  size := by simp [vectors]
  order_perm := by
    rw [← List.map_coe_finRange_eq_range]
    exact t.order_perm.map Fin.val
  member i v hi := by
    obtain ⟨i, rfl, hslot⟩ := slot_vectors_some hi
    exact hw.member i v hslot
  distinct i j v hi hj := by
    obtain ⟨i, rfl, hslot⟩ := slot_vectors_some hi
    obtain ⟨j, rfl, hslot'⟩ := slot_vectors_some hj
    rw [hw.distinct i j v hslot hslot']
  free_first := by
    refine List.pairwise_map.mpr (hw.free_first.imp fun {i j} hij => ?_)
    rw [slot_vectors, slot_vectors]
    exact hij
  oldest_first := by
    refine List.pairwise_map.mpr (List.Pairwise.imp (fun {i j} hij => ?_) hr)
    rw [slot_vectors, slot_vectors]
    exact hij

theorem evictsOldest_of_run {h : History (VecPendingTable T) (Operation T) Unit}
    {t : VecPendingTable T} (hr : Run step AnyOrder (new n) h t) : EvictsOldest n h := by
  rintro later u past rfl i v hv hlost
  obtain ⟨hpast, -, hs⟩ := hr.cut
  obtain ⟨t, hbefore, hw, hranked⟩ := represents_of_run hpast
  rw [hbefore] at hv hs ⊢
  rw [step_vectors] at hs
  have hafter : (t.perform u.event).vectors = u.after := congrArg Prod.fst (Option.some.inj hs)
  obtain ⟨i, rfl, hi⟩ := slot_vectors_some hv
  rw [← hafter, slot_vectors] at hlost ⊢
  rcases (t.perform_places u.event).loses hranked hw hi hlost with hremoved | ⟨hfull, hold⟩
  · exact .inl hremoved
  · refine .inr ⟨fun j hj => ?_, fun j w hj hwv => ?_⟩
    · rw [show j = (⟨j, hj⟩ : Fin n).val from rfl, slot_vectors]
      exact hfull ⟨j, hj⟩
    · obtain ⟨j, -, hj⟩ := slot_vectors_some hj
      exact hold j w hj hwv

omit [NeZero n] in
/-- A table of any size keeps its most recent members, through any operations in any order. -/
theorem keeps_most_recent (hn : 1 ≤ n) {h : History (VecPendingTable T) (Operation T) Unit}
    {t : VecPendingTable T} (hr : Run step AnyOrder (new n) h t) :
    KeepsRecent n h t ∧ EvictsOldest n h := by
  have : NeZero n := ⟨by omega⟩
  obtain ⟨t, rfl, hw, hranked⟩ := represents_of_run hr
  exact ⟨keepsRecent_vectors hw hranked, evictsOldest_of_run hr⟩

omit [DecidableEq T] in
instance (h : History (VecPendingTable T) (Operation T) Unit) (t : VecPendingTable T)
    (op : Operation T) : Decidable (AnyOrder h t op) := .isTrue trivial

/- Two slots for three members: the one that was promoted stays. -/
def crowded : History (VecPendingTable Nat) (Operation Nat) Unit × VecPendingTable Nat :=
  replay step AnyOrder (new 2)
    [.event (.insert 4), .event (.insert 5), .event (.promote 4), .assumeEmpty, .event (.insert 6)]

theorem keeps_most_recent_crowded :
    KeepsRecent 2 crowded.1 crowded.2 ∧ EvictsOldest 2 crowded.1 :=
  keeps_most_recent (by decide) (run_replay _)

end VecPendingTable
end ZigbeeStack
