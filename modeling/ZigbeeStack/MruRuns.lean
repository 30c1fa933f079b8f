import ZigbeeStack.MruRanking
import ZigbeeStack.Runs

/-! Runs of the set: no assertion fails in any of them, and the slots belong to the most recent
entries, unless a set of one slot has lost its newest entry and kept older ones. -/
namespace ZigbeeStack.MRUSet
open LinkedChain Runs
variable {T : Type}

/-! What one operation does to the ranking. -/

def Ranking.slots (r : Ranking T) : List Nat := r.free ++ r.slotted.map Prod.snd

def Ranking.Full (r : Ranking T) : Prop := r.unslotted = [] ∨ r.free = []

theorem Ranking.length_order (r : Ranking T) :
    r.order.length = r.slotted.length + r.unslotted.length := by
  simp [order, keys]

theorem Ranking.length_slots (r : Ranking T) :
    r.slots.length = r.free.length + r.slotted.length := by
  simp [slots]

/-! The array that the actions keep. -/

def write (array : List (Option T)) : MRUSetAction T → List (Option T)
  | .none => array
  | .clearSlot slot => array.set slot none
  | .setSlot slot item => array.set slot (some item)

def Shows (array : List (Option T)) (slotted : List (T × Nat)) : Prop :=
  ∀ i x, array[i]? = some (some x) ↔ (x, i) ∈ slotted

section Shows
variable {array : List (Option T)} {slotted rest : List (T × Nat)} {i : Nat}

theorem Shows.clear (h : Shows array slotted) (hi : i < array.length)
    (hrest : ∀ p, p ∈ rest ↔ p ∈ slotted ∧ p.2 ≠ i) : Shows (array.set i none) rest := by
  intro j y
  rw [List.getElem?_set, hrest, ← h j y]
  by_cases hj : i = j
  · simp [hj, hj ▸ hi]
  · simp [hj, Ne.symm hj]

theorem Shows.fill (h : Shows array slotted) (hi : i < array.length)
    (hrest : ∀ p, p ∈ rest ↔ p ∈ slotted ∧ p.2 ≠ i) (x : T) {filled : List (T × Nat)}
    (hfilled : ∀ p, p ∈ filled ↔ p = (x, i) ∨ p ∈ rest) :
    Shows (array.set i (some x)) filled := by
  intro j y
  rw [List.getElem?_set, hfilled, hrest, ← h j y]
  by_cases hj : i = j
  · simp [hj, hj ▸ hi, eq_comm]
  · simp [hj, Ne.symm hj]

/-- The owner of a slot is the only pair that has it. -/
theorem mem_without {front back : List (T × Nat)} {x : T} {i : Nat}
    (hnodup : ((front ++ (x, i) :: back).map Prod.snd).Nodup) (p : T × Nat) :
    p ∈ front ++ back ↔ p ∈ front ++ (x, i) :: back ∧ p.2 ≠ i := by
  rw [List.map_append, List.map_cons, List.nodup_middle, List.nodup_cons, ← List.map_append]
    at hnodup
  constructor
  · intro hp
    refine ⟨?_, fun hpi => hnodup.1 (List.mem_map.mpr ⟨p, hp, hpi⟩)⟩
    exact List.Sublist.subset ((List.sublist_cons_self _ back).append_left front) hp
  · rintro ⟨hp, hpi⟩
    rw [List.mem_append, List.mem_cons] at hp
    rcases hp with hp | rfl | hp
    · exact List.mem_append_left back hp
    · exact absurd rfl hpi
    · exact List.mem_append_right front hp

end Shows

section Moves
variable [DecidableEq T] {r r' : Ranking T} {op : Operation T} {action : MRUSetAction T}

/-- Slots change hands, none is lost and none is made. -/
theorem Moves.slots (h : Moves r op action r') : r'.slots.Perm r.slots := by
  refine List.perm_iff_count.mpr fun i => ?_
  cases h with
  | again _ => rfl
  | forgotten _ => rfl
  | _ =>
    simp only [Ranking.slots, List.map_append, List.map_cons, List.map_nil, List.count_append,
      List.count_cons, List.count_nil]
    omega

def Operation.reorder (order : List T) : Operation T → List T
  | .insert x => x :: order.erase x
  | .remove x => order.erase x

theorem Operation.mem_reorder {order : List T} (hnodup : order.Nodup) (op : Operation T) (x : T) :
    x ∈ op.reorder order ↔ op = .insert x ∨ (op ≠ .remove x ∧ x ∈ order) := by
  cases op with
  | insert y =>
    rw [reorder, List.mem_cons, hnodup.mem_erase_iff, insert.injEq]
    by_cases hy : y = x
    · simp [hy]
    · simp [hy, Ne.symm hy]
  | remove y =>
    rw [reorder, hnodup.mem_erase_iff]
    simp [eq_comm]

/-- Without an entry that has a slot. -/
theorem order_erase_slotted {front back : List (T × Nat)} {un : List T} {free : List Nat} {x : T}
    {i : Nat} (hnodup : (Ranking.order ⟨front ++ (x, i) :: back, un, free⟩).Nodup) :
    (Ranking.order ⟨front ++ (x, i) :: back, un, free⟩).erase x =
      (front ++ back).map Prod.fst ++ un := by
  change ((front ++ (x, i) :: back).map Prod.fst ++ un).Nodup at hnodup
  obtain ⟨hkeys, hun⟩ := erase_slotted hnodup
  change ((front ++ (x, i) :: back).map Prod.fst ++ un).erase x = _
  rw [erase_append_nodup hnodup, hkeys, hun]

theorem order_erase_unslotted {slotted : List (T × Nat)} (un : List T) (free : List Nat) {x : T}
    (hx : x ∉ slotted.map Prod.fst) :
    (Ranking.order ⟨slotted, un, free⟩).erase x = slotted.map Prod.fst ++ un.erase x :=
  List.erase_append_right un hx

/-- An insertion moves its entry to the front, a removal takes its entry out. -/
theorem Moves.order (h : Moves r op action r') (hnodup : r.order.Nodup) :
    r'.order = op.reorder r.order := by
  cases h with
  | again hx =>
    obtain ⟨rest, hrest⟩ := List.head?_eq_some_iff.mp hx
    rw [hrest, Operation.reorder, List.erase_cons_head]
  | moved =>
    rw [Operation.reorder, order_erase_slotted hnodup]
    rfl
  | placed hx =>
    rw [Operation.reorder, order_erase_unslotted _ _ hx]
    rfl
  | evicted hx =>
    rw [Operation.reorder, order_erase_unslotted _ _ hx]
    simp [Ranking.order, Ranking.keys]
  | forgotten hx =>
    rw [Operation.reorder, order_erase_unslotted _ _ hx]
    rfl
  | passedOn _ =>
    rw [Operation.reorder, order_erase_slotted hnodup]
    simp [Ranking.order, Ranking.keys]
  | freed _ =>
    rw [Operation.reorder, order_erase_slotted hnodup]
    rfl

/-- An entry without a slot leaves no slot free, as long as the only slot is not freed over it. -/
theorem Moves.full {n : Nat} (h : Moves r op action r') (hslots : r.slots.length = n)
    (hspares : ∀ x, op = .remove x → n = 1 → r.order.head? = some x → r.order.length ≤ 1)
    (hfull : r.Full) : r'.Full := by
  cases h with
  | again _ => exact hfull
  | moved => exact hfull
  | placed _ =>
    rcases hfull with rfl | hfree
    · exact .inl rfl
    · cases hfree
  | evicted _ => exact .inr rfl
  | forgotten _ =>
    rcases hfull with rfl | hfree
    · exact .inl rfl
    · exact .inr hfree
  | passedOn _ =>
    rcases hfull with hun | hfree
    · cases hun
    · exact .inr hfree
  | @freed front back un free x i hfreed =>
    rcases hfull with hun | rfl
    · exact .inl hun
    rcases hfreed with hempty | hun
    · -- it had the only slot of all
      obtain ⟨rfl, rfl⟩ := List.append_eq_nil_iff.mp hempty
      have hle := hspares x rfl hslots.symm rfl
      left
      apply List.eq_nil_of_length_eq_zero
      simp only [Ranking.order, Ranking.keys, List.nil_append, List.map_cons, List.map_nil,
        List.cons_append, List.length_cons] at hle
      change un.length = 0
      omega
    · exact .inl hun

/-- Otherwise the only slot falls free while somebody has none. -/
theorem Moves.strips {x : T} (h : Moves r (.remove x) action r') (hslots : r.slots.length = 1)
    (hfull : r.Full) (hx : r.order.head? = some x) (hlength : 1 < r.order.length) :
    r'.keys = [] ∧ r'.order ≠ [] := by
  have hsum := r.length_order
  rw [Ranking.length_slots] at hslots
  -- with one slot at most one entry has one, so somebody has none and no slot is free
  have hfree : r.free = [] := hfull.resolve_left fun hun => by
    rw [hun, List.length_nil] at hsum
    omega
  rw [hfree, List.length_nil] at hslots
  cases h with
  | @forgotten slotted un free x hout =>
    change 0 + slotted.length = 1 at hslots
    obtain ⟨p, rfl⟩ := List.length_eq_one_iff.mp ((Nat.zero_add _).symm.trans hslots)
    obtain rfl : p.1 = x := Option.some.inj hx
    exact absurd List.mem_cons_self hout
  | passedOn hne =>
    simp only [List.length_append, List.length_cons] at hslots
    refine absurd (List.eq_nil_of_length_eq_zero ?_) hne
    rw [List.length_append]
    omega
  | @freed front back un free x i _ =>
    simp only [List.length_append, List.length_cons] at hslots hsum
    have hempty : front ++ back = [] := by
      apply List.eq_nil_of_length_eq_zero
      rw [List.length_append]
      omega
    refine ⟨congrArg (List.map Prod.fst) hempty, fun horder => ?_⟩
    have hun : un.length = 0 := List.length_eq_zero_iff.mpr (List.append_eq_nil_iff.mp horder).2
    omega

/-- Whoever writes the actions into an array has the current owners of the slots in it. -/
theorem Moves.shows {array : List (Option T)} (h : Moves r op action r') (hslots : r.slots.Nodup)
    (hlt : ∀ i ∈ r.slots, i < array.length) (ha : Shows array r.slotted) :
    Shows (write array action) r'.slotted := by
  have howned : (r.slotted.map Prod.snd).Nodup := (List.nodup_append.mp hslots).2.1
  cases h with
  | again _ => exact ha
  | forgotten _ => exact ha
  | moved =>
    intro i x
    rw [write, ha i x]
    simp [or_left_comm]
  | @placed slotted un free x i _ =>
    have hi : i ∉ slotted.map Prod.snd := fun hmem =>
      (List.nodup_append.mp hslots).2.2 i List.mem_cons_self i hmem rfl
    have hrest (p : T × Nat) : p ∈ slotted ↔ p ∈ slotted ∧ p.2 ≠ i :=
      ⟨fun hp => ⟨hp, fun hpi => hi (List.mem_map.mpr ⟨p, hp, hpi⟩)⟩, And.left⟩
    exact ha.fill (hlt i (by simp [Ranking.slots])) hrest x fun p => List.mem_cons
  | @evicted front oldest un x i _ =>
    exact ha.fill (hlt i (by simp [Ranking.slots])) (mem_without howned) x fun p => by simp
  | @passedOn front back next un free x i _ =>
    exact ha.fill (hlt i (by simp [Ranking.slots])) (mem_without howned) next fun p => by
      simp [or_comm, or_assoc]
  | @freed front back un free x i _ =>
    exact ha.clear (hlt i (by simp [Ranking.slots])) (mem_without howned)

end Moves

/-! Runs. -/

abbrev Step (T : Type) := Transition (MRUSet T) (Operation T) (MRUSetAction T)
abbrev Past (T : Type) := History (MRUSet T) (Operation T) (MRUSetAction T)

def AnyOrder (_ : Past T) (_ : MRUSet T) (_ : Operation T) : Prop := True

instance (h : Past T) (s : MRUSet T) (op : Operation T) : Decidable (AnyOrder h s op) :=
  .isTrue trivial

/-- The last operation on `x` inserted it. -/
def Inserted (h : Past T) (x : T) : Prop :=
  Since (fun u => u.event ≠ .remove x) (fun u => u.event = .insert x) h

/-- `x` was inserted once more after every insertion of `y`. -/
def MoreRecent (h : Past T) (x y : T) : Prop :=
  Since (fun u => u.event ≠ .insert y) (fun u => u.event = .insert x) h

def mirrored (n : Nat) (h : Past T) : List (Option T) :=
  h.foldr (fun u array => write array u.output) (List.replicate n none)

section Runs

/-- A set of one slot does not lose its newest entry over older ones. -/
def Spares (n : Nat) (u : Step T) : Prop :=
  ∀ x, u.event = .remove x → n = 1 → u.before.newest = some x → u.before.len ≤ 1

structure Explains (n : Nat) (h : Past T) (r : Ranking T) : Prop where
  slots : r.slots.Perm (List.range n)
  members : ∀ x, x ∈ r.order ↔ Inserted h x
  recent : r.order.Pairwise (MoreRecent h)
  shows : Shows (mirrored n h) r.slotted
  full : (∀ u ∈ h, Spares n u) → r.Full

variable {n : Nat} {h : Past T} {s s' start : MRUSet T} {r r' : Ranking T} {op : Operation T}
  {action : MRUSetAction T}

theorem length_mirrored (n : Nat) (h : Past T) : (mirrored n h).length = n := by
  induction h with
  | nil => exact List.length_replicate
  | cons u h ih =>
    have hcons : mirrored n (u :: h) = write (mirrored n h) u.output := rfl
    rw [hcons]
    cases u.output with
    | none => exact ih
    | clearSlot i => exact List.length_set.trans ih
    | setSlot i x => exact List.length_set.trans ih

theorem explains_nil : Explains n ([] : Past T) ⟨[], [], List.range n⟩ where
  slots := by simp [Ranking.slots]
  members x := by simp [Ranking.order, Ranking.keys, Inserted, Since]
  recent := .nil
  shows i x := by simp [mirrored, List.getElem?_replicate]
  full _ := .inl rfl

theorem pos_of_new (hnew : new n = .ok start) : 0 < n := by
  refine Nat.pos_of_ne_zero fun hn => ?_
  subst hn
  cases hnew

theorem Explains.slot_left (he : Explains n h r) (hn : 0 < n) :
    r.slotted = [] → r.free ≠ [] := by
  intro hslotted hfree
  have hlength := he.slots.length_eq
  rw [Ranking.slots, hslotted, hfree, List.length_range] at hlength
  exact Nat.ne_of_gt hn hlength.symm

/-- As long as no slot is free while somebody has none, as many entries as possible have one. -/
theorem Explains.keys (he : Explains n h r) (hfull : r.Full) :
    r.keys = r.order.take (min n r.order.length) := by
  have hslots := he.slots.length_eq
  rw [Ranking.length_slots, List.length_range] at hslots
  have hkeys : min n r.order.length = r.keys.length := by
    rw [Ranking.length_order, Ranking.keys, List.length_map]
    rcases hfull with hun | hfree
    · rw [hun, List.length_nil]
      omega
    · rw [hfree, List.length_nil] at hslots
      omega
  rw [hkeys, Ranking.order, List.take_left]

variable [DecidableEq T]

def step (s : MRUSet T) (op : Operation T) : Option (MRUSet T × MRUSetAction T) :=
  (s.perform op).toOption.map Prod.swap

theorem Refines.nodup (hs : s.Refines r) : r.order.Nodup := hs.cursors.linked.nodup

theorem Refines.len (hs : s.Refines r) : s.len = r.order.length := by
  have hentries : s.entries = r.order.toFinset := by
    ext x
    rw [hs.entries, List.mem_toFinset]
  rw [MRUSet.len, hentries, List.toFinset_card_of_nodup hs.nodup]

/-- An operation is explained by what has led to it and by itself. -/
theorem Explains.next (he : Explains n h r) (hs : s.Refines r) (hm : Moves r op action r') :
    Explains n (⟨s, op, action, s'⟩ :: h) r' := by
  have horder := hm.order hs.nodup
  refine ⟨hm.slots.trans he.slots, fun x => ?_, ?_, ?_, fun hspares => ?_⟩
  · rw [horder, Operation.mem_reorder hs.nodup, he.members]
    rfl
  · rw [horder]
    have hrest (x : T) : (r.order.erase x).Pairwise (MoreRecent h) :=
      he.recent.sublist List.erase_sublist
    cases op with
    | insert x =>
      refine List.pairwise_cons.mpr ⟨fun y _ => .inl rfl, ?_⟩
      refine (hrest x).imp_of_mem fun {y z} _ hz hyz => .inr ⟨fun hop => ?_, hyz⟩
      exact (hs.nodup.mem_erase_iff.mp hz).1 (Operation.insert.inj hop).symm
    | remove x => exact (hrest x).imp fun hyz => .inr ⟨by simp, hyz⟩
  · have hlt : ∀ i ∈ r.slots, i < (mirrored n h).length := fun i hi => by
      rw [length_mirrored]
      exact List.mem_range.mp (he.slots.mem_iff.mp hi)
    exact hm.shows (he.slots.nodup_iff.mpr List.nodup_range) hlt he.shows
  · obtain ⟨hspare, hpast⟩ := List.forall_mem_cons.mp hspares
    refine hm.full (he.slots.length_eq.trans List.length_range) (fun x hop hn hx => ?_)
      (he.full hpast)
    rw [← hs.len]
    exact hspare x hop hn (hs.cursors.newest.trans hx)

/-- After any operations the fields hold a ranking that the run explains. -/
theorem explained (hn : 0 < n) (hnew : new n = .ok start)
    (hr : Run step AnyOrder start h s) : ∃ r, s.Refines r ∧ Explains n h r := by
  refine hr.invariant (P := fun h s => ∃ r, s.Refines r ∧ Explains n h r) ?_ ?_
  · obtain ⟨s₀, hok, hs⟩ := refines_new (T := T) hn
    obtain rfl := Except.ok.inj (hok.symm.trans hnew)
    exact ⟨_, hs, explains_nil⟩
  · rintro h s op s' action - ⟨r, hs, he⟩ - hstep
    obtain ⟨action', s'', r', hok, hm, hs'⟩ := perform_refines hs (he.slot_left hn) op
    rw [step, hok] at hstep
    obtain ⟨rfl, rfl⟩ := Prod.mk.inj (Option.some.inj hstep)
    exact ⟨r', hs', he.next hs hm⟩

structure Coherent (n : Nat) (s : MRUSet T) : Prop where
  chain : ∃ order, Linked order (HashMap.get s.linkOlder) (HashMap.get s.linkNewer) ∧
    (∀ x, x ∈ order ↔ x ∈ s.entries) ∧ s.newest = order.head?
  slots : (s.freeSlots ++ HashMap.values s.assignedSlots).Perm (List.range n)

theorem Refines.coherent (hs : s.Refines r) (he : Explains n h r) : s.Coherent n where
  chain := ⟨r.order, hs.cursors.linked, fun x => (hs.entries x).symm, hs.cursors.newest⟩
  slots := by
    have hvalues := HashMap.values_perm (List.nodup_append.mp hs.nodup).1 hs.assigned
    rw [hs.free]
    exact (hvalues.append_left r.free).trans he.slots

/-- No assertion ever fails. -/
theorem never_fails (hn : 0 < n) : ∃ start : MRUSet T, new n = .ok start ∧
    ∀ h s, Run step AnyOrder start h s →
      s.Coherent n ∧ ∀ op, ∃ action s', s.perform op = .ok (action, s') := by
  obtain ⟨start, hnew, -⟩ := refines_new (T := T) hn
  refine ⟨start, hnew, fun h s hr => ?_⟩
  obtain ⟨r, hs, he⟩ := explained hn hnew hr
  refine ⟨hs.coherent he, fun op => ?_⟩
  obtain ⟨action, s', -, hok, -⟩ := perform_refines hs (he.slot_left hn) op
  exact ⟨action, s', hok⟩

theorem never_fails_three : ∃ start : MRUSet Nat, new 3 = .ok start ∧
    ∀ h s, Run step AnyOrder start h s →
      s.Coherent 3 ∧ ∀ op, ∃ action s', s.perform op = .ok (action, s') :=
  never_fails (by decide)

/-- The slots belong to the most recent entries, and the actions tell to which. -/
structure SlotsMostRecent (n : Nat) (h : Past T) (s : MRUSet T) : Prop where
  entries : ∀ x, s.contains x ↔ Inserted h x
  recent : ∃ order : List T, order.Nodup ∧ (∀ x, x ∈ order ↔ s.contains x) ∧
    order.Pairwise (MoreRecent h) ∧
    ∀ x, (s.hasSlot x).isSome ↔ x ∈ order.take (min n s.len)
  distinct : ∀ x y i, s.hasSlot x = some i → s.hasSlot y = some i → x = y
  bounded : ∀ x i, s.hasSlot x = some i → i < n
  mirrored : ∀ i x, (mirrored n h)[i]? = some (some x) ↔ s.hasSlot x = some i

theorem Refines.contains_iff (hs : s.Refines r) (x : T) : s.contains x ↔ x ∈ r.order := by
  rw [contains, decide_eq_true_eq, hs.entries]

theorem Refines.isSome_hasSlot (hs : s.Refines r) (x : T) :
    (s.hasSlot x).isSome ↔ x ∈ r.keys := by
  rw [Option.isSome_iff_exists, Ranking.keys, List.mem_map]
  constructor
  · rintro ⟨i, hi⟩
    exact ⟨(x, i), (hs.assigned x i).mp hi, rfl⟩
  · rintro ⟨⟨_, i⟩, hi, rfl⟩
    exact ⟨i, (hs.assigned _ i).mpr hi⟩

/-- A set that spares its entries gives its slots to the most recent ones. -/
theorem mostRecent_of_spares (hnew : new n = .ok start) (hr : Run step AnyOrder start h s)
    (hspares : ∀ u ∈ h, Spares n u) : SlotsMostRecent n h s := by
  obtain ⟨r, hs, he⟩ := explained (pos_of_new hnew) hnew hr
  have howned : (r.slotted.map Prod.snd).Nodup :=
    (List.nodup_append.mp (he.slots.nodup_iff.mpr List.nodup_range)).2.1
  refine ⟨fun x => (hs.contains_iff x).trans (he.members x), ?_, fun x y i hx hy => ?_,
    fun x i hx => ?_, fun i x => (he.shows i x).trans (hs.assigned x i).symm⟩
  · refine ⟨r.order, hs.nodup, fun x => (hs.contains_iff x).symm, he.recent, fun x => ?_⟩
    rw [hs.isSome_hasSlot, hs.len, ← he.keys (he.full hspares)]
  · have hxi := (hs.assigned x i).mp hx
    have hyi := (hs.assigned y i).mp hy
    exact congrArg Prod.fst (List.inj_on_of_nodup_map howned hxi hyi rfl)
  · have hslot : i ∈ r.slots := List.mem_append_right r.free
      (List.mem_map_of_mem ((hs.assigned x i).mp hx))
    exact List.mem_range.mp (he.slots.mem_iff.mp hslot)

/-- Somebody is the most recent entry, and has a slot. -/
theorem SlotsMostRecent.keys_ne_nil (hslots : SlotsMostRecent n h s) (hs : s.Refines r)
    (hn : 0 < n) (hr : r.order ≠ []) : r.keys ≠ [] := by
  obtain ⟨order, -, hmem, -, hslotted⟩ := hslots.recent
  obtain ⟨x, hx⟩ := List.exists_mem_of_ne_nil r.order hr
  have hxs : s.contains x := (hs.contains_iff x).mpr hx
  obtain ⟨y, rest, rfl⟩ := List.exists_cons_of_ne_nil (List.ne_nil_of_mem ((hmem x).mpr hxs))
  have hlen : 0 < min n s.len := by
    have hpos := List.length_pos_iff.mpr hr
    rw [hs.len]
    omega
  have hy : y ∈ (y :: rest).take (min n s.len) := by
    obtain ⟨m, hm⟩ := Nat.exists_eq_succ_of_ne_zero (Nat.ne_of_gt hlen)
    rw [hm]
    exact List.mem_cons_self
  exact List.ne_nil_of_mem ((hs.isSome_hasSlot y).mp ((hslotted y).mpr hy))

/-- The slots belong to the most recent entries all along a run just if it never takes the newest
entry of a set with one slot while others are in it. -/
theorem slots_most_recent_iff (hnew : new n = .ok start) (hr : Run step AnyOrder start h s) :
    (∀ past s', past <:+ h → Run step AnyOrder start past s' → SlotsMostRecent n past s') ↔
      ∀ u ∈ h, Spares n u := by
  constructor
  · intro hall
    induction hr with
    | start => exact fun u hu => absurd hu List.not_mem_nil
    | @next h s s' op action hr _ hstep ih =>
      have hpast := ih fun past s' hp => hall past s' (hp.trans (List.suffix_cons _ h))
      refine List.forall_mem_cons.mpr ⟨fun x hop hn hx => ?_, hpast⟩
      subst hop hn
      obtain ⟨r, hs, he⟩ := explained Nat.one_pos hnew hr
      obtain ⟨action', s'', r', hok, hm, hs'⟩ :=
        perform_refines hs (he.slot_left Nat.one_pos) (.remove x)
      have hnow := hall _ _ List.suffix_rfl (.next hr trivial hstep)
      rw [step, hok] at hstep
      obtain ⟨rfl, rfl⟩ := Prod.mk.inj (Option.some.inj hstep)
      by_contra hlen
      rw [hs.len, Nat.not_le] at hlen
      obtain ⟨hkeys, horder⟩ := hm.strips (he.slots.length_eq.trans List.length_range)
        (he.full hpast) (hs.cursors.newest.symm.trans hx) hlen
      exact hnow.keys_ne_nil hs' Nat.one_pos horder hkeys
  · intro hspares past s' hp hr'
    exact mostRecent_of_spares hnew hr' fun u hu => hspares u (hp.subset hu)

end Runs

def empty (n : Nat) : MRUSet Char := ⟨∅, ∅, ∅, ∅, none, none, List.range n⟩

def testMruSet : Past Char × MRUSet Char :=
  replay step AnyOrder (empty 3) [.insert 'A', .insert 'A', .remove 'A', .insert 'B', .insert 'C',
    .insert 'D', .insert 'B', .insert 'E', .remove 'E', .insert 'E']

theorem slots_most_recent_iff_test :
    (∀ past s', past <:+ testMruSet.1 → Run step AnyOrder (empty 3) past s' →
      SlotsMostRecent 3 past s') ↔ ∀ u ∈ testMruSet.1, Spares 3 u :=
  @slots_most_recent_iff Char 3 testMruSet.1 testMruSet.2 (empty 3) _ rfl (run_replay _)

example : testMruSet.1.reverse.map (·.output) = [.setSlot 0 'A', .none, .clearSlot 0,
    .setSlot 1 'B', .setSlot 2 'C', .setSlot 0 'D', .none, .setSlot 2 'E', .setSlot 2 'C',
    .setSlot 2 'E'] := by decide

def twoEntries : Past Char × MRUSet Char :=
  replay step AnyOrder (empty 1) [.insert 'A', .insert 'B', .remove 'B']

/-- The older one stays without a slot, though the only slot is free. -/
theorem slot_stays_free : ¬ ∀ (n : Nat) (start : MRUSet Char) (h : Past Char) (s : MRUSet Char),
    new n = .ok start → Run step AnyOrder start h s → SlotsMostRecent n h s := by
  intro hall
  obtain ⟨order, -, hmem, -, hslots⟩ :=
    (hall 1 (empty 1) twoEntries.1 twoEntries.2 rfl (run_replay _)).recent
  have hkept : 'A' ∈ order := (hmem 'A').mpr (by decide)
  cases order with
  | nil => cases hkept
  | cons x rest =>
    have hentries : twoEntries.2.entries = {'A'} := by decide
    have hlen : min 1 twoEntries.2.len = 1 := by decide
    have hx := (hmem x).mp List.mem_cons_self
    rw [contains, decide_eq_true_eq, hentries, Finset.mem_singleton] at hx
    subst hx
    have hslot := (hslots 'A').mpr (by rw [hlen]; exact List.mem_cons_self)
    revert hslot
    decide

end ZigbeeStack.MRUSet
