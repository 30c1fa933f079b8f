import ZigbeeStack.LinkedChain
import ZigbeeStack.MruSet

/-! The set as a ranking: its entries from the newest to the oldest, those with slots first. The
links and cursors of the code keep it, and none of the code's assertions fails. -/
namespace ZigbeeStack.MRUSet
open LinkedChain
variable {T : Type} [DecidableEq T]

/-! The links and cursors. -/

structure Cursors (s : MRUSet T) (slotted unslotted : List T) : Prop where
  linked : Linked (slotted ++ unslotted) (HashMap.get s.linkOlder) (HashMap.get s.linkNewer)
  newest : s.newest = (slotted ++ unslotted).head?
  oldestSlotted : s.oldestSlotted = slotted.getLast?

theorem get_insertOrRemove (m : HashMap.Map T T) (key : T) (value : Option T) (a : T) :
    (insertOrRemove m key value).1 = HashMap.get m key ∧
      HashMap.get (insertOrRemove m key value).2 a =
        if a = key then value else HashMap.get m a := by
  cases value with
  | some value => exact ⟨rfl, HashMap.get_set m key a value⟩
  | none => exact ⟨rfl, HashMap.get_remove m key a⟩

/-- A neighbour that points to the item is made to point past it. -/
theorem relink_ok (links : HashMap.Map T T) (item : T) (neighbour target : Option T)
    (h : ∀ a, neighbour = some a → HashMap.get links a = some item) :
    ∃ links', relink links item neighbour target = .ok links' ∧
      ∀ a, HashMap.get links' a = if neighbour = some a then target else HashMap.get links a := by
  cases neighbour with
  | none => exact ⟨links, rfl, fun a => rfl⟩
  | some neighbour =>
    refine ⟨(insertOrRemove links neighbour target).2, ?_, fun a => ?_⟩
    · have hprevious := (get_insertOrRemove links neighbour target item).1
      rw [h neighbour rfl] at hprevious
      simp only [relink, hprevious]
      rfl
    · rw [(get_insertOrRemove links neighbour target a).2]
      simp [eq_comm]

variable {s : MRUSet T} {slotted unslotted : List T}

/-- The entries and the slots do not matter here. -/
theorem Cursors.frame (h : s.Cursors slotted unslotted) (entries : Finset T)
    (assigned : HashMap.Map T Nat) (free : List Nat) :
    { s with entries := entries, assignedSlots := assigned, freeSlots := free }.Cursors slotted
      unslotted :=
  ⟨h.linked, h.newest, h.oldestSlotted⟩

theorem Cursors.unlink (h : s.Cursors slotted unslotted) (x : T) :
    ∃ s', s.unlink x = .ok s' ∧ s'.Cursors (slotted.erase x) (unslotted.erase x) ∧
      s'.entries = s.entries ∧ s'.assignedSlots = s.assignedSlots ∧
      s'.freeSlots = s.freeSlots := by
  have hlinked := h.linked
  -- what the two neighbours hold still stands when the item's own links are gone
  obtain ⟨linkOlder, hokOlder, holder⟩ := relink_ok (HashMap.remove s.linkOlder x) x
    (HashMap.get s.linkNewer x) (HashMap.get s.linkOlder x) fun a ha => by
      have hax := (hlinked.inverse a x).mpr ha
      rw [HashMap.get_remove, if_neg (hlinked.older_ne hax), hax]
  obtain ⟨linkNewer, hokNewer, hnewer⟩ := relink_ok (HashMap.remove s.linkNewer x) x
    (HashMap.get s.linkOlder x) (HashMap.get s.linkNewer x) fun b hb => by
      have hbx := (hlinked.inverse x b).mp hb
      rw [HashMap.get_remove, if_neg (hlinked.older_ne hb).symm, hbx]
  have hunlink : s.unlink x = .ok { s with
      linkNewer := linkNewer
      linkOlder := linkOlder
      newest := if s.newest = some x then HashMap.get s.linkOlder x else s.newest
      oldestSlotted := if s.oldestSlotted = some x then HashMap.get s.linkNewer x
        else s.oldestSlotted } := by
    rw [MRUSet.unlink, hokOlder, hokNewer]
    rfl
  have holder' : HashMap.get linkOlder =
      Linked.passOver x (HashMap.get s.linkOlder) (HashMap.get s.linkNewer) := by
    funext a
    rw [holder, HashMap.get_remove, Linked.passOver]
  have hnewer' : HashMap.get linkNewer =
      Linked.passOver x (HashMap.get s.linkNewer) (HashMap.get s.linkOlder) := by
    funext b
    rw [hnewer, HashMap.get_remove, Linked.passOver]
  have hlinked' := hlinked.unlink x
  rw [← holder', ← hnewer', erase_append_nodup hlinked.nodup] at hlinked'
  refine ⟨_, hunlink, ⟨hlinked', ?_, ?_⟩, rfl, rfl, rfl⟩
  · rw [← erase_append_nodup hlinked.nodup, hlinked.head?_erase, ← h.newest]
  · rw [hlinked.getLast?_erase, ← h.oldestSlotted]

theorem linkTo_ok (links : HashMap.Map T T) (source : Option T) (item : T)
    (h : ∀ a, source = some a → HashMap.get links a = none) :
    ∃ links', linkTo links source item = .ok links' ∧
      ∀ a, HashMap.get links' a = if source = some a then some item else HashMap.get links a := by
  cases source with
  | none => exact ⟨links, rfl, fun a => rfl⟩
  | some source =>
    refine ⟨HashMap.set links source item, ?_, fun a => ?_⟩
    · simp only [linkTo, h source rfl]
      rfl
    · rw [HashMap.get_set]
      simp [eq_comm]

theorem Cursors.linkAsNewest (h : s.Cursors slotted unslotted) {x : T}
    (hx : x ∉ slotted ++ unslotted) :
    ∃ s', s.linkAsNewest x = .ok s' ∧ s'.Cursors (x :: slotted) unslotted ∧
      s'.entries = s.entries ∧ s'.assignedSlots = s.assignedSlots ∧
      s'.freeSlots = s.freeSlots := by
  have hlinked := h.linked
  obtain ⟨linkNewer, hokNewer, hnewer⟩ := linkTo_ok s.linkNewer s.newest x fun a ha =>
    hlinked.newer_head (h.newest ▸ ha)
  obtain ⟨hprevious, -⟩ := get_insertOrRemove s.linkOlder x s.newest x
  rw [hlinked.older_none hx] at hprevious
  have hlink : s.linkAsNewest x = .ok { s with
      linkNewer := linkNewer
      linkOlder := (insertOrRemove s.linkOlder x s.newest).2
      newest := some x
      oldestSlotted := if s.oldestSlotted = none then some x else s.oldestSlotted } := by
    simp only [MRUSet.linkAsNewest, hokNewer, hprevious]
    rfl
  have holder : HashMap.get (insertOrRemove s.linkOlder x s.newest).2 =
      fun a => if a = x then (slotted ++ unslotted).head? else HashMap.get s.linkOlder a := by
    funext a
    rw [(get_insertOrRemove s.linkOlder x s.newest a).2, h.newest]
  have hnewer' : HashMap.get linkNewer = fun b =>
      if (slotted ++ unslotted).head? = some b then some x else HashMap.get s.linkNewer b := by
    funext b
    rw [hnewer, h.newest]
  have hlinked' := hlinked.push hx
  rw [← holder, ← hnewer'] at hlinked'
  refine ⟨_, hlink, ⟨hlinked', rfl, ?_⟩, rfl, rfl, rfl⟩
  rw [h.oldestSlotted]
  cases slotted with
  | nil => rfl
  | cons y rest =>
    rw [List.getLast?_cons_cons, if_neg (by simp)]

/-! What the set is for, without links. -/

/-- The entries from the newest to the oldest, those with their slots first, and the free slots in
the order in which they are taken. -/
structure Ranking (T : Type) where
  slotted : List (T × Nat)
  unslotted : List T
  free : List Nat

def Ranking.keys (r : Ranking T) : List T := r.slotted.map Prod.fst

def Ranking.order (r : Ranking T) : List T := r.keys ++ r.unslotted

inductive Operation (T : Type) where
  | insert (item : T)
  | remove (item : T)
deriving DecidableEq, Repr

def perform (s : MRUSet T) : Operation T → Except Panic (MRUSetAction T × MRUSet T)
  | .insert item => s.insert item
  | .remove item => s.remove item

inductive Moves : Ranking T → Operation T → MRUSetAction T → Ranking T → Prop where
  | again {r x} : r.order.head? = some x → Moves r (.insert x) .none r
  | moved {front back un free x i} : Moves ⟨front ++ (x, i) :: back, un, free⟩ (.insert x) .none
      ⟨(x, i) :: (front ++ back), un, free⟩
  | placed {slotted un free x i} : x ∉ slotted.map Prod.fst →
      Moves ⟨slotted, un, i :: free⟩ (.insert x) (.setSlot i x)
        ⟨(x, i) :: slotted, un.erase x, free⟩
  | evicted {front oldest un x i} : x ∉ (front ++ [(oldest, i)]).map Prod.fst →
      Moves ⟨front ++ [(oldest, i)], un, []⟩ (.insert x) (.setSlot i x)
        ⟨(x, i) :: front, oldest :: un.erase x, []⟩
  | forgotten {slotted un free x} : x ∉ slotted.map Prod.fst →
      Moves ⟨slotted, un, free⟩ (.remove x) .none ⟨slotted, un.erase x, free⟩
  | passedOn {front back next un free x i} : front ++ back ≠ [] →
      Moves ⟨front ++ (x, i) :: back, next :: un, free⟩ (.remove x) (.setSlot i next)
        ⟨front ++ back ++ [(next, i)], un, free⟩
  | freed {front back un free x i} : front ++ back = [] ∨ un = [] →
      Moves ⟨front ++ (x, i) :: back, un, free⟩ (.remove x) (.clearSlot i)
        ⟨front ++ back, un, free ++ [i]⟩

def Assigns (m : HashMap.Map T Nat) (slotted : List (T × Nat)) : Prop :=
  ∀ x i, HashMap.get m x = some i ↔ (x, i) ∈ slotted

/-- The code's fields hold a ranking. -/
structure Refines (s : MRUSet T) (r : Ranking T) : Prop where
  cursors : s.Cursors r.keys r.unslotted
  entries : ∀ x, x ∈ s.entries ↔ x ∈ r.order
  assigned : Assigns s.assignedSlots r.slotted
  free : s.freeSlots = r.free

section Assigned
variable {m : HashMap.Map T Nat} {assigned front back : List (T × Nat)} {x : T} {i : Nat}

theorem Assigns.none (h : Assigns m assigned) (hx : HashMap.get m x = none) :
    x ∉ assigned.map Prod.fst := by
  intro hmem
  obtain ⟨⟨y, i⟩, hi, rfl⟩ := List.mem_map.mp hmem
  rw [(h y i).mpr hi] at hx
  cases hx

theorem Assigns.set (h : Assigns m assigned) (hx : x ∉ assigned.map Prod.fst) (i : Nat) :
    Assigns (HashMap.set m x i) ((x, i) :: assigned) := by
  intro y j
  rw [HashMap.get_set, List.mem_cons, Prod.mk.injEq]
  by_cases hy : y = x
  · have hno : (y, j) ∉ assigned := fun hmem => hx (hy ▸ List.mem_map_of_mem hmem)
    rw [if_pos hy, Option.some.injEq]
    exact ⟨fun hj => .inl ⟨hy, hj.symm⟩, fun hj => (hj.resolve_right hno).2.symm⟩
  · rw [if_neg hy, h]
    exact ⟨.inr, fun hj => hj.resolve_left fun heq => hy heq.1⟩

theorem Assigns.remove (h : Assigns m (front ++ (x, i) :: back))
    (hx : x ∉ (front ++ back).map Prod.fst) : Assigns (HashMap.remove m x) (front ++ back) := by
  intro y j
  rw [HashMap.get_remove]
  by_cases hy : y = x
  · have hno : (y, j) ∉ front ++ back := fun hmem => hx (hy ▸ List.mem_map_of_mem hmem)
    rw [if_pos hy]
    exact ⟨fun hj => (by cases hj), fun hmem => absurd hmem hno⟩
  · rw [if_neg hy, h]
    simp [hy]

theorem Assigns.congr (h : Assigns m assigned) {assigned' : List (T × Nat)}
    (hmem : ∀ p, p ∈ assigned' ↔ p ∈ assigned) : Assigns m assigned' :=
  fun x i => (h x i).trans (hmem (x, i)).symm

end Assigned

/-- An item with a slot stands only there. -/
theorem erase_slotted {front back : List (T × Nat)} {un : List T} {x : T} {i : Nat}
    (h : ((front ++ (x, i) :: back).map Prod.fst ++ un).Nodup) :
    ((front ++ (x, i) :: back).map Prod.fst).erase x = (front ++ back).map Prod.fst ∧
      un.erase x = un := by
  obtain ⟨hkeys, -, hdisjoint⟩ := List.nodup_append.mp h
  have hun : x ∉ un := fun hmem => hdisjoint x (by simp) x hmem rfl
  rw [List.map_append, List.map_cons] at hkeys ⊢
  have hfront : x ∉ front.map Prod.fst := fun hmem =>
    (List.nodup_append.mp hkeys).2.2 x hmem x List.mem_cons_self rfl
  rw [List.erase_append_right _ hfront, List.erase_cons_head, List.map_append]
  exact ⟨rfl, List.erase_of_not_mem hun⟩

structure Without (s : MRUSet T) (x : T) (entries : Finset T) (slotted : List (T × Nat))
    (unslotted : List T) : Prop where
  cursors : s.Cursors (slotted.map Prod.fst) unslotted
  members : ∀ y, y ∈ slotted.map Prod.fst ++ unslotted ↔ y ∈ entries ∧ y ≠ x

theorem Without.frame {x : T} {entries : Finset T} {slotted : List (T × Nat)} {un : List T}
    (h : s.Without x entries slotted un) (assigned : HashMap.Map T Nat) (free : List Nat) :
    { s with assignedSlots := assigned, freeSlots := free }.Without x entries slotted un :=
  ⟨h.cursors.frame s.entries assigned free, h.members⟩

inductive Unlinked (s : MRUSet T) (x : T) (entries : Finset T) :
    List (T × Nat) → List T → Prop where
  | slotted {front back un i} : HashMap.get s.assignedSlots x = some i →
      Assigns (HashMap.remove s.assignedSlots x) (front ++ back) →
      s.Without x entries (front ++ back) un → Unlinked s x entries (front ++ (x, i) :: back) un
  | unslotted {slotted un} : HashMap.get s.assignedSlots x = none →
      Assigns s.assignedSlots slotted → x ∉ slotted.map Prod.fst →
      s.Without x entries slotted (un.erase x) → Unlinked s x entries slotted un

theorem Refines.unlink {slotted : List (T × Nat)} {un : List T} {free : List Nat}
    (h : s.Refines ⟨slotted, un, free⟩) (x : T) (entries : Finset T) :
    ∃ s', { s with entries := entries }.unlink x = .ok s' ∧
      s'.Unlinked x s.entries slotted un ∧ s'.entries = entries ∧ s'.freeSlots = free := by
  have hnodup : (slotted.map Prod.fst ++ un).Nodup := h.cursors.linked.nodup
  obtain ⟨s', hunlink, hcursors, he, ha, hf⟩ :=
    (h.cursors.frame entries s.assignedSlots s.freeSlots).unlink x
  refine ⟨s', hunlink, ?_, he, hf.trans h.free⟩
  have hassigned : Assigns s'.assignedSlots slotted := ha ▸ h.assigned
  have hmembers (y : T) : y ∈ (slotted.map Prod.fst).erase x ++ un.erase x ↔
      y ∈ s.entries ∧ y ≠ x := by
    have hy : y ∈ s.entries ↔ y ∈ slotted.map Prod.fst ++ un := h.entries y
    rw [← erase_append_nodup hnodup, hnodup.mem_erase_iff, hy, and_comm]
  cases hslot : HashMap.get s'.assignedSlots x with
  | some i =>
    obtain ⟨front, back, rfl⟩ := List.append_of_mem ((hassigned x i).mp hslot)
    obtain ⟨hkeys, hun⟩ := erase_slotted hnodup
    change s'.Cursors (((front ++ (x, i) :: back).map Prod.fst).erase x) (un.erase x) at hcursors
    rw [hkeys, hun] at hcursors hmembers
    have hout : x ∉ (front ++ back).map Prod.fst := fun hmem =>
      ((hmembers x).mp (List.mem_append_left un hmem)).2 rfl
    exact .slotted hslot (hassigned.remove hout) ⟨hcursors, hmembers⟩
  | none =>
    have hout := hassigned.none hslot
    change s'.Cursors ((slotted.map Prod.fst).erase x) (un.erase x) at hcursors
    rw [List.erase_of_not_mem hout] at hcursors hmembers
    exact .unslotted hslot hassigned hout ⟨hcursors, hmembers⟩

/-- An item that stands nowhere gets a slot and is linked as the newest. -/
theorem linkAsNewest_refines {x : T} {entries : Finset T} {slotted : List (T × Nat)} {un : List T}
    (h : s.Without x entries slotted un) (hassigned : Assigns s.assignedSlots slotted)
    (hentries : s.entries = Insert.insert x entries) (i : Nat) :
    ∃ s', { s with assignedSlots := HashMap.set s.assignedSlots x i }.linkAsNewest x = .ok s' ∧
      s'.Refines ⟨(x, i) :: slotted, un, s.freeSlots⟩ := by
  have hx : x ∉ slotted.map Prod.fst ++ un := fun hmem => ((h.members x).mp hmem).2 rfl
  have hslot : x ∉ slotted.map Prod.fst := fun hmem => hx (List.mem_append_left un hmem)
  obtain ⟨s', hlink, hcursors, he, ha, hf⟩ :=
    (h.cursors.frame s.entries (HashMap.set s.assignedSlots x i) s.freeSlots).linkAsNewest hx
  refine ⟨s', hlink, hcursors, fun y => ?_, ?_, hf⟩
  · rw [he]
    change y ∈ s.entries ↔ y ∈ x :: (slotted.map Prod.fst ++ un)
    rw [hentries, Finset.mem_insert, List.mem_cons, h.members]
    tauto
  · rw [ha]
    exact hassigned.set hslot i

/-- Without free slots the oldest item with a slot gives it up. -/
theorem takeOldestSlot_evicts {front : List (T × Nat)} {un : List T} {oldest : T} {i : Nat}
    (hcursors : s.Cursors ((front ++ [(oldest, i)]).map Prod.fst) un)
    (hassigned : Assigns s.assignedSlots (front ++ [(oldest, i)])) (hfree : s.freeSlots = []) :
    ∃ s', s.takeOldestSlot = (some i, s') ∧ s'.Cursors (front.map Prod.fst) (oldest :: un) ∧
      Assigns s'.assignedSlots front ∧ s'.entries = s.entries ∧ s'.freeSlots = [] := by
  have hsplit : (front ++ [(oldest, i)]).map Prod.fst ++ un =
      front.map Prod.fst ++ oldest :: un := by simp
  have hlinked := hcursors.linked
  have hnewest := hcursors.newest
  rw [hsplit] at hlinked hnewest
  have hoout : oldest ∉ front.map Prod.fst := hlinked.not_mem_split.1
  have holdest : s.oldestSlotted = some oldest := by
    rw [hcursors.oldestSlotted]
    simp
  have hslot : HashMap.get s.assignedSlots oldest = some i :=
    (hassigned oldest i).mpr (by simp)
  have hremoved : Assigns (HashMap.remove s.assignedSlots oldest) (front ++ []) :=
    hassigned.remove (by simpa using hoout)
  rw [List.append_nil] at hremoved
  refine ⟨{ s with
    oldestSlotted := HashMap.get s.linkNewer oldest
    assignedSlots := HashMap.remove s.assignedSlots oldest }, ?_, ⟨hlinked, hnewest, ?_⟩, hremoved,
    rfl, hfree⟩
  · rw [takeOldestSlot, hfree, holdest, ← hslot]
  · exact hlinked.newer_split

theorem insert_refines {r : Ranking T} (h : s.Refines r) (hslots : r.slotted = [] → r.free ≠ [])
    (x : T) : ∃ action s' r', s.insert x = .ok (action, s') ∧ Moves r (.insert x) action r' ∧
      s'.Refines r' := by
  by_cases hnewest : s.newest = some x
  · refine ⟨.none, s, r, ?_, .again (h.cursors.newest ▸ hnewest), h⟩
    rw [MRUSet.insert, if_pos hnewest]
  obtain ⟨slotted, un, free⟩ := r
  obtain ⟨s₁, hunlink, hunlinked, he, hfree⟩ := h.unlink x (Insert.insert x s.entries)
  cases hunlinked with
  | slotted hslot hassigned hrest =>
    obtain ⟨s', hlink, hrefines⟩ := linkAsNewest_refines
      (hrest.frame (HashMap.remove s₁.assignedSlots x) s₁.freeSlots) hassigned he _
    refine ⟨.none, s', _, ?_, .moved, hfree ▸ hrefines⟩
    rw [MRUSet.insert, if_neg hnewest]
    simp only [bind, Except.bind, hunlink, hslot, hlink]
    rfl
  | unslotted hslot hassigned hout hrest =>
    cases free with
    | cons i free =>
      have htake : s₁.takeOldestSlot = (some i, { s₁ with freeSlots := free }) := by
        rw [takeOldestSlot, hfree]
      obtain ⟨s', hlink, hrefines⟩ :=
        linkAsNewest_refines (hrest.frame s₁.assignedSlots free) hassigned he i
      refine ⟨.setSlot i x, s', _, ?_, .placed hout, hrefines⟩
      rw [MRUSet.insert, if_neg hnewest]
      simp only [bind, Except.bind, hunlink, hslot, htake, hlink]
      rfl
    | nil =>
      obtain ⟨front, ⟨oldest, i⟩, rfl⟩ := List.eq_nil_or_concat' slotted |>.resolve_left
        fun hnil => hslots hnil rfl
      obtain ⟨s₂, htake, hcursors, hassigned₂, he₂, hf₂⟩ :=
        takeOldestSlot_evicts hrest.cursors hassigned hfree
      have hmembers := hrest.members
      have horder : (front ++ [(oldest, i)]).map Prod.fst ++ un.erase x =
          front.map Prod.fst ++ oldest :: un.erase x := by simp
      rw [horder] at hmembers
      obtain ⟨s', hlink, hrefines⟩ :=
        linkAsNewest_refines ⟨hcursors, hmembers⟩ hassigned₂ (he₂.trans he) i
      refine ⟨.setSlot i x, s', _, ?_, .evicted hout, hf₂ ▸ hrefines⟩
      rw [MRUSet.insert, if_neg hnewest]
      simp only [bind, Except.bind, hunlink, hslot, htake, hlink]
      rfl

/-- A recovered slot goes to the newest item without one, unless nobody has a slot any more. -/
theorem reassignSlot_refines {slotted : List (T × Nat)} {un : List T} (i : Nat)
    (hcursors : s.Cursors (slotted.map Prod.fst) un) (hassigned : Assigns s.assignedSlots slotted)
    (hentries : ∀ y, y ∈ s.entries ↔ y ∈ slotted.map Prod.fst ++ un) :
    (∃ next un' s', slotted ≠ [] ∧ un = next :: un' ∧ s.reassignSlot i = (some next, s') ∧
        s'.Refines ⟨slotted ++ [(next, i)], un', s.freeSlots⟩) ∨
      ((slotted = [] ∨ un = []) ∧ ∃ s', s.reassignSlot i = (none, s') ∧
        s'.Refines ⟨slotted, un, s.freeSlots ++ [i]⟩) := by
  have hlinked := hcursors.linked
  have hfreed : { s with freeSlots := s.freeSlots ++ [i] }.Refines
      ⟨slotted, un, s.freeSlots ++ [i]⟩ :=
    ⟨hcursors.frame s.entries s.assignedSlots (s.freeSlots ++ [i]), hentries, hassigned, rfl⟩
  rcases List.eq_nil_or_concat' slotted with rfl | ⟨front, ⟨last, j⟩, rfl⟩
  · have hnone : s.oldestSlotted = none := hcursors.oldestSlotted
    refine .inr ⟨.inl rfl, _, ?_, hfreed⟩
    rw [reassignSlot, hnone]
    rfl
  · have horder : (front ++ [(last, j)]).map Prod.fst ++ un = front.map Prod.fst ++ last :: un := by
      simp
    have hlast : s.oldestSlotted = some last := by
      rw [hcursors.oldestSlotted]
      simp
    have hsplit := hlinked
    rw [horder] at hsplit
    have hnext : HashMap.get s.linkOlder last = un.head? := hsplit.older_split
    cases un with
    | nil =>
      refine .inr ⟨.inr rfl, _, ?_, hfreed⟩
      simp only [reassignSlot, hlast, Option.bind_some, hnext, List.head?_nil]
    | cons next un =>
      have hnextOut : next ∉ (front ++ [(last, j)]).map Prod.fst := fun hmem =>
        (List.nodup_append.mp hlinked.nodup).2.2 next hmem next List.mem_cons_self rfl
      have hmoved : (front ++ [(last, j)] ++ [(next, i)]).map Prod.fst ++ un =
          (front ++ [(last, j)]).map Prod.fst ++ next :: un := by simp
      refine .inl ⟨next, un, { s with
        assignedSlots := HashMap.set s.assignedSlots next i
        oldestSlotted := some next }, by simp, rfl, ?_, ⟨⟨?_, ?_, ?_⟩, ?_, ?_, rfl⟩⟩
      · simp only [reassignSlot, hlast, Option.bind_some, hnext, List.head?_cons]
      · exact hmoved ▸ hlinked
      · exact hmoved ▸ hcursors.newest
      · change some next = ((front ++ [(last, j)] ++ [(next, i)]).map Prod.fst).getLast?
        simp
      · intro y
        change y ∈ s.entries ↔ y ∈ (front ++ [(last, j)] ++ [(next, i)]).map Prod.fst ++ un
        rw [hmoved]
        exact hentries y
      · exact (hassigned.set hnextOut i).congr fun p => by simp [or_comm, or_assoc]

theorem remove_refines {r : Ranking T} (h : s.Refines r) (x : T) :
    ∃ action s' r', s.remove x = .ok (action, s') ∧ Moves r (.remove x) action r' ∧
      s'.Refines r' := by
  obtain ⟨slotted, un, free⟩ := r
  obtain ⟨s₁, hunlink, hunlinked, he, hfree⟩ := h.unlink x s.entries
  have hunlink' : s.unlink x = .ok s₁ := hunlink
  have hentries {slotted : List (T × Nat)} {un : List T} (hrest : s₁.Without x s.entries slotted un)
      (y : T) : y ∈ s₁.entries.erase x ↔ y ∈ slotted.map Prod.fst ++ un := by
    rw [hrest.members, Finset.mem_erase, he, and_comm]
  cases hunlinked with
  | unslotted hslot hassigned hout hrest =>
    refine ⟨.none, { s₁ with entries := s₁.entries.erase x }, ⟨slotted, un.erase x, free⟩, ?_,
      .forgotten hout, ⟨hrest.cursors.frame _ _ _, hentries hrest, hassigned, hfree⟩⟩
    simp only [MRUSet.remove, bind, Except.bind, hunlink', hslot]
    rfl
  | @slotted front back _ i hslot hassigned hrest =>
    rcases reassignSlot_refines i (hrest.cursors.frame (s₁.entries.erase x)
        (HashMap.remove s₁.assignedSlots x) s₁.freeSlots) hassigned (hentries hrest) with
      ⟨next, un', s', hne, rfl, hreassign, hrefines⟩ | ⟨hempty, s', hreassign, hrefines⟩
    · refine ⟨.setSlot i next, s', _, ?_, .passedOn hne, hfree ▸ hrefines⟩
      simp only [MRUSet.remove, bind, Except.bind, hunlink', hslot, hreassign]
      rfl
    · refine ⟨.clearSlot i, s', _, ?_, .freed hempty, hfree ▸ hrefines⟩
      simp only [MRUSet.remove, bind, Except.bind, hunlink', hslot, hreassign]
      rfl

/-- No operation fails while somebody has a slot or a slot is free, and each moves the ranking. -/
theorem perform_refines {r : Ranking T} (h : s.Refines r) (hslots : r.slotted = [] → r.free ≠ [])
    (op : Operation T) : ∃ action s' r', s.perform op = .ok (action, s') ∧ Moves r op action r' ∧
      s'.Refines r' := by
  cases op with
  | insert x => exact insert_refines h hslots x
  | remove x => exact remove_refines h x

theorem refines_new {n : Nat} (hn : 0 < n) :
    ∃ s : MRUSet T, new n = .ok s ∧ s.Refines ⟨[], [], List.range n⟩ := by
  have hne : (n != 0) = true := by simpa using Nat.ne_of_gt hn
  refine ⟨⟨∅, ∅, ∅, ∅, none, none, List.range n⟩, ?_, ⟨⟨linked_nil, rfl, rfl⟩, ?_, ?_, rfl⟩⟩
  · rw [new, assert, if_pos hne]
    rfl
  · simp [Ranking.order, Ranking.keys]
  · simp [Assigns, HashMap.get]

end ZigbeeStack.MRUSet
