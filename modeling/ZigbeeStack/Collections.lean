import Mathlib.Data.List.AList
import Mathlib.Data.Prod.Basic
import Mathlib.Tactic.Common

/-! Finite maps whose iteration order is not fixed, and two-way maps. -/

/-! Hash maps are association lists without duplicate keys; an iteration visits the keys in an
order that is any permutation of them, chosen by whoever runs the program. -/
namespace HashMap
variable {κ ν : Type*}

abbrev Map (κ ν : Type*) := AList fun _ : κ => ν

def Enumerates (order : List κ) (m : Map κ ν) : Prop := order.Perm m.keys

theorem order_nodup {order : List κ} {m : Map κ ν} (h : Enumerates order m) : order.Nodup :=
  h.nodup_iff.mpr m.keys_nodup

variable [DecidableEq κ]

instance (order : List κ) (m : Map κ ν) : Decidable (Enumerates order m) :=
  inferInstanceAs (Decidable (order.Perm m.keys))

def get (m : Map κ ν) (k : κ) : Option ν := m.lookup k
def set (m : Map κ ν) (k : κ) (v : ν) : Map κ ν := m.insert k v
def remove (m : Map κ ν) (k : κ) : Map κ ν := m.erase k

def mapValues (f : ν → ν) (m : Map κ ν) : Map κ ν where
  entries := m.entries.map fun e => ⟨e.1, f e.2⟩
  nodupKeys := by
    have hkeys : (m.entries.map fun e => (⟨e.1, f e.2⟩ : Sigma fun _ : κ => ν)).keys = m.keys := by
      simp [List.keys, AList.keys, Function.comp_def]
    rw [List.NodupKeys, hkeys]
    exact m.keys_nodup

theorem get_set (m : Map κ ν) (k k' : κ) (v : ν) :
    get (set m k v) k' = if k' = k then some v else get m k' := by
  by_cases h : k' = k
  · subst h
    simp [get, set]
  · simp [get, set, h, AList.lookup_insert_ne]

@[simp] theorem get_set_self (m : Map κ ν) (k : κ) (v : ν) : get (set m k v) k = some v := by
  simp [get_set]

theorem get_set_ne (m : Map κ ν) {k k' : κ} (v : ν) (h : k' ≠ k) :
    get (set m k v) k' = get m k' := by
  simp [get_set, h]

theorem get_remove (m : Map κ ν) (k k' : κ) :
    get (remove m k) k' = if k' = k then none else get m k' := by
  by_cases h : k' = k
  · subst h
    simp [get, remove]
  · simp [get, remove, h, AList.lookup_erase_ne]

theorem get_eq_some_iff {m : Map κ ν} {k : κ} {v : ν} : get m k = some v ↔ ⟨k, v⟩ ∈ m.entries :=
  AList.mem_lookup_iff

theorem get_mapValues (f : ν → ν) (m : Map κ ν) (k : κ) :
    get (mapValues f m) k = (get m k).map f := by
  have h := List.dlookup_map₂ (l := m.entries) (f := fun _ => f) k
  exact h

def retain (p : ν → Bool) (m : Map κ ν) : Map κ ν where
  entries := m.entries.filter fun e => p e.2
  nodupKeys := m.nodupKeys.sublist List.filter_sublist

theorem get_retain (p : ν → Bool) (m : Map κ ν) (k : κ) :
    get (retain p m) k = (get m k).filter p := by
  ext v
  have hmem : get (retain p m) k = some v ↔ ⟨k, v⟩ ∈ m.entries ∧ p v := by
    rw [get_eq_some_iff]
    exact List.mem_filter
  rw [hmem, Option.filter_eq_some_iff, get_eq_some_iff]

/-- A pass that changes no value changes nothing. -/
theorem mapValues_eq_self {f : ν → ν} {m : Map κ ν} (h : ∀ k v, get m k = some v → f v = v) :
    mapValues f m = m := by
  apply AList.ext
  refine (List.map_congr_left fun e he => ?_).trans (List.map_id _)
  obtain ⟨k, v⟩ := e
  rw [h k v (get_eq_some_iff.mpr he)]
  rfl

theorem mem_order {order : List κ} {m : Map κ ν} (h : Enumerates order m) {k : κ} {v : ν}
    (hk : get m k = some v) : k ∈ order := by
  have hmem : k ∈ m := AList.lookup_isSome.mp (by rw [← get, hk]; rfl)
  exact h.mem_iff.mpr (AList.mem_keys.mp hmem)

def values (m : Map κ ν) : List ν := m.entries.map fun e => e.2

theorem values_perm {m : Map κ ν} {pairs : List (κ × ν)} (hkeys : (pairs.map Prod.fst).Nodup)
    (h : ∀ k v, get m k = some v ↔ (k, v) ∈ pairs) : (values m).Perm (pairs.map Prod.snd) := by
  have hnodup : (m.entries.map fun e => (e.1, e.2)).Nodup := by
    refine List.Nodup.of_map Prod.fst ?_
    rw [List.map_map]
    exact m.keys_nodup
  have hperm : (m.entries.map fun e => (e.1, e.2)).Perm pairs := by
    refine (List.perm_ext_iff_of_nodup hnodup (List.Nodup.of_map Prod.fst hkeys)).mpr ?_
    rintro ⟨k, v⟩
    rw [← h, get_eq_some_iff]
    simp [List.mem_map]
  have hvalues := hperm.map Prod.snd
  rw [List.map_map] at hvalues
  exact hvalues

def total (f : ν → Nat) (m : Map κ ν) : Nat := m.entries.foldr (fun e n => f e.2 + n) 0

omit [DecidableEq κ] in
theorem foldr_total (f : ν → Nat) (front back : List (Sigma fun _ : κ => ν)) (k : κ) (v : ν) :
    (front ++ ⟨k, v⟩ :: back).foldr (fun e n => f e.2 + n) 0 =
      f v + (front ++ back).foldr (fun e n => f e.2 + n) 0 := by
  induction front with
  | nil => rfl
  | cons e front ih =>
    simp only [List.cons_append, List.foldr_cons, ih]
    omega

theorem total_remove (f : ν → Nat) {m : Map κ ν} {k : κ} {v : ν} (h : get m k = some v) :
    total f m = f v + total f (remove m k) := by
  have hkey : k ∈ m.entries.keys :=
    AList.mem_keys.mp (AList.lookup_isSome.mp (by rw [← get, h]; rfl))
  obtain ⟨v', front, back, -, hentries, herase⟩ := List.exists_of_kerase hkey
  have hv : v' = v := by
    have hmem : (⟨k, v'⟩ : Sigma fun _ : κ => ν) ∈ m.entries := by rw [hentries]; simp
    exact Option.some.inj ((get_eq_some_iff.mpr hmem).symm.trans h)
  subst hv
  have hremove : (remove m k).entries = front ++ back := herase
  rw [total, total, hremove, hentries, foldr_total]

theorem total_set (f : ν → Nat) {m : Map κ ν} {k : κ} {v : ν} (v' : ν) (h : get m k = some v) :
    total f (set m k v') + f v = total f m + f v' := by
  have hset : total f (set m k v') = f v' + total f (remove m k) := by
    simp only [total, set, remove, AList.entries_insert, List.foldr_cons]
    rfl
  rw [hset, total_remove f h]
  omega

end HashMap

/-! Two-way maps: pairs of which no two share a left value, and no two a right value. -/

structure Removes {α β M : Type} [Membership (α × β) M] (test : α × β → Prop) (m : M)
    (out : Option (α × β) × M) : Prop where
  taken_iff : ∀ p, out.1 = some p ↔ p ∈ m ∧ test p
  mem_iff : ∀ p, p ∈ out.2 ↔ p ∈ m ∧ ¬ test p

namespace Removes
variable {α β M : Type} [Membership (α × β) M] {test : α × β → Prop} {m m' : M} {p : α × β}

theorem of_some (h : Removes test m (some p, m')) : p ∈ m ∧ test p := (h.taken_iff p).mp rfl

theorem of_none (h : Removes test m (none, m')) :
    (∀ p ∈ m, ¬ test p) ∧ ∀ p, p ∈ m' ↔ p ∈ m := by
  have hno : ∀ p ∈ m, ¬ test p := fun p hp htest => by cases (h.taken_iff p).mpr ⟨hp, htest⟩
  exact ⟨hno, fun p => (h.mem_iff p).trans ⟨And.left, fun hp => ⟨hp, hno p hp⟩⟩⟩

end Removes

/-- A two-way map, by what its documentation says: the pairs that a new one shares a value with make
way for it. -/
class TwoWayMap (M : Type → Type → Type) [∀ α β : Type, Membership (α × β) (M α β)] where
  empty {α β : Type} : M α β
  insert {α β : Type} [DecidableEq α] [DecidableEq β] : M α β → α → β → M α β
  getByLeft {α β : Type} [DecidableEq α] : M α β → α → Option β
  getByRight {α β : Type} [DecidableEq β] : M α β → β → Option α
  removeByLeft {α β : Type} [DecidableEq α] : M α β → α → Option (α × β) × M α β
  removeByRight {α β : Type} [DecidableEq β] : M α β → β → Option (α × β) × M α β
  right_unique {α β : Type} {m : M α β} {l : α} {r r' : β} : (l, r) ∈ m → (l, r') ∈ m → r = r'
  left_unique {α β : Type} {m : M α β} {l l' : α} {r : β} : (l, r) ∈ m → (l', r) ∈ m → l = l'
  not_mem_empty {α β : Type} (p : α × β) : p ∉ (empty : M α β)
  mem_insert {α β : Type} [DecidableEq α] [DecidableEq β] {m : M α β} {l : α} {r : β}
    {p : α × β} : p ∈ insert m l r ↔ p = (l, r) ∨ (p ∈ m ∧ p.1 ≠ l ∧ p.2 ≠ r)
  getByLeft_eq_some_iff {α β : Type} [DecidableEq α] {m : M α β} {l : α} {r : β} :
    getByLeft m l = some r ↔ (l, r) ∈ m
  getByRight_eq_some_iff {α β : Type} [DecidableEq β] {m : M α β} {l : α} {r : β} :
    getByRight m r = some l ↔ (l, r) ∈ m
  removeByLeft_removes {α β : Type} [DecidableEq α] (m : M α β) (l : α) :
    Removes (fun p => p.1 = l) m (removeByLeft m l)
  removeByRight_removes {α β : Type} [DecidableEq β] (m : M α β) (r : β) :
    Removes (fun p => p.2 = r) m (removeByRight m r)

/-- Two maps with the same pairs give the same answers, whatever they are made of. -/
theorem TwoWayMap.getByRight_congr {M M' : Type → Type → Type}
    [∀ α β : Type, Membership (α × β) (M α β)] [∀ α β : Type, Membership (α × β) (M' α β)]
    [TwoWayMap M] [TwoWayMap M'] {α β : Type} [DecidableEq β] {m : M α β} {m' : M' α β}
    (h : ∀ p, p ∈ m ↔ p ∈ m') (r : β) : getByRight m r = getByRight m' r :=
  Option.ext fun l => by rw [getByRight_eq_some_iff, getByRight_eq_some_iff, h]

structure BiMap (α β : Type) where
  pairs : List (α × β)
  left_nodup : (pairs.map Prod.fst).Nodup
  right_nodup : (pairs.map Prod.snd).Nodup

namespace BiMap
variable {α β : Type}

instance : Membership (α × β) (BiMap α β) := ⟨fun m p => p ∈ m.pairs⟩

def filter (p : α × β → Bool) (m : BiMap α β) : BiMap α β :=
  ⟨m.pairs.filter p, m.left_nodup.sublist (List.filter_sublist.map _),
    m.right_nodup.sublist (List.filter_sublist.map _)⟩

def insert [DecidableEq α] [DecidableEq β] (m : BiMap α β) (l : α) (r : β) : BiMap α β where
  pairs := (l, r) :: (m.filter fun p => p.1 ≠ l ∧ p.2 ≠ r).pairs
  left_nodup := by
    rw [List.map_cons, List.nodup_cons]
    refine ⟨?_, (m.filter _).left_nodup⟩
    simp only [filter, List.mem_map, List.mem_filter, decide_eq_true_eq, not_exists, not_and]
    rintro p ⟨-, hp, -⟩ rfl
    exact hp rfl
  right_nodup := by
    rw [List.map_cons, List.nodup_cons]
    refine ⟨?_, (m.filter _).right_nodup⟩
    simp only [filter, List.mem_map, List.mem_filter, decide_eq_true_eq, not_exists, not_and]
    rintro p ⟨-, -, hp⟩ rfl
    exact hp rfl

section Key
variable {κ : Type} [DecidableEq κ] {f : α × β → κ} {m : BiMap α β} {k : κ}

theorem find?_eq_some_iff (hnodup : (m.pairs.map f).Nodup) {p : α × β} :
    (m.pairs.find? fun p => f p = k) = some p ↔ p ∈ m ∧ f p = k := by
  constructor
  · intro hfind
    exact ⟨List.mem_of_find?_eq_some hfind, by simpa using List.find?_some hfind⟩
  · rintro ⟨hmem, hk⟩
    obtain ⟨p', hfind⟩ := Option.isSome_iff_exists.mp
      (List.find?_isSome.mpr ⟨p, hmem, decide_eq_true hk⟩ :
        (m.pairs.find? fun p => f p = k).isSome)
    have hk' : f p' = k := by simpa using List.find?_some hfind
    rw [hfind, List.inj_on_of_nodup_map hnodup (List.mem_of_find?_eq_some hfind) hmem
      (hk'.trans hk.symm)]

theorem removes_filter (hnodup : (m.pairs.map f).Nodup) :
    Removes (fun p => f p = k) m (m.pairs.find? fun p => f p = k, m.filter fun p => f p ≠ k) where
  taken_iff _ := find?_eq_some_iff hnodup
  mem_iff p := by
    change p ∈ m.pairs.filter _ ↔ _
    rw [List.mem_filter, decide_eq_true_eq]
    rfl

end Key

instance : TwoWayMap BiMap where
  empty := ⟨[], by simp, by simp⟩
  insert := insert
  getByLeft m l := (m.pairs.find? fun p => p.1 = l).map Prod.snd
  getByRight m r := (m.pairs.find? fun p => p.2 = r).map Prod.fst
  removeByLeft m l := (m.pairs.find? fun p => p.1 = l, m.filter fun p => p.1 ≠ l)
  removeByRight m r := (m.pairs.find? fun p => p.2 = r, m.filter fun p => p.2 ≠ r)
  right_unique {_ _ m _ _ _} h h' :=
    congrArg Prod.snd (List.inj_on_of_nodup_map m.left_nodup h h' rfl)
  left_unique {_ _ m _ _ _} h h' :=
    congrArg Prod.fst (List.inj_on_of_nodup_map m.right_nodup h h' rfl)
  not_mem_empty _ := List.not_mem_nil
  mem_insert {_ _ _ _ m l r p} := by
    change p ∈ (l, r) :: m.pairs.filter _ ↔ _
    rw [List.mem_cons, List.mem_filter, decide_eq_true_eq]
    rfl
  getByLeft_eq_some_iff {_ _ _ m _ _} := by
    simp [Option.map_eq_some_iff, find?_eq_some_iff m.left_nodup]
  getByRight_eq_some_iff {_ _ _ m _ _} := by
    simp [Option.map_eq_some_iff, find?_eq_some_iff m.right_nodup]
  removeByLeft_removes m _ := removes_filter m.left_nodup
  removeByRight_removes m _ := removes_filter m.right_nodup

end BiMap
