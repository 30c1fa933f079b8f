import Mathlib.Data.List.Nodup
import Mathlib.Tactic.Common

/-! Doubly linked chains. The links are two partial functions, and a list says in which order they
lead through the members of the chain. -/
namespace LinkedChain
variable {α : Type*}

def Adjacent : List α → α → α → Prop
  | [], _, _ => False
  | x :: l, a, b => (x = a ∧ l.head? = some b) ∨ Adjacent l a b

theorem adjacent_append {l m : List α} {a b : α} :
    Adjacent (l ++ m) a b ↔
      Adjacent l a b ∨ (l.getLast? = some a ∧ m.head? = some b) ∨ Adjacent m a b := by
  induction l with
  | nil => simp [Adjacent]
  | cons x l ih =>
    rw [List.cons_append, Adjacent, ih, Adjacent]
    cases l with
    | nil => simp [Adjacent]
    | cons y l =>
      rw [List.getLast?_cons_cons, List.cons_append, List.head?_cons, List.head?_cons]
      tauto

theorem Adjacent.mem_left {l : List α} {a b : α} (h : Adjacent l a b) : a ∈ l := by
  induction l with
  | nil => cases h
  | cons x l ih =>
    rcases h with ⟨rfl, -⟩ | h
    · exact List.mem_cons_self
    · exact List.mem_cons_of_mem x (ih h)

theorem Adjacent.mem_right {l : List α} {a b : α} (h : Adjacent l a b) : b ∈ l := by
  induction l with
  | nil => cases h
  | cons x l ih =>
    rcases h with ⟨-, hb⟩ | h
    · exact List.mem_cons_of_mem x (List.mem_of_mem_head? hb)
    · exact List.mem_cons_of_mem x (ih h)

section Split
variable {front back : List α} {x a b : α}

/-- What follows a member that stands at one place only. -/
theorem adjacent_split_right (hfront : x ∉ front) (hback : x ∉ back) :
    Adjacent (front ++ x :: back) x b ↔ back.head? = some b := by
  rw [adjacent_append, Adjacent]
  constructor
  · rintro (h | ⟨h, -⟩ | ⟨-, h⟩ | h)
    · exact absurd h.mem_left hfront
    · exact absurd (List.mem_of_mem_getLast? h) hfront
    · exact h
    · exact absurd h.mem_left hback
  · intro h
    exact .inr (.inr (.inl ⟨rfl, h⟩))

theorem adjacent_split_left (hfront : x ∉ front) (hback : x ∉ back) :
    Adjacent (front ++ x :: back) a x ↔ front.getLast? = some a := by
  rw [adjacent_append, Adjacent, List.head?_cons]
  constructor
  · rintro (h | ⟨h, -⟩ | ⟨-, h⟩ | h)
    · exact absurd h.mem_right hfront
    · exact h
    · exact absurd (List.mem_of_mem_head? h) hback
    · exact absurd h.mem_right hback
  · intro h
    exact .inr (.inl ⟨h, rfl⟩)

/-- Without it, its neighbours stand next to each other. -/
theorem adjacent_without (ha : a ≠ x) (hb : b ≠ x) :
    Adjacent (front ++ back) a b ↔ Adjacent (front ++ x :: back) a b ∨
      (front.getLast? = some a ∧ back.head? = some b) := by
  rw [adjacent_append, adjacent_append, Adjacent, List.head?_cons]
  constructor
  · rintro (h | h | h)
    · exact .inl (.inl h)
    · exact .inr h
    · exact .inl (.inr (.inr (.inr h)))
  · rintro ((h | ⟨-, h⟩ | ⟨h, -⟩ | h) | h)
    · exact .inl h
    · exact absurd (Option.some.inj h).symm hb
    · exact absurd h.symm ha
    · exact .inr (.inr h)
    · exact .inr (.inl h)

end Split

theorem erase_append_nodup [DecidableEq α] {l m : List α} (h : (l ++ m).Nodup) (x : α) :
    (l ++ m).erase x = l.erase x ++ m.erase x := by
  rw [List.erase_append]
  split
  · rename_i hl
    have hm : x ∉ m := fun hm => (List.nodup_append.mp h).2.2 x hl x hm rfl
    rw [List.erase_of_not_mem hm]
  · rename_i hl
    rw [List.erase_of_not_mem hl]

structure Linked (order : List α) (older newer : α → Option α) : Prop where
  nodup : order.Nodup
  older_iff : ∀ a b, older a = some b ↔ Adjacent order a b
  inverse : ∀ a b, older a = some b ↔ newer b = some a

theorem linked_nil : Linked ([] : List α) (fun _ => none) fun _ => none where
  nodup := .nil
  older_iff _ _ := by simp [Adjacent]
  inverse _ _ := by simp

namespace Linked
variable {order : List α} {older newer : α → Option α} {a b x : α}

theorem mem_of_older (h : Linked order older newer) (hlink : older a = some b) :
    a ∈ order ∧ b ∈ order :=
  have hadj := (h.older_iff a b).mp hlink
  ⟨hadj.mem_left, hadj.mem_right⟩

theorem older_none (h : Linked order older newer) (hx : x ∉ order) : older x = none :=
  Option.eq_none_iff_forall_ne_some.mpr fun _ hlink => hx (h.mem_of_older hlink).1

theorem newer_none (h : Linked order older newer) (hx : x ∉ order) : newer x = none :=
  Option.eq_none_iff_forall_ne_some.mpr fun _ hlink =>
    hx (h.mem_of_older ((h.inverse _ _).mpr hlink)).2

section Split
variable {front back : List α}

theorem not_mem_split (h : Linked (front ++ x :: back) older newer) : x ∉ front ∧ x ∉ back := by
  obtain ⟨-, hnodup, hdisjoint⟩ := List.nodup_append.mp h.nodup
  exact ⟨fun hx => hdisjoint x hx x List.mem_cons_self rfl, (List.nodup_cons.mp hnodup).1⟩

theorem older_split (h : Linked (front ++ x :: back) older newer) : older x = back.head? := by
  obtain ⟨hfront, hback⟩ := h.not_mem_split
  ext b
  rw [h.older_iff, adjacent_split_right hfront hback]

theorem newer_split (h : Linked (front ++ x :: back) older newer) :
    newer x = front.getLast? := by
  obtain ⟨hfront, hback⟩ := h.not_mem_split
  ext a
  rw [← h.inverse, h.older_iff, adjacent_split_left hfront hback]

end Split

variable [DecidableEq α]

def passOver (x : α) (link back : α → Option α) (a : α) : Option α :=
  if back x = some a then link x else if a = x then none else link a

theorem passOver_inverse (hinverse : ∀ a b, older a = some b ↔ newer b = some a) (x a b : α) :
    passOver x older newer a = some b ↔ passOver x newer older b = some a := by
  rw [passOver, passOver]
  by_cases hnewer : newer x = some a
  · have ha := (hinverse a x).mpr hnewer
    by_cases holder : older x = some b
    · rw [if_pos hnewer, if_pos holder, hnewer, holder]
      simp
    · rw [if_pos hnewer, if_neg holder]
      refine ⟨fun h => absurd h holder, fun h => ?_⟩
      split at h
      · cases h
      · rename_i hb
        rw [(hinverse a b).mpr h] at ha
        exact absurd (Option.some.inj ha) hb
  · rw [if_neg hnewer]
    by_cases holder : older x = some b
    · have hb := (hinverse x b).mp holder
      rw [if_pos holder]
      refine ⟨fun h => ?_, fun h => absurd h hnewer⟩
      split at h
      · cases h
      · rename_i ha
        rw [(hinverse a b).mp h] at hb
        exact absurd (Option.some.inj hb) ha
    · rw [if_neg holder]
      by_cases ha : a = x
      · subst ha
        by_cases hb : b = a
        · simp [hb]
        · simp [hb, ← hinverse, holder]
      · by_cases hb : b = x
        · subst hb
          simp [ha, hinverse, hnewer]
        · rw [if_neg ha, if_neg hb, hinverse]

theorem passOver_iff {front back : List α} (h : Linked (front ++ x :: back) older newer)
    (a b : α) : passOver x older newer a = some b ↔ Adjacent (front ++ back) a b := by
  obtain ⟨hfront, hback⟩ := h.not_mem_split
  have hwithout : x ∉ front ++ back := by simp [hfront, hback]
  rw [passOver, h.older_split, h.newer_split]
  by_cases hlast : front.getLast? = some a
  · have ha : a ≠ x := fun heq => hfront (heq ▸ List.mem_of_mem_getLast? hlast)
    have hax : older a = some x :=
      (h.older_iff a x).mpr ((adjacent_split_left hfront hback).mpr hlast)
    rw [if_pos hlast]
    refine ⟨fun hhead => adjacent_append.mpr (.inr (.inl ⟨hlast, hhead⟩)), fun hadj => ?_⟩
    have hb : b ≠ x := fun heq => hwithout (heq ▸ hadj.mem_right)
    rcases (adjacent_without ha hb).mp hadj with hadj | ⟨-, hhead⟩
    · rw [(h.older_iff a b).mpr hadj] at hax
      exact absurd (Option.some.inj hax) hb
    · exact hhead
  · rw [if_neg hlast]
    by_cases ha : a = x
    · rw [if_pos ha]
      exact ⟨fun hnone => (by cases hnone), fun hadj => absurd (ha ▸ hadj.mem_left) hwithout⟩
    · rw [if_neg ha, h.older_iff]
      by_cases hb : b = x
      · rw [hb, adjacent_split_left hfront hback]
        exact ⟨fun h => absurd h hlast, fun hadj => absurd hadj.mem_right hwithout⟩
      · have hiff := @adjacent_without _ front back x a b ha hb
        simp only [hlast, false_and, or_false] at hiff
        exact hiff.symm

/-- A member is unlinked by linking its neighbours with each other. -/
theorem unlink (h : Linked order older newer) (x : α) :
    Linked (order.erase x) (passOver x older newer) (passOver x newer older) where
  nodup := h.nodup.erase x
  older_iff a b := by
    by_cases hx : x ∈ order
    · obtain ⟨front, back, rfl⟩ := List.append_of_mem hx
      rw [List.erase_append_right _ h.not_mem_split.1, List.erase_cons_head]
      exact h.passOver_iff a b
    · rw [List.erase_of_not_mem hx, passOver, h.newer_none hx, if_neg (by simp), ← h.older_iff]
      by_cases ha : a = x
      · rw [if_pos ha, ha, h.older_none hx]
      · rw [if_neg ha]
  inverse := passOver_inverse h.inverse x

omit [DecidableEq α] in
theorem newer_head (h : Linked order older newer) {b : α} (hb : order.head? = some b) :
    newer b = none := by
  obtain ⟨rest, rfl⟩ := List.head?_eq_some_iff.mp hb
  have hsplit : Linked ([] ++ b :: rest) older newer := h
  exact hsplit.newer_split

omit [DecidableEq α] in
/-- No member is linked with itself. -/
theorem older_ne (h : Linked order older newer) (hlink : older a = some b) : a ≠ b := by
  rintro rfl
  obtain ⟨front, back, rfl⟩ := List.append_of_mem (h.mem_of_older hlink).1
  rw [h.older_split] at hlink
  exact h.not_mem_split.2 (List.mem_of_mem_head? hlink)

theorem head?_erase (h : Linked order older newer) (x : α) :
    (order.erase x).head? = if order.head? = some x then older x else order.head? := by
  cases order with
  | nil => simp
  | cons y rest =>
    by_cases hy : y = x
    · subst hy
      have hsplit : Linked ([] ++ y :: rest) older newer := h
      rw [List.erase_cons_head, List.head?_cons, if_pos rfl, hsplit.older_split]
    · rw [List.erase_cons_tail (by simpa using hy), List.head?_cons, List.head?_cons,
        if_neg (by simpa using hy)]

/-- The last member of a front part moves to the next newer one when it is unlinked. -/
theorem getLast?_erase {front back : List α} (h : Linked (front ++ back) older newer) (x : α) :
    (front.erase x).getLast? = if front.getLast? = some x then newer x else front.getLast? := by
  cases hlast : front.getLast? with
  | none =>
    rw [List.getLast?_eq_none_iff.mp hlast]
    simp
  | some y =>
    obtain ⟨rest, rfl⟩ := List.getLast?_eq_some_iff.mp hlast
    rw [List.append_assoc] at h
    have hsplit : Linked (rest ++ y :: back) older newer := h
    by_cases hy : y = x
    · subst hy
      rw [if_pos rfl, hsplit.newer_split, List.erase_append_right _ hsplit.not_mem_split.1]
      simp
    · rw [if_neg (by simpa using hy), List.erase_append]
      split
      · simp
      · simp [hy]

/-- A new member is linked before all others. -/
theorem push (h : Linked order older newer) (hx : x ∉ order) : Linked (x :: order)
    (fun a => if a = x then order.head? else older a)
    (fun b => if order.head? = some b then some x else newer b) where
  nodup := List.nodup_cons.mpr ⟨hx, h.nodup⟩
  older_iff a b := by
    rw [Adjacent]
    by_cases ha : a = x
    · rw [if_pos ha, ← h.older_iff, h.older_none (ha ▸ hx)]
      simp [ha]
    · rw [if_neg ha, h.older_iff]
      simp [Ne.symm ha]
  inverse a b := by
    by_cases ha : a = x
    · subst ha
      have hnewer : newer b ≠ some a := fun hb => hx (h.mem_of_older ((h.inverse a b).mpr hb)).1
      by_cases hb : order.head? = some b
      · simp [hb]
      · simp [hb, hnewer]
    · by_cases hb : order.head? = some b
      · rw [if_neg ha, if_pos hb, h.inverse, h.newer_head hb]
        simp [Ne.symm ha]
      · rw [if_neg ha, if_neg hb, h.inverse]

end Linked
end LinkedChain
