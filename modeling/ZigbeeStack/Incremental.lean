import Mathlib.Data.List.Basic

/-! Decoders of a stream that comes in parts. What they find does not depend on the parts. -/
namespace Incremental
variable {α β : Type*}

structure Decoder (α β : Type*) where
  next : List β → Option (α × List β)
  shrinks : ∀ {xs a rest}, next xs = some (a, rest) → rest.length < xs.length
  stable : ∀ {xs a rest}, next xs = some (a, rest) →
    ∀ more, next (xs ++ more) = some (a, rest ++ more)

namespace Decoder
variable {d : Decoder α β} {xs rest : List β} {a : α}

def items (d : Decoder α β) (xs : List β) : List α :=
  match _h : d.next xs with
  | some (a, rest) => a :: d.items rest
  | none => []
termination_by xs.length
decreasing_by exact d.shrinks _h

def unread (d : Decoder α β) (xs : List β) : List β :=
  match _h : d.next xs with
  | some (_, rest) => d.unread rest
  | none => xs
termination_by xs.length
decreasing_by exact d.shrinks _h

theorem items_next (h : d.next xs = some (a, rest)) : d.items xs = a :: d.items rest := by
  rw [items]
  split
  · rename_i h'
    cases h.symm.trans h'
    rfl
  · rename_i h'
    cases h.symm.trans h'

theorem items_done (h : d.next xs = none) : d.items xs = [] := by
  rw [items]
  split
  · rename_i h'
    cases h.symm.trans h'
  · rfl

theorem unread_next (h : d.next xs = some (a, rest)) : d.unread xs = d.unread rest := by
  rw [unread]
  split
  · rename_i h'
    cases h.symm.trans h'
    rfl
  · rename_i h'
    cases h.symm.trans h'

theorem unread_done (h : d.next xs = none) : d.unread xs = xs := by
  rw [unread]
  split
  · rename_i h'
    cases h.symm.trans h'
  · rfl

/-- Item by item. -/
theorem induction {P : List β → Prop} (hdone : ∀ xs, d.next xs = none → P xs)
    (hnext : ∀ xs a rest, d.next xs = some (a, rest) → P rest → P xs) (xs : List β) : P xs := by
  induction hn : xs.length using Nat.strongRecOn generalizing xs with
  | ind n ih =>
    cases h : d.next xs with
    | none => exact hdone xs h
    | some next =>
      obtain ⟨a, rest⟩ := next
      exact hnext xs a rest h (ih rest.length (hn ▸ d.shrinks h) rest rfl)

/-- Decoding goes on where it has stopped. -/
theorem items_append (xs more : List β) :
    d.items (xs ++ more) = d.items xs ++ d.items (d.unread xs ++ more) := by
  induction xs using d.induction with
  | hdone xs h => rw [items_done h, unread_done h, List.nil_append]
  | hnext xs a rest h ih =>
    rw [items_next (d.stable h more), items_next h, unread_next h, ih, List.cons_append]

theorem unread_append (xs more : List β) :
    d.unread (xs ++ more) = d.unread (d.unread xs ++ more) := by
  induction xs using d.induction with
  | hdone xs h => rw [unread_done h]
  | hnext xs a rest h ih => rw [unread_next (d.stable h more), unread_next h, ih]

theorem next_of_items (h : d.items xs = []) : d.next xs = none := by
  cases hn : d.next xs with
  | none => rfl
  | some next => cases (items_next hn).symm.trans h

theorem unread_of_items (h : d.items xs = []) : d.unread xs = xs := unread_done (next_of_items h)

theorem unread_append_congr {ys : List β} (h : d.unread xs = d.unread ys) (more : List β) :
    d.unread (xs ++ more) = d.unread (ys ++ more) := by
  rw [unread_append, h, ← unread_append]

end Decoder
end Incremental
