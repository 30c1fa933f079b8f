import Mathlib.Data.List.Nodup
import Mathlib.Tactic.Common

/-! A line of items that join at its end and leave from anywhere, read off the history of what
happened to it. Histories list their steps newest first. -/
namespace Roster
variable {τ α κ : Type*}

structure Moves (τ α κ : Type*) where
  name : α → κ
  joins : τ → Option α
  leaves : τ → Option κ

namespace Moves
variable (m : Moves τ α κ)

def joined (h : List τ) : List α := h.filterMap m.joins
def left (h : List τ) : List κ := h.filterMap m.leaves

end Moves

variable [DecidableEq κ] {m : Moves τ α κ} {h : List τ} {content : List α}

structure Line (m : Moves τ α κ) (h : List τ) (content : List α) : Prop where
  content_eq : content = ((m.joined h).filter fun a => m.name a ∉ m.left h).reverse
  joined_nodup : ((m.joined h).map m.name).Nodup
  left_nodup : (m.left h).Nodup
  known : ∀ k ∈ m.left h, k ∈ (m.joined h).map m.name

theorem Line.empty : Line m [] [] := ⟨rfl, List.nodup_nil, List.nodup_nil, fun _ hk => by cases hk⟩

theorem Line.mem_iff (hl : Line m h content) {a : α} :
    a ∈ content ↔ a ∈ m.joined h ∧ m.name a ∉ m.left h := by
  rw [hl.content_eq, List.mem_reverse, List.mem_filter, decide_eq_true_eq]

theorem Line.nodup (hl : Line m h content) : (content.map m.name).Nodup := by
  rw [hl.content_eq, List.map_reverse, List.nodup_reverse]
  exact hl.joined_nodup.sublist (List.filter_sublist.map _)

end Roster
