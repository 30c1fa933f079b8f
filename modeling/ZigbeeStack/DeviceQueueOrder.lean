import ZigbeeStack.DeviceQueueRuns
import ZigbeeStack.Roster

/-! The order in which a device queue transmits, and what becomes of each request: the queue is a
line that requests join when they are submitted and leave when they are reported or removed. -/
namespace ZigbeeStack.DeviceQueue
open Runs Roster
variable {τ : Type}

def reported (t : Step τ) : Option UniqueKey :=
  match t.output with
  | .polled (.ready (.reportResult key _)) => some key
  | _ => none

def removed (t : Step τ) : Option UniqueKey :=
  match t.event, t.output with
  | .remove key, .changed true => some key
  | _, _ => none

def transmitted (t : Step τ) : Option DataRequest :=
  (sent t).bind fun _ => t.before.requests.head?

def moves : Moves (Step τ) DataRequest UniqueKey where
  name := (·.key)
  joins := submitted
  leaves t := (reported t).or (removed t)

/-- No step both reports and removes. -/
theorem count_left (h : Past τ) (k : UniqueKey) :
    (moves.left h).count k = (h.filterMap reported).count k + (h.filterMap removed).count k := by
  induction h with
  | nil => rfl
  | cons t h ih =>
    have ih : (h.filterMap moves.leaves).count k = _ := ih
    have hone : reported t = none ∨ removed t = none := by
      unfold reported removed
      cases t.output with
      | polled _ => exact .inr (by split <;> simp_all)
      | _ => exact .inl rfl
    rw [Moves.left, List.filterMap_cons, List.filterMap_cons, List.filterMap_cons]
    rcases hone with hnone | hnone
    · have hleaves : moves.leaves t = removed t := by simp [moves, hnone]
      rw [hleaves, hnone]
      cases removed t with
      | none => exact ih
      | some k' =>
        simp only [List.count_cons, ih]
        omega
    · have hleaves : moves.leaves t = reported t := by simp [moves, hnone]
      rw [hleaves, hnone]
      cases reported t with
      | none => exact ih
      | some k' =>
        simp only [List.count_cons, ih]
        omega

theorem mem_left {h : Past τ} {k : UniqueKey} (hk : k ∈ moves.left h) :
    k ∈ h.filterMap reported ∨ k ∈ h.filterMap removed := by
  rw [← List.count_pos_iff, count_left] at hk
  rw [← List.count_pos_iff, ← List.count_pos_iff]
  omega

variable [Sleep τ]

end ZigbeeStack.DeviceQueue
