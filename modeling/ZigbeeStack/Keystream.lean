import Mathlib.Tactic.Common

/-! Data combined with the bytes of a stream by exclusive or. -/
namespace Keystream

def xorFrom (stream : Nat → UInt8) : Nat → List UInt8 → List UInt8
  | _, [] => []
  | pos, byte :: data => (byte ^^^ stream pos) :: xorFrom stream (pos + 1) data

variable (stream : Nat → UInt8) (pos : Nat)

@[simp] theorem length_xorFrom (data : List UInt8) :
    (xorFrom stream pos data).length = data.length := by
  induction data generalizing pos with
  | nil => rfl
  | cons byte data ih => simp [xorFrom, ih]

/-- The same bytes of the stream a second time undo the first. -/
@[simp] theorem xorFrom_xorFrom (data : List UInt8) :
    xorFrom stream pos (xorFrom stream pos data) = data := by
  induction data generalizing pos with
  | nil => rfl
  | cons byte data ih => simp only [xorFrom, ih, UInt8.xor_assoc, UInt8.xor_self, UInt8.xor_zero]

/-- A prefix meets the same bytes of the stream as in the whole. -/
theorem take_xorFrom (count : Nat) (data : List UInt8) :
    (xorFrom stream pos data).take count = xorFrom stream pos (data.take count) := by
  induction data generalizing pos count with
  | nil => simp [xorFrom]
  | cons byte data ih =>
    cases count with
    | zero => rfl
    | succ count => simp [xorFrom, ih]

/-- Data shows every byte of the stream that it meets. -/
theorem stream_of_xorFrom_eq {stream stream' : Nat → UInt8} {data : List UInt8} {i : Nat}
    (hi : i < data.length) (h : xorFrom stream pos data = xorFrom stream' pos data) :
    stream (pos + i) = stream' (pos + i) := by
  induction data generalizing pos i with
  | nil => exact absurd hi (Nat.not_lt_zero i)
  | cons byte data ih =>
    obtain ⟨hbyte, hdata⟩ := List.cons.inj h
    cases i with
    | zero => exact (UInt8.xor_right_inj byte).mp hbyte
    | succ i =>
      rw [← Nat.succ_add_eq_add_succ]
      exact ih (pos + 1) (Nat.lt_of_succ_lt_succ hi) hdata

end Keystream
