import Mathlib.Algebra.Order.Ring.Nat
import Mathlib.Data.List.GetD
import Mathlib.Tactic.Common

/-! A stream that is taken in element by element and absorbed in blocks of a fixed size. -/
namespace BlockStreams
variable {σ α : Type*} {k : Nat}

def blockAt (k : Nat) (zero : α) (data : List α) (i : Nat) : Vector α k :=
  Vector.ofFn fun j => data.getD (k * i + j.val) zero

def blocks (k : Nat) (zero : α) (data : List α) : List (Vector α k) :=
  (List.range (data.length / k)).map (blockAt k zero data)

section Blocks
variable {zero : α}

theorem blockAt_append_left {data : List α} {i : Nat} (h : k * (i + 1) ≤ data.length)
    (later : List α) : blockAt k zero (data ++ later) i = blockAt k zero data i := by
  unfold blockAt
  refine congrArg Vector.ofFn (funext fun j => List.getD_append _ _ _ _ ?_)
  rw [Nat.mul_succ] at h
  have hj := j.isLt
  omega

theorem blockAt_append_right {data : List α} {q : Nat} (h : data.length = k * q)
    (later : List α) (i : Nat) :
    blockAt k zero (data ++ later) (q + i) = blockAt k zero later i := by
  unfold blockAt
  refine congrArg Vector.ofFn (funext fun j => ?_)
  rw [List.getD_append_right _ _ _ _ (by rw [h, Nat.mul_add]; omega), h]
  congr 1
  rw [Nat.mul_add]
  omega

theorem blocks_append {data : List α} {q : Nat} (h : data.length = k * q) (hk : 0 < k)
    (later : List α) :
    blocks k zero (data ++ later) = blocks k zero data ++ blocks k zero later := by
  have hdata : data.length / k = q := by rw [h, Nat.mul_div_cancel_left _ hk]
  have hwhole : (data ++ later).length / k = q + later.length / k := by
    rw [List.length_append, h, Nat.mul_add_div hk]
  unfold blocks
  rw [hwhole, hdata, List.range_add, List.map_append, List.map_map]
  refine congrArg₂ _ (List.map_congr_left fun i hi => ?_) (List.map_congr_left fun i _ => ?_)
  · refine blockAt_append_left ?_ later
    rw [h]
    exact Nat.mul_le_mul_left k (List.mem_range.mp hi)
  · exact blockAt_append_right h later i

end Blocks

structure Buffered (σ α : Type*) (k : Nat) where
  state : σ
  buffer : Vector α k
  filled : Fin k

variable (absorb : σ → Vector α k → σ) (zero : α)

def Buffered.push (s : Buffered σ α k) (a : α) : Buffered σ α k :=
  let buffer := s.buffer.set s.filled a
  if h : s.filled.val + 1 = k then
    ⟨absorb s.state buffer, Vector.replicate k zero, ⟨0, by omega⟩⟩
  else ⟨s.state, buffer, ⟨s.filled.val + 1, by omega⟩⟩

structure Holds (start : σ) (s : Buffered σ α k) (data : List α) : Prop where
  state : s.state = (blocks k zero data).foldl absorb start
  filled : s.filled.val = data.length % k
  buffer : s.buffer = blockAt k zero data (data.length / k)

variable {absorb zero}

theorem getD_snoc (data : List α) (a : α) (i : Nat) :
    (data ++ [a]).getD i zero = if i = data.length then a else data.getD i zero := by
  rcases Nat.lt_trichotomy i data.length with h | h | h
  · rw [List.getD_append _ _ _ _ h, if_neg (by omega)]
  · rw [h, List.getD_append_right _ _ _ _ le_rfl, if_pos rfl, Nat.sub_self]
    rfl
  · rw [List.getD_eq_default _ _ (by simp; omega), List.getD_eq_default _ _ h.le,
      if_neg (by omega)]

theorem set_blockAt {data : List α} (a : α) {i : Fin k} (hi : i.val = data.length % k) :
    (blockAt k zero data (data.length / k)).set i a =
      blockAt k zero (data ++ [a]) (data.length / k) := by
  ext j hj
  have hlen := Nat.div_add_mod data.length k
  simp only [blockAt, Vector.getElem_set, Vector.getElem_ofFn, getD_snoc]
  by_cases hij : i.val = j
  · rw [if_pos hij, if_pos (by omega)]
  · rw [if_neg hij, if_neg (by omega)]

theorem blockAt_snoc (data : List α) (a : α) {i : Nat} (hi : i < data.length / k) :
    blockAt k zero (data ++ [a]) i = blockAt k zero data i :=
  blockAt_append_left ((Nat.mul_le_mul_left k hi).trans (Nat.mul_div_le _ _)) [a]

theorem length_snoc_full {data : List α} (a : α) (h : data.length % k + 1 = k) :
    (data ++ [a]).length = k * (data.length / k + 1) := by
  have hlen := Nat.div_add_mod data.length k
  rw [List.length_append, List.length_singleton, Nat.mul_succ]
  omega

theorem length_snoc_open (data : List α) (a : α) :
    (data ++ [a]).length = (data.length % k + 1) + k * (data.length / k) := by
  have hlen := Nat.div_add_mod data.length k
  rw [List.length_append, List.length_singleton]
  omega

/-- The element that fills a block makes it one of the whole blocks. -/
theorem blocks_snoc_full {data : List α} (a : α) (hk : 0 < k) (h : data.length % k + 1 = k) :
    blocks k zero (data ++ [a]) =
      blocks k zero data ++ [blockAt k zero (data ++ [a]) (data.length / k)] := by
  unfold blocks
  rw [length_snoc_full a h, Nat.mul_div_cancel_left _ hk, List.range_succ, List.map_append,
    List.map_congr_left fun i hi => blockAt_snoc data a (List.mem_range.mp hi)]
  rfl

theorem length_div_snoc_open {data : List α} (a : α) (h : data.length % k + 1 < k) :
    (data ++ [a]).length / k = data.length / k := by
  rw [length_snoc_open (k := k), Nat.add_mul_div_left _ _ (Nat.zero_lt_of_lt h),
    Nat.div_eq_of_lt h, Nat.zero_add]

theorem blocks_snoc_open {data : List α} (a : α) (h : data.length % k + 1 < k) :
    blocks k zero (data ++ [a]) = blocks k zero data := by
  unfold blocks
  rw [length_div_snoc_open a h]
  exact List.map_congr_left fun i hi => blockAt_snoc data a (List.mem_range.mp hi)

theorem Holds.push {start : σ} {s : Buffered σ α k} {data : List α}
    (h : Holds absorb zero start s data) (a : α) :
    Holds absorb zero start (s.push absorb zero a) (data ++ [a]) := by
  have hbuffer : s.buffer.set s.filled a =
      blockAt k zero (data ++ [a]) (data.length / k) := by
    rw [h.buffer, set_blockAt a h.filled]
  unfold Buffered.push
  by_cases hfull : s.filled.val + 1 = k
  · rw [dif_pos hfull, hbuffer]
    have hk : 0 < k := s.filled.pos
    rw [h.filled] at hfull
    have hlen := length_snoc_full a hfull
    refine ⟨?_, ?_, ?_⟩
    · rw [blocks_snoc_full a hk hfull, List.foldl_append, h.state]
      rfl
    · rw [hlen, Nat.mul_mod_right]
    · rw [hlen, Nat.mul_div_cancel_left _ hk]
      ext j hj
      rw [Vector.getElem_replicate, blockAt, Vector.getElem_ofFn,
        List.getD_eq_default _ _ (by rw [hlen]; omega)]
  · rw [dif_neg hfull, hbuffer]
    have hopen : data.length % k + 1 < k := by
      have hlt := s.filled.isLt
      rw [← h.filled]
      omega
    refine ⟨?_, ?_, ?_⟩
    · rw [blocks_snoc_open a hopen, h.state]
    · change s.filled.val + 1 = _
      rw [length_snoc_open (k := k), Nat.add_mul_mod_self_left, Nat.mod_eq_of_lt hopen, h.filled]
    · rw [length_div_snoc_open a hopen]

/-- Taking in more of the stream. -/
theorem Holds.foldl {start : σ} {s : Buffered σ α k} {data : List α}
    (h : Holds absorb zero start s data) (later : List α) :
    Holds absorb zero start (later.foldl (Buffered.push absorb zero) s) (data ++ later) := by
  induction later generalizing s data with
  | nil => simpa using h
  | cons a later ih =>
    rw [List.foldl_cons, List.append_cons]
    exact ih (h.push a)

theorem Holds.start (start : σ) (hk : 0 < k) :
    Holds absorb zero start ⟨start, Vector.replicate k zero, ⟨0, hk⟩⟩ [] where
  state := by simp [blocks]
  filled := by simp
  buffer := by
    ext j hj
    simp [blockAt]

end BlockStreams
