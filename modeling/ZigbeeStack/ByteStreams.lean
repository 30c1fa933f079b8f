import ZigbeeStack.Bits
import Mathlib.Data.List.Infix
import Mathlib.Data.Nat.Find

/-! Streaming parsers and serializers of bytes as their libraries document them, taken as
parameters, and the search for a pattern in a list. -/
namespace ByteStreams
open Bits

inductive ParseError where
  | incomplete
  | error
deriving DecidableEq, Repr

abbrev Parsed (α : Type) := Except ParseError (List UInt8 × α)

/-- The streaming parsers of `nom`. -/
class Nom where
  tag : List UInt8 → List UInt8 → Parsed (List UInt8)
  beU8 : List UInt8 → Parsed UInt8
  beU16 : List UInt8 → Parsed UInt16
  take : Nat → List UInt8 → Parsed (List UInt8)

/-- Each takes what it is about from the front, and asks for more as long as that is not there. -/
class LawfulNom [Nom] : Prop where
  tag_append (tag rest : List UInt8) : Nom.tag tag (tag ++ rest) = .ok (rest, tag)
  beU8_nil : Nom.beU8 [] = .error .incomplete
  beU8_cons (b : UInt8) (rest : List UInt8) : Nom.beU8 (b :: rest) = .ok (rest, b)
  beU16_short (input : List UInt8) : input.length < 2 → Nom.beU16 input = .error .incomplete
  beU16_cons (a b : UInt8) (rest : List UInt8) :
    Nom.beU16 (a :: b :: rest) = .ok (rest, .ofNat (ofBeBytes [a, b]))
  take_short (count : Nat) (input : List UInt8) : input.length < count →
    Nom.take count input = .error .incomplete
  take_append (data rest : List UInt8) : Nom.take data.length (data ++ rest) = .ok (rest, data)

abbrev documentedNom : Nom where
  tag tag input :=
    if tag.isPrefixOf input then .ok (input.drop tag.length, tag)
    else if input.isPrefixOf tag then .error .incomplete
    else .error .error
  beU8
    | b :: rest => .ok (rest, b)
    | [] => .error .incomplete
  beU16
    | a :: b :: rest => .ok (rest, .ofNat (ofBeBytes [a, b]))
    | _ => .error .incomplete
  take count input :=
    if input.length < count then .error .incomplete
    else .ok (input.drop count, input.take count)

theorem documentedNom_lawful : @LawfulNom documentedNom :=
  letI := documentedNom
  { tag_append tag rest := by
      have hpre : tag.isPrefixOf (tag ++ rest) = true :=
        List.isPrefixOf_iff_prefix.mpr (List.prefix_append tag rest)
      simp only [Nom.tag, hpre, if_true, List.drop_left]
    beU8_nil := rfl
    beU8_cons _ _ := rfl
    beU16_short input h := by
      match input, h with
      | [], _ => rfl
      | [_], _ => rfl
    beU16_cons _ _ _ := rfl
    take_short _ _ h := if_pos h
    take_append data rest := by
      have hlen : ¬ (data ++ rest).length < data.length := by simp
      simp only [Nom.take, if_neg hlen, List.drop_left, List.take_left] }

/-- The serializers of `cookie_factory`, writing to a buffer that grows. -/
class CookieFactory where
  slice : List UInt8 → List UInt8 → List UInt8
  beU8 : UInt8 → List UInt8 → List UInt8
  beU16 : UInt16 → List UInt8 → List UInt8

class LawfulCookieFactory [CookieFactory] : Prop where
  slice_eq (data buffer : List UInt8) : CookieFactory.slice data buffer = buffer ++ data
  beU8_eq (value : UInt8) (buffer : List UInt8) :
    CookieFactory.beU8 value buffer = buffer ++ [value]
  beU16_eq (value : UInt16) (buffer : List UInt8) :
    CookieFactory.beU16 value buffer = buffer ++ toBeBytes 2 value.toNat

abbrev documentedCookieFactory : CookieFactory where
  slice data buffer := buffer ++ data
  beU8 value buffer := buffer ++ [value]
  beU16 value buffer := buffer ++ toBeBytes 2 value.toNat

theorem documentedCookieFactory_lawful : @LawfulCookieFactory documentedCookieFactory :=
  letI := documentedCookieFactory
  { slice_eq _ _ := rfl
    beU8_eq _ _ := rfl
    beU16_eq _ _ := rfl }

/-! A first occurrence of a pattern. -/

section Patterns
variable {α : Type*} {pattern noise rest xs : List α}

def FirstAt (pattern xs : List α) (i : Nat) : Prop :=
  pattern <+: xs.drop i ∧ ∀ j < i, ¬ pattern <+: xs.drop j

def Borderless (pattern : List α) : Prop :=
  ∀ k, 0 < k → k < pattern.length → ¬ pattern.drop k <+: pattern

theorem infix_of_prefix_drop {i : Nat} (h : pattern <+: xs.drop i) : pattern <:+: xs :=
  h.isInfix.trans (List.drop_suffix i xs).isInfix

theorem infix_iff_exists_drop : pattern <:+: xs ↔ ∃ i, pattern <+: xs.drop i := by
  constructor
  · rintro ⟨s, t, rfl⟩
    exact ⟨s.length, t, by simp⟩
  · rintro ⟨i, h⟩
    exact infix_of_prefix_drop h

theorem window_eq_iff {i : Nat} :
    (xs.drop i).take pattern.length = pattern ↔ pattern <+: xs.drop i := by
  rw [List.prefix_iff_eq_take, eq_comm]

theorem length_le_of_prefix_drop {i : Nat} (h : pattern <+: xs.drop i) :
    pattern.length ≤ xs.length - i := by
  simpa using h.length_le

theorem exists_firstAt (h : pattern <:+: xs) : ∃ i, FirstAt pattern xs i := by
  classical
  have hex := infix_iff_exists_drop.mp h
  exact ⟨Nat.find hex, Nat.find_spec hex, fun _ hj => Nat.find_min hex hj⟩

theorem FirstAt.unique {i j : Nat} (hi : FirstAt pattern xs i) (hj : FirstAt pattern xs j) :
    i = j := by
  rcases Nat.lt_trichotomy i j with hlt | rfl | hlt
  · exact absurd hi.1 (hj.2 i hlt)
  · rfl
  · exact absurd hj.1 (hi.2 j hlt)

/-- A pattern that lies in the first part of a split list is found there. -/
theorem infix_of_append {unread : List α} (h : xs ++ unread = noise ++ (pattern ++ rest))
    (hlen : noise.length + pattern.length ≤ xs.length) : pattern <:+: xs := by
  have hall : noise ++ pattern <+: xs ++ unread := ⟨rest, by rw [h, List.append_assoc]⟩
  have hxs : noise ++ pattern <+: xs :=
    List.prefix_of_prefix_length_le hall (List.prefix_append xs unread)
      (by rw [List.length_append]; exact hlen)
  exact (List.suffix_append noise pattern).isInfix.trans hxs.isInfix

theorem FirstAt.of_prefix {ys : List α} {i : Nat} (h : FirstAt pattern xs i) (hp : pattern ≠ [])
    (hxs : xs <+: ys) : FirstAt pattern ys i := by
  obtain ⟨more, rfl⟩ := hxs
  have hlen := length_le_of_prefix_drop h.1
  have hpos : 0 < pattern.length := List.length_pos_iff.mpr hp
  refine ⟨?_, fun j hj hocc => h.2 j hj ?_⟩
  · rw [List.drop_append_of_le_length (by omega)]
    exact h.1.trans (List.prefix_append _ _)
  · rw [List.drop_append_of_le_length (by omega)] at hocc
    refine List.prefix_of_prefix_length_le hocc (List.prefix_append _ _) ?_
    rw [List.length_drop]
    omega

theorem FirstAt.split {i : Nat} (h : FirstAt pattern xs i) (hp : pattern ≠ []) :
    ∃ before found, xs = before ++ found ∧ before.length = i ∧ pattern <+: found := by
  have hlen := length_le_of_prefix_drop h.1
  have hpos : 0 < pattern.length := List.length_pos_iff.mpr hp
  refine ⟨xs.take i, xs.drop i, (List.take_append_drop i xs).symm, ?_, h.1⟩
  rw [List.length_take]
  omega

/-- After noise without the pattern, a pattern without borders is found where it begins. -/
theorem Borderless.firstAt (hb : Borderless pattern) (hn : ¬ pattern <:+: noise) :
    FirstAt pattern (noise ++ (pattern ++ rest)) noise.length := by
  refine ⟨by simp, fun j hj hocc => ?_⟩
  rw [List.drop_append_of_le_length (Nat.le_of_lt hj)] at hocc
  have hlen : (noise.drop j).length = noise.length - j := List.length_drop
  by_cases hin : pattern.length ≤ noise.length - j
  · -- the pattern would lie in the noise
    have hocc := List.prefix_of_prefix_length_le hocc (List.prefix_append (noise.drop j) _)
      (hlen ▸ hin)
    exact hn (infix_of_prefix_drop hocc)
  · -- it would begin in the noise and end in the pattern
    obtain ⟨tail, htail⟩ := List.prefix_of_prefix_length_le (List.prefix_append (noise.drop j) _)
      hocc (by omega)
    have hdrop : pattern.drop (noise.length - j) = tail := by
      rw [← htail, ← hlen, List.drop_left]
    rw [← htail, List.prefix_append_right_inj] at hocc
    refine hb (noise.length - j) (by omega) (by omega) ?_
    rw [hdrop]
    refine List.prefix_of_prefix_length_le hocc (by rw [htail]; exact List.prefix_append _ _) ?_
    rw [← htail, List.length_append]
    omega

end Patterns
end ByteStreams
