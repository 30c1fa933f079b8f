import ZigbeeStack.Frame

/-! Packing into a buffer of fixed size beside packing into a vector. Every `pack` appends a list
of chunks that its target has no part in, so the targets differ only in where they stop. -/
namespace ZigbeeStack
open Bits

structure SlicePackTarget where
  target : List UInt8
  offset : Nat
deriving DecidableEq, Repr

inductive SlicePackError where
  | notEnoughSpace
deriving DecidableEq, Repr

def SlicePackTarget.new (target : List UInt8) : SlicePackTarget := ⟨target, 0⟩

def SlicePackTarget.size (self : SlicePackTarget) : Nat := self.offset

instance : PackTarget SlicePackTarget SlicePackError where
  append self data :=
    if self.offset + data.length > self.target.length then .error .notEnoughSpace
    else .ok {
      target := self.target.take self.offset ++ data ++
        self.target.drop (self.offset + data.length)
      offset := self.offset + data.length }

abbrev Packing := ∀ (T E : Type) [PackTarget T E], T → Except (PackError E) T

def appendAll {T E : Type} [PackTarget T E] : List (List UInt8) → T → Except (PackError E) T
  | [], target => .ok target
  | data :: chunks, target =>
    (PackTarget.append target data).mapError .targetError >>= appendAll chunks

def finish {T E : Type} (refusal : Option (Option String)) (target : T) :
    Except (PackError E) T :=
  match refusal with
  | none => .ok target
  | some text => .error (.notAllowed text)

def AppendsOnly (f : Packing) : Prop :=
  ∃ chunks refusal, ∀ (T E : Type) [PackTarget T E] (target : T),
    f T E target = appendAll chunks target >>= finish refusal

theorem appendAll_append {T E : Type} [PackTarget T E] (chunks later : List (List UInt8))
    (target : T) :
    appendAll (chunks ++ later) target = appendAll chunks target >>= appendAll later := by
  induction chunks generalizing target with
  | nil => rfl
  | cons data chunks ih =>
    rw [List.cons_append, appendAll, appendAll, bind_assoc]
    exact congrArg (_ >>= ·) (funext ih)

theorem AppendsOnly.ok : AppendsOnly fun _ _ _ target => .ok target :=
  ⟨[], none, fun _ _ _ _ => rfl⟩

theorem AppendsOnly.refuse (text : Option String) :
    AppendsOnly fun _ _ _ _ => .error (.notAllowed text) :=
  ⟨[], some text, fun _ _ _ _ => rfl⟩

theorem AppendsOnly.append (data : List UInt8) :
    AppendsOnly fun _ _ _ target =>
      (PackTarget.append target data).mapError .targetError := by
  refine ⟨[data], none, fun T E _ target => ?_⟩
  exact (bind_assoc _ _ _).trans (bind_pure _) |>.symm

/-- A packing that refuses leaves nothing for what comes after it. -/
theorem AppendsOnly.bind {f g : Packing} (hf : AppendsOnly f) (hg : AppendsOnly g) :
    AppendsOnly fun T E _ target => f T E target >>= g T E := by
  obtain ⟨chunks, refusal, hf⟩ := hf
  obtain ⟨later, refusal', hg⟩ := hg
  cases refusal with
  | none =>
    refine ⟨chunks ++ later, refusal', fun T E _ target => ?_⟩
    have hlater : g T E = fun target => appendAll later target >>= finish refusal' :=
      funext (hg T E)
    change f T E target >>= g T E = _
    rw [hf, appendAll_append, bind_assoc, bind_assoc, hlater]
    rfl
  | some text =>
    refine ⟨chunks, some text, fun T E _ target => ?_⟩
    change f T E target >>= g T E = _
    rw [hf, bind_assoc]
    rfl

/-- Which of two packings it is must not depend on the target. -/
theorem AppendsOnly.ite {f g : Packing} {p : Prop} [Decidable p] (hf : AppendsOnly f)
    (hg : AppendsOnly g) :
    AppendsOnly fun T E _ target => if p then f T E target else g T E target := by
  by_cases h : p
  · simpa only [if_pos h] using hf
  · simpa only [if_neg h] using hg

theorem appendAll_vec (chunks : List (List UInt8)) (bytes : List UInt8) :
    appendAll chunks (VecPackTarget.mk bytes) = .ok ⟨bytes ++ chunks.flatten⟩ := by
  induction chunks generalizing bytes with
  | nil => simp [appendAll]
  | cons data chunks ih =>
    calc
      appendAll (data :: chunks) (VecPackTarget.mk bytes)
          = appendAll chunks (VecPackTarget.mk (bytes ++ data)) := rfl
      _ = .ok ⟨bytes ++ (data :: chunks).flatten⟩ := by
          rw [ih, List.flatten_cons, List.append_assoc]

/-- Into a buffer, written up to `offset`, the chunks go in full or not at all. -/
theorem appendAll_slice (chunks : List (List UInt8)) (front back : List UInt8) :
    appendAll chunks (SlicePackTarget.mk (front ++ back) front.length) =
      if chunks.flatten.length ≤ back.length then
        .ok ⟨front ++ chunks.flatten ++ back.drop chunks.flatten.length,
          front.length + chunks.flatten.length⟩
      else .error (.targetError .notEnoughSpace) := by
  induction chunks generalizing front back with
  | nil => simp [appendAll]
  | cons data chunks ih =>
    rw [List.flatten_cons, List.length_append]
    by_cases hdata : data.length ≤ back.length
    · have happend : PackTarget.append (SlicePackTarget.mk (front ++ back) front.length) data =
          .ok ⟨front ++ data ++ back.drop data.length, (front ++ data).length⟩ := by
        simp [PackTarget.append, hdata]
      rw [appendAll, happend]
      change appendAll chunks _ = _
      rw [ih, List.length_drop, List.length_append, List.drop_drop]
      simp only [List.append_assoc, Nat.add_assoc]
      exact if_congr (by omega) rfl rfl
    · have happend : PackTarget.append (SlicePackTarget.mk (front ++ back) front.length) data =
          .error .notEnoughSpace := by
        simp [PackTarget.append, hdata]
      rw [appendAll, happend, if_neg (by omega)]
      rfl

/-- The two targets agree as far as the buffer reaches. -/
theorem AppendsOnly.slice_iff_vec {f : Packing} (hf : AppendsOnly f) (buffer : List UInt8)
    (packed : SlicePackTarget) :
    f _ _ (SlicePackTarget.new buffer) = .ok packed ↔
      ∃ bytes, f _ _ VecPackTarget.new = .ok ⟨bytes⟩ ∧ bytes.length ≤ buffer.length ∧
        packed = ⟨bytes ++ buffer.drop bytes.length, bytes.length⟩ := by
  obtain ⟨chunks, refusal, hf⟩ := hf
  have hvec : f _ _ VecPackTarget.new = (.ok ⟨chunks.flatten⟩ >>= finish refusal) := by
    rw [hf]
    exact congrArg (· >>= finish refusal) (appendAll_vec chunks [])
  have hslice := hf _ _ (SlicePackTarget.new buffer)
  rw [show SlicePackTarget.new buffer = ⟨[] ++ buffer, ([] : List UInt8).length⟩ from rfl,
    appendAll_slice] at hslice
  change f _ _ (SlicePackTarget.new buffer) = _ at hslice
  rw [hslice, hvec]
  generalize chunks.flatten = data
  cases refusal with
  | none =>
    change _ ↔ ∃ bytes, Except.ok (VecPackTarget.mk data) = _ ∧ _
    rw [List.nil_append, List.length_nil, Nat.zero_add]
    by_cases hfits : data.length ≤ buffer.length
    · rw [if_pos hfits]
      constructor
      · intro h
        exact ⟨data, rfl, hfits, (Except.ok.inj h).symm⟩
      · rintro ⟨bytes, hbytes, -, rfl⟩
        cases hbytes
        rfl
    · rw [if_neg hfits]
      constructor
      · intro h
        cases h
      · rintro ⟨bytes, hbytes, hle, -⟩
        cases hbytes
        exact absurd hle hfits
  | some text =>
    constructor
    · intro h
      split at h <;> cases h
    · rintro ⟨bytes, hbytes, -⟩
      cases hbytes

class LawfulPack (α : Type) [Pack α] : Prop where
  appendsOnly : ∀ x : α, AppendsOnly fun _ _ _ => Pack.pack x

class LawfulPackTagged (α : Type) {Tag : outParam Type} [PackTagged α Tag] : Prop where
  appendsOnly : ∀ x : α, AppendsOnly fun _ _ _ => PackTagged.packData x

export LawfulPack (appendsOnly)

instance {α : Type} [Word α] [Pack α] [PackWord α] : LawfulPack α where
  appendsOnly x := by
    simp only [PackWord.pack_eq]
    exact .append (toLeBytes _ _)

instance {β α : Type} [WordField β α] [Pack α] [Pack β] [PackField β] [LawfulPack α] :
    LawfulPack β where
  appendsOnly b := by
    simp only [PackField.pack_field]
    exact appendsOnly (WordField.field b)

instance {α β : Type} [Pack α] [Pack β] [LawfulPack α] [LawfulPack β] : LawfulPack (α × β) :=
  ⟨fun x => (appendsOnly x.1).bind (appendsOnly x.2)⟩

instance {α : Type} [Pack α] [LawfulPack α] : LawfulPackTagged (Option α) where
  appendsOnly
    | some a => appendsOnly a
    | none => .ok

instance : LawfulPack Payload := ⟨fun x => .append x.bytes⟩

instance : LawfulPackTagged Address where
  appendsOnly
    | .short address => appendsOnly address
    | .extended address => appendsOnly address

instance : LawfulPackTagged FullAddress :=
  ⟨fun x => (appendsOnly x.panId).bind (LawfulPackTagged.appendsOnly x.address)⟩

instance : LawfulPack Beacon where
  appendsOnly x :=
    .ite (.refuse _) <| .ite (.refuse _) <| .ite (.refuse _) <|
    (appendsOnly (x.superframe, (0 : UInt8), (0 : UInt8))).bind (appendsOnly x.payload)

instance : LawfulPack CapabilityInformation := ⟨fun _ => .ok⟩

instance : LawfulPack AssociationResponse where
  appendsOnly
    | ⟨_, .ok address⟩ => (appendsOnly address).bind (appendsOnly (α := UInt8) _)
    | ⟨_, .error _⟩ => (appendsOnly ShortAddress.invalid).bind (appendsOnly (α := UInt8) _)

instance : LawfulPack Command where
  appendsOnly
    | .associationRequest capability => (appendsOnly (0x01 : UInt8)).bind (appendsOnly capability)
    | .associationResponse response => (appendsOnly (0x02 : UInt8)).bind (appendsOnly response)
    | .dataRequest => (appendsOnly (0x04 : UInt8)).bind .ok
    | .beaconRequest => (appendsOnly (0x07 : UInt8)).bind .ok

instance : LawfulPackTagged FrameType where
  appendsOnly
    | .beacon x => appendsOnly x
    | .command x => appendsOnly x
    | .data x | .ack x | .reserved x | .multipurpose x | .fragment x | .extended x =>
      appendsOnly x

namespace Frame

theorem appendsOnly_packDestination (self : Frame) :
    AppendsOnly fun _ _ _ => self.packDestination := by
  unfold packDestination
  cases self.destination with
  | some destination => exact LawfulPackTagged.appendsOnly destination
  | none => exact .ok

theorem appendsOnly_packSource (self : Frame) : AppendsOnly fun _ _ _ => self.packSource := by
  unfold packSource
  cases self.source with
  | some source =>
    cases self.panIdCompression with
    | true => exact LawfulPackTagged.appendsOnly source.address
    | false => exact LawfulPackTagged.appendsOnly source
  | none => exact .ok

instance : LawfulPack Frame where
  appendsOnly self :=
    (appendsOnly self.control).bind <|
    (LawfulPackTagged.appendsOnly self.sequenceNumber).bind <|
    self.appendsOnly_packDestination.bind <|
    self.appendsOnly_packSource.bind <|
    LawfulPackTagged.appendsOnly self.frameType

/-- Packing a frame into a buffer succeeds just when packing it into a vector does and the bytes
fit; they are then the front of the buffer, and what lies behind them is as it was. -/
theorem pack_slice_iff_vec (self : Frame) (buffer : List UInt8) (packed : SlicePackTarget) :
    Pack.pack self (SlicePackTarget.new buffer) = .ok packed ↔
      ∃ bytes, Pack.pack self VecPackTarget.new = .ok ⟨bytes⟩ ∧ bytes.length ≤ buffer.length ∧
        packed.target = bytes ++ buffer.drop bytes.length ∧ packed.size = bytes.length := by
  obtain ⟨target, offset⟩ := packed
  refine ((appendsOnly self).slice_iff_vec buffer ⟨target, offset⟩).trans ?_
  simp only [SlicePackTarget.mk.injEq, SlicePackTarget.size]

end Frame
end ZigbeeStack
