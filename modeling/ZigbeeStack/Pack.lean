import ZigbeeStack.Bits

/-! Packing values into byte targets and unpacking them from byte strings: the traits, the
implementations for integers, tuples and options, and what it means for a value to survive. -/
namespace ZigbeeStack
open Bits

inductive UnpackError where
  | notEnoughData
  | invalidEnumTag
  | unsupported (text : Option String)
  | unimplemented (text : Option String)
deriving DecidableEq, Repr

inductive PackError (E : Type) where
  | notAllowed (text : Option String)
  | targetError (error : E)
deriving DecidableEq, Repr

/- The only error of an `ExtEnum`, `InvalidTag`, is turned into `InvalidEnumTag` by `?`. -/
inductive ExtEnumError where
  | invalidTag
deriving DecidableEq, Repr

def ExtEnumError.toUnpackError : ExtEnumError → UnpackError
  | .invalidTag => .invalidEnumTag

class PackTarget (T : Type) (E : outParam Type) where
  append : T → List UInt8 → Except E T

class Pack (α : Type) where
  unpack : List UInt8 → Except UnpackError (α × List UInt8)
  pack {T E : Type} [PackTarget T E] : α → T → Except (PackError E) T

class PackTagged (α : Type) (Tag : outParam Type) where
  getTag : α → Tag
  unpackData : Tag → List UInt8 → Except UnpackError (α × List UInt8)
  packData {T E : Type} [PackTarget T E] : α → T → Except (PackError E) T

class ExtEnum (α : Type) (Tag : outParam Type) where
  intoTag : α → Tag
  tryFromTag : Tag → Except ExtEnumError α

structure VecPackTarget where
  bytes : List UInt8
deriving DecidableEq, Repr

inductive VecPackError where
deriving DecidableEq, Repr

def VecPackTarget.new : VecPackTarget := ⟨[]⟩

instance : PackTarget VecPackTarget VecPackError where
  append self data := .ok ⟨self.bytes ++ data⟩

def unpackInt {α : Type} (size : Nat) (ofNat : Nat → α) (data : List UInt8) :
    Except UnpackError (α × List UInt8) :=
  if data.length < size then .error .notEnoughData
  else .ok (ofNat (ofLeBytes (data.take size)), data.drop size)

def packInt {T E : Type} [PackTarget T E] (size : Nat) (value : Nat) (target : T) :
    Except (PackError E) T :=
  (PackTarget.append target (toLeBytes size value)).mapError .targetError

instance : Pack UInt8 where
  unpack := unpackInt 1 UInt8.ofNat
  pack self := packInt 1 self.toNat

instance : Pack UInt16 where
  unpack := unpackInt 2 UInt16.ofNat
  pack self := packInt 2 self.toNat

instance : Pack UInt32 where
  unpack := unpackInt 4 UInt32.ofNat
  pack self := packInt 4 self.toNat

instance : Pack UInt64 where
  unpack := unpackInt 8 UInt64.ofNat
  pack self := packInt 8 self.toNat

instance {α β : Type} [Pack α] [Pack β] : Pack (α × β) where
  unpack data := do
    let (a, data) ← Pack.unpack data
    let (b, data) ← Pack.unpack data
    return ((a, b), data)
  pack self target := do
    let target ← Pack.pack self.1 target
    Pack.pack self.2 target

instance {α : Type} [Pack α] : PackTagged (Option α) Bool where
  getTag self := self.isSome
  unpackData tag data :=
    if tag then do
      let (inner, data) ← Pack.unpack data
      return (some inner, data)
    else return (none, data)
  packData self target :=
    match self with
    | some inner => Pack.pack inner target
    | none => return target

/-! A value survives when packing it always appends the same bytes and unpacking these, whatever
follows them, gives the value back and leaves the rest. -/

def RoundTrips {α : Type} [Pack α] (x : α) : Prop :=
  ∃ bytes, (∀ v, Pack.pack x (VecPackTarget.mk v) = .ok ⟨v ++ bytes⟩) ∧
    ∀ rest, Pack.unpack (bytes ++ rest) = .ok (x, rest)

def RoundTripsTagged {α Tag : Type} [PackTagged α Tag] (x : α) : Prop :=
  ∃ bytes, (∀ v, PackTagged.packData x (VecPackTarget.mk v) = .ok ⟨v ++ bytes⟩) ∧
    ∀ rest, PackTagged.unpackData (PackTagged.getTag x) (bytes ++ rest) = .ok (x, rest)

@[simp] theorem ok_bind {ε α β : Type} (a : α) (f : α → Except ε β) :
    (Except.ok a >>= f) = f a := rfl

theorem packInt_vec (size value : Nat) (v : List UInt8) :
    packInt size value (VecPackTarget.mk v) = .ok ⟨v ++ toLeBytes size value⟩ := rfl

theorem unpackInt_toLeBytes {α : Type} (size value : Nat) (ofNat : Nat → α) (rest : List UInt8)
    (h : value < 256 ^ size) :
    unpackInt size ofNat (toLeBytes size value ++ rest) = .ok (ofNat value, rest) := by
  have hlen : ¬ (toLeBytes size value ++ rest).length < size := by simp
  rw [unpackInt, if_neg hlen, List.take_left' (toLeBytes_length _ _),
    List.drop_left' (toLeBytes_length _ _), ofLeBytes_toLeBytes _ _ h]

class PackWord (α : Type) [Word α] [Pack α] : Prop where
  pack_eq : ∀ {T E : Type} [PackTarget T E] (x : α),
    (Pack.pack x : T → _) = packInt (Word.size α) (Word.toNat x)
  unpack_eq : ∀ data, Pack.unpack data = unpackInt (Word.size α) (Word.ofNat (α := α)) data

instance : PackWord UInt8 := ⟨fun _ => rfl, fun _ => rfl⟩
instance : PackWord UInt16 := ⟨fun _ => rfl, fun _ => rfl⟩
instance : PackWord UInt32 := ⟨fun _ => rfl, fun _ => rfl⟩
instance : PackWord UInt64 := ⟨fun _ => rfl, fun _ => rfl⟩

class PackField (β : Type) {α : outParam Type} [WordField β α] [Pack α] [Pack β] : Prop where
  pack_field : ∀ {T E : Type} [PackTarget T E] (b : β),
    (Pack.pack b : T → _) = Pack.pack (WordField.field b)
  unpack_field : ∀ data, Pack.unpack data =
    Prod.map (WordField.wrap (β := β)) id <$> Pack.unpack data

theorem roundTrips_word {α : Type} [Word α] [Pack α] [PackWord α] (x : α) : RoundTrips x := by
  refine ⟨toLeBytes (Word.size α) (Word.toNat x), fun v => ?_, fun rest => ?_⟩
  · rw [PackWord.pack_eq, packInt_vec]
  · rw [PackWord.unpack_eq, unpackInt_toLeBytes _ _ _ rest (Word.toNat_lt x), Word.ofNat_toNat]

theorem roundTrips_field {β α : Type} [WordField β α] [Word α] [Pack α] [Pack β] [PackWord α]
    [PackField β] (b : β) : RoundTrips b := by
  obtain ⟨bytes, hpack, hunpack⟩ := roundTrips_word (WordField.field b)
  refine ⟨bytes, fun v => (congrFun (PackField.pack_field b) _).trans (hpack v), fun rest => ?_⟩
  rw [PackField.unpack_field, hunpack]
  exact congrArg (fun x => Except.ok (x, rest)) (WordField.wrap_field b)

theorem RoundTrips.prod {α β : Type} [Pack α] [Pack β] {a : α} {b : β}
    (ha : RoundTrips a) (hb : RoundTrips b) : RoundTrips (a, b) := by
  obtain ⟨ba, hpa, hua⟩ := ha
  obtain ⟨bb, hpb, hub⟩ := hb
  refine ⟨ba ++ bb, fun v => ?_, fun rest => ?_⟩
  · simp only [Pack.pack, hpa, ok_bind, hpb, List.append_assoc]
  · rw [List.append_assoc]
    simp only [Pack.unpack, hua, ok_bind, hub]
    rfl

theorem roundTrips_option {α : Type} [Pack α] {x : Option α} (h : ∀ a ∈ x, RoundTrips a) :
    RoundTripsTagged x := by
  cases x with
  | none => exact ⟨[], fun v => by rw [List.append_nil]; rfl, fun rest => rfl⟩
  | some a =>
    obtain ⟨bytes, hp, hu⟩ := h a rfl
    refine ⟨bytes, hp, fun rest => ?_⟩
    simp only [PackTagged.unpackData, PackTagged.getTag, Option.isSome_some, if_true, hu, ok_bind]
    rfl

end ZigbeeStack
