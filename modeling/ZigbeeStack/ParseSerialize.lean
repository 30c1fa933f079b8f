import ZigbeeStack.Bits

/-! The traits of the older serialisation: values are written at the end of a vector and read off
the front of a slice, integers as little-endian bytes of fixed width. A tagged value is written
without its tag. -/
namespace ZigbeeStack
open Bits

inductive SerializeError where
  | unexpectedData
  | unimplemented (text : String)
deriving DecidableEq, Repr

inductive DeserializeError where
  | unexpectedData (input : List UInt8)
  | unimplemented (input : List UInt8) (text : String)
  | invalidEnumValue (input : List UInt8)
  | incomplete
deriving DecidableEq, Repr

class Serialize (α : Type) where
  serializeTo : α → List UInt8 → Except SerializeError (List UInt8)

class Deserialize (α : Type) where
  deserialize : List UInt8 → Except DeserializeError (List UInt8 × α)

class SerializeTagged (α : Type) (Tag : outParam Type) where
  serializeTag : α → Except SerializeError Tag

class DeserializeTagged (α : Type) (Tag : outParam Type) where
  deserialize : Tag → List UInt8 → Except DeserializeError (List UInt8 × α)

def serialize {α : Type} [Serialize α] (value : α) : Except SerializeError (List UInt8) :=
  Serialize.serializeTo value []

def deserializeInt {α : Type} (size : Nat) (ofNat : Nat → α) (input : List UInt8) :
    Except DeserializeError (List UInt8 × α) :=
  if input.length < size then .error .incomplete
  else .ok (input.drop size, ofNat (ofLeBytes (input.take size)))

def serializeInt (size value : Nat) (target : List UInt8) :
    Except SerializeError (List UInt8) :=
  .ok (target ++ toLeBytes size value)

instance : Serialize UInt8 where
  serializeTo value := serializeInt 1 value.toNat

instance : Deserialize UInt8 where
  deserialize := deserializeInt 1 UInt8.ofNat

instance : Serialize UInt16 where
  serializeTo value := serializeInt 2 value.toNat

instance : Deserialize UInt16 where
  deserialize := deserializeInt 2 UInt16.ofNat

instance : Serialize UInt32 where
  serializeTo value := serializeInt 4 value.toNat

instance : Deserialize UInt32 where
  deserialize := deserializeInt 4 UInt32.ofNat

instance : Serialize UInt64 where
  serializeTo value := serializeInt 8 value.toNat

instance : Deserialize UInt64 where
  deserialize := deserializeInt 8 UInt64.ofNat

/-! Tuples and lists are written item by item. -/

instance {α β : Type} [Serialize α] [Serialize β] : Serialize (α × β) where
  serializeTo x target := do
    let target ← Serialize.serializeTo x.1 target
    Serialize.serializeTo x.2 target

instance {α β : Type} [Deserialize α] [Deserialize β] : Deserialize (α × β) where
  deserialize input := do
    let (input, a) ← Deserialize.deserialize input
    let (input, b) ← Deserialize.deserialize input
    return (input, (a, b))

def serializeAll {α : Type} [Serialize α] : List α → List UInt8 →
    Except SerializeError (List UInt8)
  | [], target => .ok target
  | a :: list, target => do
    let target ← Serialize.serializeTo a target
    serializeAll list target

def deserializeCount {α : Type} [Deserialize α] : Nat → List UInt8 →
    Except DeserializeError (List UInt8 × List α)
  | 0, input => .ok (input, [])
  | count+1, input => do
    let (input, a) ← Deserialize.deserialize input
    let (input, list) ← deserializeCount count input
    return (input, a :: list)

theorem deserializeInt_toLeBytes {α : Type} {size value : Nat} (ofNat : Nat → α)
    (h : value < 256 ^ size) (rest : List UInt8) :
    deserializeInt size ofNat (toLeBytes size value ++ rest) = .ok (rest, ofNat value) := by
  have hlen : ¬ (toLeBytes size value ++ rest).length < size := by simp
  rw [deserializeInt, if_neg hlen, List.take_left' (toLeBytes_length _ _),
    List.drop_left' (toLeBytes_length _ _), ofLeBytes_toLeBytes _ _ h]

/-- What the `parse_serialize` crate, which is not part of this repository, is taken to do with an
integer: it writes and reads the bytes of it, the least significant first. -/
class SerializeWord (α : Type) [Word α] [Serialize α] [Deserialize α] : Prop where
  serializeTo_eq : ∀ (value : α) target,
    Serialize.serializeTo value target = serializeInt (Word.size α) (Word.toNat value) target
  deserialize_eq : ∀ input, Deserialize.deserialize input =
    deserializeInt (Word.size α) (Word.ofNat (α := α)) input

instance : SerializeWord UInt8 := ⟨fun _ _ => rfl, fun _ => rfl⟩
instance : SerializeWord UInt16 := ⟨fun _ _ => rfl, fun _ => rfl⟩
instance : SerializeWord UInt32 := ⟨fun _ _ => rfl, fun _ => rfl⟩
instance : SerializeWord UInt64 := ⟨fun _ _ => rfl, fun _ => rfl⟩

class SerializeField (β : Type) {α : outParam Type} [WordField β α] [Serialize α] [Deserialize α]
    [Serialize β] [Deserialize β] : Prop where
  serializeTo_field : ∀ (b : β) target,
    Serialize.serializeTo b target = Serialize.serializeTo (WordField.field b) target
  deserialize_field : ∀ input, Deserialize.deserialize input =
    Prod.map id (WordField.wrap (β := β)) <$> Deserialize.deserialize input

theorem deserialize_uint8_cons (byte : UInt8) (rest : List UInt8) :
    Deserialize.deserialize (byte :: rest) = .ok (rest, byte) := by
  rw [SerializeWord.deserialize_eq]
  change Except.ok (rest, UInt8.ofNat (ofLeBytes [byte])) = _
  simp [ofLeBytes]

def Recovers {α : Type} [Serialize α] [Deserialize α] (value : α) : Prop :=
  ∃ bytes, (∀ target, Serialize.serializeTo value target = .ok (target ++ bytes)) ∧
    ∀ rest, Deserialize.deserialize (bytes ++ rest) = .ok (rest, value)

def RecoversWhole {α : Type} [Serialize α] [Deserialize α] (value : α) : Prop :=
  ∃ bytes, (∀ target, Serialize.serializeTo value target = .ok (target ++ bytes)) ∧
    Deserialize.deserialize bytes = .ok ([], value)

theorem Recovers.whole {α : Type} [Serialize α] [Deserialize α] {value : α}
    (h : Recovers value) : RecoversWhole value := by
  obtain ⟨bytes, hwrite, hread⟩ := h
  refine ⟨bytes, hwrite, ?_⟩
  rw [← List.append_nil bytes]
  exact hread []

theorem recovers_word {α : Type} [Word α] [Serialize α] [Deserialize α] [SerializeWord α]
    (value : α) : Recovers value := by
  refine ⟨toLeBytes (Word.size α) (Word.toNat value), SerializeWord.serializeTo_eq value,
    fun rest => ?_⟩
  rw [SerializeWord.deserialize_eq, deserializeInt_toLeBytes _ (Word.toNat_lt value),
    Word.ofNat_toNat]

theorem recovers_field {β α : Type} [WordField β α] [Word α] [Serialize α] [Deserialize α]
    [Serialize β] [Deserialize β] [SerializeWord α] [SerializeField β] (b : β) : Recovers b := by
  obtain ⟨bytes, hwrite, hread⟩ := recovers_word (WordField.field b)
  refine ⟨bytes, fun target => (SerializeField.serializeTo_field b target).trans (hwrite target),
    fun rest => ?_⟩
  rw [SerializeField.deserialize_field, hread]
  exact congrArg (fun x => Except.ok (rest, x)) (WordField.wrap_field b)

/-- A structure is recovered when the tuple of its fields is. -/
theorem Recovers.newtype {α β : Type} [Serialize α] [Deserialize α] [Serialize β] [Deserialize β]
    (mk : α → β) {value : α}
    (hwrite : ∀ target,
      Serialize.serializeTo (mk value) target = Serialize.serializeTo value target)
    (hread : ∀ input a rest, Deserialize.deserialize input = .ok (rest, a) →
      Deserialize.deserialize input = .ok (rest, mk a)) (h : Recovers value) :
    Recovers (mk value) := by
  obtain ⟨bytes, hw, hr⟩ := h
  exact ⟨bytes, fun target => (hwrite target).trans (hw target), fun rest => hread _ _ _ (hr rest)⟩

theorem Recovers.pair {α β : Type} [Serialize α] [Deserialize α] [Serialize β] [Deserialize β]
    {a : α} {b : β} (ha : Recovers a) (hb : Recovers b) : Recovers (a, b) := by
  obtain ⟨front, hwriteA, hreadA⟩ := ha
  obtain ⟨back, hwriteB, hreadB⟩ := hb
  refine ⟨front ++ back, fun target => ?_, fun rest => ?_⟩
  · change (Serialize.serializeTo a target >>= Serialize.serializeTo b) = _
    rw [hwriteA, ← List.append_assoc]
    exact hwriteB _
  · change (Deserialize.deserialize _ >>= _) = _
    rw [List.append_assoc, hreadA]
    change (Deserialize.deserialize _ >>= _) = _
    rw [hreadB]
    rfl

/-- A byte that says which reader goes on is read first. -/
theorem Recovers.tagged {α β : Type} [Serialize α] [Deserialize α] [Serialize β] [Deserialize β]
    {x : α} (hx : Recovers x) (tag : UInt8) (mk : α → β)
    (hwrite : ∀ target, Serialize.serializeTo (mk x) target = Serialize.serializeTo (tag, x) target)
    (hread : ∀ input rest, Deserialize.deserialize input = .ok (rest, tag) →
      Deserialize.deserialize input = Prod.map id mk <$> Deserialize.deserialize rest) :
    Recovers (mk x) := by
  obtain ⟨front, hwriteTag, hreadTag⟩ := recovers_word tag
  obtain ⟨back, hwriteX, hreadX⟩ := hx
  refine ⟨front ++ back, fun target => ?_, fun rest => ?_⟩
  · rw [hwrite]
    change (Serialize.serializeTo tag target >>= _) = _
    rw [hwriteTag, ← List.append_assoc]
    exact hwriteX _
  · rw [List.append_assoc, hread _ _ (hreadTag _), hreadX]
    rfl

theorem recovers_list {α : Type} [Serialize α] [Deserialize α] (list : List α)
    (h : ∀ a ∈ list, Recovers a) :
    ∃ bytes, (∀ target, serializeAll list target = .ok (target ++ bytes)) ∧
      ∀ rest, deserializeCount list.length (bytes ++ rest) = .ok (rest, list) := by
  induction list with
  | nil => exact ⟨[], fun target => by rw [List.append_nil]; rfl, fun rest => rfl⟩
  | cons a list ih =>
    obtain ⟨front, hwriteA, hreadA⟩ := h a List.mem_cons_self
    obtain ⟨back, hwrite, hread⟩ := ih fun b hb => h b (List.mem_cons_of_mem _ hb)
    refine ⟨front ++ back, fun target => ?_, fun rest => ?_⟩
    · rw [serializeAll, hwriteA, ← List.append_assoc]
      exact hwrite _
    · rw [List.length_cons, deserializeCount, List.append_assoc, hreadA]
      change (deserializeCount _ _ >>= _) = _
      rw [hread]
      rfl

end ZigbeeStack
