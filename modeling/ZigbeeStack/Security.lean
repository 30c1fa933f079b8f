import ZigbeeStack.Collections
import ZigbeeStack.Frame
import ZigbeeStack.MmoHash
import ZigbeeStack.ParseSerialize

/-! Zigbee security: payloads encrypted and authenticated with a key of the key store, and how
they stand on the wire. -/
namespace ZigbeeStack
open Bits

instance : Serialize ExtendedAddress where
  serializeTo self := Serialize.serializeTo self.value

instance : Deserialize ExtendedAddress where
  deserialize input := do
    let (input, value) ← Deserialize.deserialize input
    return (input, ⟨value⟩)

instance : SerializeField ExtendedAddress := ⟨fun _ _ => rfl, fun _ => rfl⟩

namespace Security

/-- What the cryptographic crates compute: AES-128 of a key and a block, the bytes of the counter
mode keystream for a cipher and an initial block, and the keyed hash of a key and a message over a
digest. -/
structure Crates where
  aes128 : Block → Block → Block
  ctr128 : (Block → Block) → Block → Nat → UInt8
  hmac : (List UInt8 → Option Block) → Block → List UInt8 → Option Block

inductive KeyIdentifier where
  | data
  | network (keySequenceNumber : UInt8)
  | keyTransport
  | keyLoad
deriving DecidableEq, Repr

structure KeyStore where
  data : Option Block
  network : HashMap.Map UInt8 Block
  keyTransport : Option Block
  keyLoad : Option Block

inductive MessageIntegrityCodeLen where
  | none | mic32 | mic64 | mic128
deriving DecidableEq, Repr

def MessageIntegrityCodeLen.toUInt8 : MessageIntegrityCodeLen → UInt8
  | .none => 0
  | .mic32 => 1
  | .mic64 => 2
  | .mic128 => 3

def MessageIntegrityCodeLen.intoCcmStar : MessageIntegrityCodeLen → CcmStarIntegrityCodeLen
  | .none => .none
  | .mic32 => .mic4
  | .mic64 => .mic8
  | .mic128 => .mic16

structure SecurityLevel where
  encryption : Bool
  migLen : MessageIntegrityCodeLen
deriving DecidableEq, Repr

def SecurityLevel.toUInt8 (level : SecurityLevel) : UInt8 :=
  if level.encryption then level.migLen.toUInt8 ||| 4 else level.migLen.toUInt8

instance : Serialize KeyIdentifier where
  serializeTo self target :=
    match self with
    | .network keySequenceNumber => Serialize.serializeTo keySequenceNumber target
    | _ => .ok target

instance : SerializeTagged KeyIdentifier UInt8 where
  serializeTag
    | .data => .ok 0
    | .network _ => .ok 1
    | .keyTransport => .ok 2
    | .keyLoad => .ok 3

def KeyIdentifier.deserialize (tag : UInt8) (input : List UInt8) :
    Except DeserializeError (List UInt8 × KeyIdentifier) :=
  if tag = 0 then .ok (input, .data)
  else if tag = 1 then do
    let (input, keySequenceNumber) ← Deserialize.deserialize input
    return (input, .network keySequenceNumber)
  else if tag = 2 then .ok (input, .keyTransport)
  else if tag = 3 then .ok (input, .keyLoad)
  else .error (.unexpectedData input)

instance : DeserializeTagged KeyIdentifier UInt8 := ⟨KeyIdentifier.deserialize⟩

structure SecuredData where
  keyIdentifier : KeyIdentifier
  frameCounter : UInt32
  extendedSource : Option ExtendedAddress
  payload : List UInt8
deriving DecidableEq, Repr

structure SecurityControl where
  bits : UInt8
deriving DecidableEq, Repr

namespace SecurityControl

def securityLevel (sc : SecurityControl) : UInt8 := bitRange sc.bits 2 0
def setSecurityLevel (sc : SecurityControl) (value : UInt8) : SecurityControl :=
  ⟨setBitRange sc.bits 2 0 value⟩
def keyIdentifier (sc : SecurityControl) : UInt8 := bitRange sc.bits 4 3
def setKeyIdentifier (sc : SecurityControl) (value : UInt8) : SecurityControl :=
  ⟨setBitRange sc.bits 4 3 value⟩
def extendedNonce (sc : SecurityControl) : UInt8 := bitRange sc.bits 5 5
def setExtendedNonce (sc : SecurityControl) (value : UInt8) : SecurityControl :=
  ⟨setBitRange sc.bits 5 5 value⟩
def setReserved (sc : SecurityControl) (value : UInt8) : SecurityControl :=
  ⟨setBitRange sc.bits 7 6 value⟩

/-- The setters as each of the three writers of a security control calls them. -/
def build (level keyIdentifier extendedNonce : UInt8) : SecurityControl :=
  ((((SecurityControl.mk 0).setSecurityLevel level).setKeyIdentifier keyIdentifier).setExtendedNonce
    extendedNonce).setReserved 0

end SecurityControl

instance : Serialize SecurityControl where
  serializeTo self := Serialize.serializeTo self.bits

instance : Deserialize SecurityControl where
  deserialize input := do
    let (input, bits) ← Deserialize.deserialize input
    return (input, ⟨bits⟩)

instance : WordField SecurityControl UInt8 := ⟨.mk, SecurityControl.bits, fun _ => rfl⟩

instance : SerializeField SecurityControl := ⟨fun _ _ => rfl, fun _ => rfl⟩

def serializeOption {α : Type} [Serialize α] (value : Option α) (target : List UInt8) :
    Except SerializeError (List UInt8) :=
  match value with
  | some value => Serialize.serializeTo value target
  | none => .ok target

def deserializeCond {α : Type} [Deserialize α] (present : Bool) (input : List UInt8) :
    Except DeserializeError (List UInt8 × Option α) :=
  if present then do
    let (input, value) ← Deserialize.deserialize input
    return (input, some value)
  else return (input, none)

def SecuredData.serializeTo (data : SecuredData) (target : List UInt8) :
    Except SerializeError (List UInt8) := do
  let tag ← SerializeTagged.serializeTag data.keyIdentifier
  -- the security level is always 0 on air
  let sc := SecurityControl.build 0 tag data.extendedSource.isSome.toUInt8
  let target ← Serialize.serializeTo sc target
  let target ← Serialize.serializeTo data.frameCounter target
  let target ← serializeOption data.extendedSource target
  let target ← Serialize.serializeTo data.keyIdentifier target
  return target ++ data.payload

instance : Serialize SecuredData := ⟨SecuredData.serializeTo⟩

def SecuredData.deserialize (input : List UInt8) :
    Except DeserializeError (List UInt8 × SecuredData) := do
  let (input, sc) ← (Deserialize.deserialize input : Except _ (_ × SecurityControl))
  if sc.securityLevel ≠ 0 then throw (.unexpectedData input)
  let (input, frameCounter) ← Deserialize.deserialize input
  let (input, extendedSource) ← deserializeCond (sc.extendedNonce != 0) input
  let (input, keyIdentifier) ← KeyIdentifier.deserialize sc.keyIdentifier input
  return ([], { keyIdentifier, frameCounter, extendedSource, payload := input })

instance : Deserialize SecuredData := ⟨SecuredData.deserialize⟩

/-! What may be secured. A secured value is written without its own tag, which then stands
somewhere else or is not needed. -/

inductive Securable (T : Type) where
  | secured (data : SecuredData)
  | unsecured (data : T)
deriving DecidableEq, Repr

def Securable.isSecured {T : Type} : Securable T → Bool
  | .secured _ => true
  | .unsecured _ => false

instance {T : Type} [Serialize T] : Serialize (Securable T) where
  serializeTo
    | .secured data => Serialize.serializeTo data
    | .unsecured data => Serialize.serializeTo data

instance {T : Type} : SerializeTagged (Securable T) Bool where
  serializeTag self := .ok self.isSecured

instance {T : Type} [Deserialize T] : DeserializeTagged (Securable T) Bool where
  deserialize tag input :=
    match tag with
    | true => Prod.map id .secured <$> Deserialize.deserialize input
    | false => Prod.map id .unsecured <$> Deserialize.deserialize input

inductive SecurableTagged (T Tag : Type) where
  | secured (tag : Tag) (data : SecuredData)
  | unsecured (data : T)
deriving DecidableEq, Repr

instance {T Tag : Type} [Serialize T] : Serialize (SecurableTagged T Tag) where
  serializeTo
    | .secured _ data => Serialize.serializeTo data
    | .unsecured data => Serialize.serializeTo data

instance {T Tag : Type} [SerializeTagged T Tag] :
    SerializeTagged (SecurableTagged T Tag) (Bool × Tag) where
  serializeTag
    | .secured tag _ => .ok (true, tag)
    | .unsecured data => do return (false, ← SerializeTagged.serializeTag data)

instance {T Tag : Type} [DeserializeTagged T Tag] :
    DeserializeTagged (SecurableTagged T Tag) (Bool × Tag) where
  deserialize tag input :=
    match tag.1 with
    | true => do
      let (input, data) ← Deserialize.deserialize input
      return (input, .secured tag.2 data)
    | false => do
      let (input, data) ← DeserializeTagged.deserialize tag.2 input
      return (input, .unsecured data)

/-- The key; also `none` where the digest that the keyed hash runs on fails an assertion. -/
def generateEncryptionKey (crates : Crates) (keyIdentifier : KeyIdentifier) (store : KeyStore) :
    Option Block :=
  match keyIdentifier with
  | .data => store.data
  | .network keySequenceNumber => HashMap.get store.network keySequenceNumber
  | .keyTransport => do crates.hmac (MMOHash.digest crates.aes128) (← store.keyTransport) [0]
  | .keyLoad => do crates.hmac (MMOHash.digest crates.aes128) (← store.keyTransport) [2]

def resize (data : List UInt8) (size : Nat) : List UInt8 :=
  data.take size ++ List.replicate (size - data.length) 0

def tryIntoArray (size : Nat) (data : List UInt8) : Option (Vector UInt8 size) :=
  if h : data.length = size then some ⟨data.toArray, h⟩ else none

def generateNonce (keyIdentifier : KeyIdentifier) (frameCounter : UInt32) (extendedNonce : Bool)
    (securityLevel : SecurityLevel) (sourceAddress : ExtendedAddress) :
    Option (Vector UInt8 15) := do
  let nonce ← (Serialize.serializeTo sourceAddress []).toOption
  let nonce ← (Serialize.serializeTo frameCounter nonce).toOption
  let tag ← (SerializeTagged.serializeTag keyIdentifier).toOption
  let sc := SecurityControl.build securityLevel.toUInt8 tag extendedNonce.toUInt8
  let nonce ← (Serialize.serializeTo sc nonce).toOption
  tryIntoArray 15 (resize nonce 15)

/- Unlike on the wire, the security level stands here. -/
def generateAssociatedData (keyIdentifier : KeyIdentifier) (frameCounter : UInt32)
    (extendedSource : Option ExtendedAddress) (securityLevel : SecurityLevel)
    (target : List UInt8) : Except SerializeError (List UInt8) := do
  let tag ← SerializeTagged.serializeTag keyIdentifier
  let sc := SecurityControl.build securityLevel.toUInt8 tag extendedSource.isSome.toUInt8
  let target ← Serialize.serializeTo sc target
  let target ← Serialize.serializeTo frameCounter target
  let target ← serializeOption extendedSource target
  Serialize.serializeTo keyIdentifier target

namespace SecuredData

def generateNonce (data : SecuredData) (securityLevel : SecurityLevel)
    (sourceAddress : ExtendedAddress) : Option (Vector UInt8 15) :=
  Security.generateNonce data.keyIdentifier data.frameCounter data.extendedSource.isSome
    securityLevel (data.extendedSource.getD sourceAddress)

def generateAssociatedData (data : SecuredData) (securityLevel : SecurityLevel)
    (target : List UInt8) : Except SerializeError (List UInt8) :=
  Security.generateAssociatedData data.keyIdentifier data.frameCounter data.extendedSource
    securityLevel target

def ccmStar (crates : Crates) (key : Block) (securityLevel : SecurityLevel) : CcmStar :=
  { cipher := crates.aes128 key, ctr128 := crates.ctr128
    integrityCodeLen := securityLevel.migLen.intoCcmStar, lengthSize := .len16 }

def decrypt (crates : Crates) (data : SecuredData) (associatedData : List UInt8)
    (securityLevel : SecurityLevel) (sourceAddress : ExtendedAddress) (store : KeyStore) :
    Option (List UInt8) := do
  let key ← generateEncryptionKey crates data.keyIdentifier store
  let nonce ← data.generateNonce securityLevel sourceAddress
  let ccmstar := ccmStar crates key securityLevel
  let associatedData ← (data.generateAssociatedData securityLevel associatedData).toOption
  if securityLevel.encryption then
    (ccmstar.decrypt nonce { msg := data.payload, aad := associatedData }).toOption
  else
    let tagSize := ccmstar.getTagLen
    let payloadLen := data.payload.length
    if payloadLen < tagSize then none
    else
      let tagStart := payloadLen - tagSize
      let message := data.payload.take tagStart
      let tag := data.payload.drop tagStart
      let associatedData := associatedData ++ message
      let _ ← (ccmstar.decrypt nonce { msg := tag, aad := associatedData }).toOption
      return message

def encrypt (crates : Crates) (plaintext associatedData : List UInt8)
    (securityLevel : SecurityLevel) (keyIdentifier : KeyIdentifier) (frameCounter : UInt32)
    (extendedSource : Bool) (sourceAddress : ExtendedAddress) (store : KeyStore) :
    Option SecuredData := do
  let key ← generateEncryptionKey crates keyIdentifier store
  let nonce ← Security.generateNonce keyIdentifier frameCounter extendedSource securityLevel
    sourceAddress
  let ccmstar := ccmStar crates key securityLevel
  let associatedData ← (Security.generateAssociatedData keyIdentifier frameCounter
    (if extendedSource then some sourceAddress else none) securityLevel associatedData).toOption
  let payload ←
    if securityLevel.encryption then
      (ccmstar.encrypt nonce { msg := plaintext, aad := associatedData }).toOption
    else
      let associatedData := associatedData ++ plaintext
      (ccmstar.encrypt nonce { msg := [], aad := associatedData }).toOption.map fun tag =>
        plaintext ++ tag
  return { keyIdentifier, frameCounter
           extendedSource := if extendedSource then some sourceAddress else none, payload }

end SecuredData

end Security

end ZigbeeStack
