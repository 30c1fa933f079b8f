import ZigbeeStack.NwkFrame

/-! The frames of the first MAC, and how they were written and read. -/
namespace ZigbeeStack

instance : Serialize PANID where
  serializeTo self := Serialize.serializeTo self.value

instance : Deserialize PANID where
  deserialize input := do
    let (input, value) ← Deserialize.deserialize input
    return (input, ⟨value⟩)

instance : SerializeField PANID := ⟨fun _ _ => rfl, fun _ => rfl⟩

namespace OldSrc
open Bits

inductive AddressSpecification where
  | none
  | short (panid : PANID) (address : ShortAddress)
  | extended (panid : PANID) (address : ExtendedAddress)
deriving DecidableEq, Repr

inductive DeviceType where
  | rfd | ffd
deriving DecidableEq, Repr

inductive PowerSource where
  | battery | powered
deriving DecidableEq, Repr

inductive AssociationResponseStatus where
  | associationSuccessful | panAtCapacity | panAccessDenied | hoppingSequenceOffsetDuplication
  | fastAssociationSuccessful
deriving DecidableEq, Repr

inductive Command where
  | associationRequest (alternatePanCoordinator : Bool) (deviceType : DeviceType)
      (powerSource : PowerSource) (receiveOnWhenIdle securityCapability allocateAddress : Bool)
  | associationResponse (shortAddress : ShortAddress) (status : AssociationResponseStatus)
  | dataRequest
  | beaconRequest
deriving DecidableEq, Repr

inductive FrameType where
  | beacon (beaconOrder superframeOrder finalCapSlot : Nat)
      (batteryLifeExtension panCoordinator associationPermit : Bool)
  | data
  | ack
  | command (command : Command)
  | reserved
  | multipurpose
  | fragment
  | extended
deriving DecidableEq, Repr

structure Frame where
  framePending : Bool
  acknowledgeRequest : Bool
  sequenceNumber : Option UInt8
  destination : AddressSpecification
  source : AddressSpecification
  frameType : FrameType
  payload : List UInt8
deriving DecidableEq, Repr

namespace Frame

def expectAck (self : Frame) : Option UInt8 :=
  if !self.acknowledgeRequest then none else self.sequenceNumber

end Frame

/-! Numbers of the enumerations. The conversions are derived, and the status is a byte. -/

def DeviceType.tryFrom (value : UInt8) : Option DeviceType :=
  if value = 0 then some .rfd else if value = 1 then some .ffd else none

def PowerSource.tryFrom (value : UInt8) : Option PowerSource :=
  if value = 0 then some .battery else if value = 1 then some .powered else none

def AssociationResponseStatus.toUInt8 : AssociationResponseStatus → UInt8
  | .associationSuccessful => 0
  | .panAtCapacity => 1
  | .panAccessDenied => 2
  | .hoppingSequenceOffsetDuplication => 3
  | .fastAssociationSuccessful => 0x80

def AssociationResponseStatus.tryFrom (value : UInt8) : Option AssociationResponseStatus :=
  if value = 0 then some .associationSuccessful
  else if value = 1 then some .panAtCapacity
  else if value = 2 then some .panAccessDenied
  else if value = 3 then some .hoppingSequenceOffsetDuplication
  else if value = 0x80 then some .fastAssociationSuccessful
  else none

instance : Serialize AssociationResponseStatus where
  serializeTo self := Serialize.serializeTo self.toUInt8

instance : Deserialize AssociationResponseStatus where
  deserialize input := do
    let (rest, value) ← (Deserialize.deserialize input : Except _ (_ × UInt8))
    match AssociationResponseStatus.tryFrom value with
    | some status => .ok (rest, status)
    | none => .error (.invalidEnumValue input)

/-! The control word and the superframe word are laid out as in the later codec. -/

abbrev FrameControl := ZigbeeStack.FrameControl

instance : Serialize FrameControl where
  serializeTo self := Serialize.serializeTo self.bits

instance : Deserialize FrameControl where
  deserialize input := do
    let (input, bits) ← Deserialize.deserialize input
    return (input, ⟨bits⟩)

instance : SerializeField FrameControl := ⟨fun _ _ => rfl, fun _ => rfl⟩

abbrev SuperframeSpecification := ZigbeeStack.SuperframeSpecification

instance : Serialize SuperframeSpecification where
  serializeTo self := Serialize.serializeTo self.bits

instance : Deserialize SuperframeSpecification where
  deserialize input := do
    let (input, bits) ← Deserialize.deserialize input
    return (input, ⟨bits⟩)

instance : SerializeField SuperframeSpecification := ⟨fun _ _ => rfl, fun _ => rfl⟩

structure AssociationRequest where
  bits : UInt8
deriving DecidableEq, Repr

namespace AssociationRequest

def bit (self : AssociationRequest) (i : Nat) : UInt8 := bitRange self.bits i i

def alternatePanCoordinator (self : AssociationRequest) : UInt8 := self.bit 0
def deviceType (self : AssociationRequest) : UInt8 := self.bit 1
def powerSource (self : AssociationRequest) : UInt8 := self.bit 2
def receiveOnWhenIdle (self : AssociationRequest) : UInt8 := self.bit 3
def securityCapability (self : AssociationRequest) : UInt8 := self.bit 6
def allocateAddress (self : AssociationRequest) : UInt8 := self.bit 7

end AssociationRequest

instance : Deserialize AssociationRequest where
  deserialize input := do
    let (input, bits) ← Deserialize.deserialize input
    return (input, ⟨bits⟩)

namespace AddressSpecification

def panid : AddressSpecification → Option PANID
  | .none => .none
  | .short panid _ => some panid
  | .extended panid _ => some panid

/- The PAN id is written unless it is to be left out. -/
def serializePanid (skipPanid : Bool) (panid : PANID) (target : List UInt8) :
    Except SerializeError (List UInt8) :=
  if skipPanid then .ok target else Serialize.serializeTo panid target

def serializeTo (self : AddressSpecification) (skipPanid : Bool) (target : List UInt8) :
    Except SerializeError (List UInt8) :=
  match self with
  | .none => .ok target
  | .short panid address => do
    let target ← serializePanid skipPanid panid target
    Serialize.serializeTo address target
  | .extended panid address => do
    let target ← serializePanid skipPanid panid target
    Serialize.serializeTo address target

def serializeTag : AddressSpecification → UInt16
  | .none => 0
  | .short _ _ => 2
  | .extended _ _ => 3

/- The PAN id is read unless there is one to use. -/
def deserializePanid (usePanid : Option PANID) (input : List UInt8) :
    Except DeserializeError (List UInt8 × PANID) :=
  match usePanid with
  | some panid => .ok (input, panid)
  | .none => Deserialize.deserialize input

def deserialize (tag : UInt16) (usePanid : Option PANID) (input : List UInt8) :
    Except DeserializeError (List UInt8 × AddressSpecification) :=
  if tag = 0 then .ok (input, .none)
  else if tag = 1 then
    .error (.unimplemented input "Unable to parse Frame with 'Reserved' address specification")
  else if tag = 2 then do
    let (input, panid) ← deserializePanid usePanid input
    let (input, address) ← Deserialize.deserialize input
    return (input, .short panid address)
  else if tag = 3 then do
    let (input, panid) ← deserializePanid usePanid input
    let (input, address) ← Deserialize.deserialize input
    return (input, .extended panid address)
  else .error (.unexpectedData input)

end AddressSpecification

/-! A bit stands for a device type and for a power source, so that no conversion fails. -/

theorem AssociationRequest.bit_zero_or_one (bf : AssociationRequest) {i : Nat} (hi : i < 8) :
    bf.bit i = 0 ∨ bf.bit i = 1 := by
  have hlt : (bf.bit i).toNat < 2 ^ (i + 1 - i) := toNat_bitRange_lt bf.bits le_rfl (by simpa)
  rw [Nat.add_sub_cancel_left, pow_one] at hlt
  rw [← UInt8.toNat_inj, ← UInt8.toNat_inj]
  change _ = 0 ∨ _ = 1
  omega

theorem DeviceType.tryFrom_bit (bf : AssociationRequest) :
    (DeviceType.tryFrom bf.deviceType).isSome := by
  rw [AssociationRequest.deviceType]
  obtain h | h := bf.bit_zero_or_one (show 1 < 8 by decide) <;> rw [h] <;> rfl

theorem PowerSource.tryFrom_bit (bf : AssociationRequest) :
    (PowerSource.tryFrom bf.powerSource).isSome := by
  rw [AssociationRequest.powerSource]
  obtain h | h := bf.bit_zero_or_one (show 2 < 8 by decide) <;> rw [h] <;> rfl

def AssociationRequest.command (bf : AssociationRequest) : Command :=
  .associationRequest (bf.alternatePanCoordinator > 0)
    ((DeviceType.tryFrom bf.deviceType).get (DeviceType.tryFrom_bit bf))
    ((PowerSource.tryFrom bf.powerSource).get (PowerSource.tryFrom_bit bf))
    (bf.receiveOnWhenIdle > 0) (bf.securityCapability > 0) (bf.allocateAddress > 0)

instance : Deserialize Command where
  deserialize input := do
    let (input, commandId) ← (Deserialize.deserialize input : Except _ (_ × UInt8))
    if commandId = 1 then do
      let (input, bf) ← (Deserialize.deserialize input : Except _ (_ × AssociationRequest))
      return (input, bf.command)
    else if commandId = 2 then do
      let (input, shortAddress) ← Deserialize.deserialize input
      let (input, status) ← Deserialize.deserialize input
      return (input, .associationResponse shortAddress status)
    else if commandId = 4 then return (input, .dataRequest)
    else if commandId = 7 then return (input, .beaconRequest)
    else .error (.unimplemented input "Command not implemented")

instance : Serialize Command where
  serializeTo
    | .associationResponse shortAddress status, target =>
      Serialize.serializeTo ((2 : UInt8), shortAddress, status) target
    | _, _ => .error (.unimplemented "Serialization of command not implemented")

namespace FrameType

def deserialize (frameType : UInt16) (input : List UInt8) :
    Except DeserializeError (List UInt8 × FrameType) :=
  if frameType = 0 then do
    let (input, superframeSpec, gts, pendingAddresses) ←
      (Deserialize.deserialize input : Except _ (_ × SuperframeSpecification × UInt8 × UInt8))
    if gts ≠ 0 ∨ pendingAddresses ≠ 0 then
      .error (.unimplemented input "Beacon frame, GTS or pending addresses not empty")
    else
      return (input, .beacon superframeSpec.beaconOrder.toNat superframeSpec.superframeOrder.toNat
        superframeSpec.finalCapSlot.toNat (superframeSpec.batteryLifeExtension != 0)
        (superframeSpec.panCoordinator != 0) (superframeSpec.associationPermit != 0))
  else if frameType = 1 then .ok (input, .data)
  else if frameType = 2 then .ok (input, .ack)
  else if frameType = 3 then do
    let (input, cmd) ← Deserialize.deserialize input
    return (input, .command cmd)
  else if frameType = 4 then .ok (input, .reserved)
  else if frameType > 7 then .error (.unexpectedData input)
  else .error (.unimplemented input "MAC Type not implemented")

def serializeTag : FrameType → Except SerializeError UInt16
  | .beacon _ _ _ _ _ _ => .ok 0
  | .data => .ok 1
  | .ack => .ok 2
  | .command _ => .ok 3
  | .reserved => .ok 4
  | _ => .error (.unimplemented "FrameType not implemented")

/- `usize` into `u16`. -/
def toU16 (value : Nat) (text : String) : Except SerializeError UInt16 :=
  if value < UInt16.size then .ok (.ofNat value) else .error (.unimplemented text)

def superframe (beaconOrder superframeOrder finalCapSlot : UInt16)
    (batteryLifeExtension panCoordinator associationPermit : Bool) : SuperframeSpecification :=
  let ss := (ZigbeeStack.SuperframeSpecification.mk 0).setBeaconOrder beaconOrder
  let ss := ss.setSuperframeOrder superframeOrder
  let ss := ss.setFinalCapSlot finalCapSlot
  let ss := ss.setBatteryLifeExtension batteryLifeExtension.toUInt16
  let ss := ss.setReserved 0
  let ss := ss.setPanCoordinator panCoordinator.toUInt16
  ss.setAssociationPermit associationPermit.toUInt16

instance : Serialize FrameType where
  serializeTo self target :=
    match self with
    | .beacon beaconOrder superframeOrder finalCapSlot batteryLifeExtension panCoordinator
        associationPermit => do
      let beaconOrder ← toU16 beaconOrder "Beacon order is too big"
      let superframeOrder ← toU16 superframeOrder "Superframe order is too big"
      let finalCapSlot ← toU16 finalCapSlot "Final cap slot is too big"
      let ss := superframe beaconOrder superframeOrder finalCapSlot batteryLifeExtension
        panCoordinator associationPermit
      Serialize.serializeTo (ss, (0 : UInt8), (0 : UInt8)) target
    | .data => .ok target
    | .ack => .ok target
    | .command cmd => Serialize.serializeTo cmd target
    | _ => .error (.unimplemented "Frametype not implemented")

end FrameType

namespace Frame

def deserializeSequenceNumber (present : Bool) (input : List UInt8) :
    Except DeserializeError (List UInt8 × Option UInt8) :=
  if present then do
    let (input, sequenceNumber) ← Deserialize.deserialize input
    return (input, some sequenceNumber)
  else .ok (input, none)

def deserialize (input : List UInt8) : Except DeserializeError (List UInt8 × Frame) := do
  let (input, fsf) ← (Deserialize.deserialize input : Except _ (_ × FrameControl))
  let framePending := decide (fsf.framePending > 0)
  let acknowledgeRequest := decide (fsf.acknowledgeRequest > 0)
  let (input, sequenceNumber) ←
    deserializeSequenceNumber (fsf.sequenceNumberSupression == 0) input
  let (input, destination) ←
    AddressSpecification.deserialize fsf.destinationAddressingMode none input
  let sourcePanCompression := if fsf.panIdCompression ≠ 0 then destination.panid else none
  let (input, source) ←
    AddressSpecification.deserialize fsf.sourceAddressingMode sourcePanCompression input
  let (input, frameType) ← FrameType.deserialize fsf.frameType input
  return ([], { framePending, acknowledgeRequest, sequenceNumber, destination, source, frameType,
                payload := input })

instance : Deserialize Frame := ⟨deserialize⟩

def panIdCompression (self : Frame) : Bool :=
  decide (self.source.panid = self.destination.panid) && self.source.panid.isSome

def control (self : Frame) (tag : UInt16) : FrameControl :=
  let fsf := (ZigbeeStack.FrameControl.mk 0).setFrameType tag
  let fsf := fsf.setSecurityEnabled 0
  let fsf := fsf.setFramePending self.framePending.toUInt16
  let fsf := fsf.setAcknowledgeRequest self.acknowledgeRequest.toUInt16
  let fsf := fsf.setPanIdCompression self.panIdCompression.toUInt16
  let fsf := fsf.setReserved 0
  let fsf := fsf.setSequenceNumberSupression self.sequenceNumber.isNone.toUInt16
  let fsf := fsf.setInformationElementsPresent 0
  let fsf := fsf.setDestinationAddressingMode self.destination.serializeTag
  let fsf := fsf.setFrameVersion 0
  fsf.setSourceAddressingMode self.source.serializeTag

def serializeSequenceNumber (sequenceNumber : Option UInt8) (target : List UInt8) :
    Except SerializeError (List UInt8) :=
  match sequenceNumber with
  | some x => Serialize.serializeTo x target
  | none => .ok target

def serializeTo (self : Frame) (target : List UInt8) : Except SerializeError (List UInt8) := do
  let tag ← self.frameType.serializeTag
  let target ← Serialize.serializeTo (self.control tag) target
  let target ← serializeSequenceNumber self.sequenceNumber target
  let target ← self.destination.serializeTo false target
  let target ← self.source.serializeTo self.panIdCompression target
  let target ← Serialize.serializeTo self.frameType target
  return target ++ self.payload

instance : Serialize Frame := ⟨serializeTo⟩

end Frame

/- A frame of the source's own tests: an association response from end to end. -/
example : serialize (Frame.mk false true (some 10)
    (.extended ⟨0x7698⟩ ⟨0xd0cf5efffe1c6306⟩) (.extended ⟨0x7698⟩ ⟨0x00124b000e896815⟩)
    (.command (.associationResponse ⟨0x558b⟩ .associationSuccessful)) []) =
    .ok [0x63, 0xcc, 0x0a, 0x98, 0x76, 0x06, 0x63, 0x1c, 0xfe, 0xff, 0x5e, 0xcf, 0xd0, 0x15, 0x68,
      0x89, 0x0e, 0x00, 0x4b, 0x12, 0x00, 0x02, 0x8b, 0x55, 0x00] := by decide

end OldSrc
end ZigbeeStack
