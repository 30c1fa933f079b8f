import ZigbeeStack.Pack

/-! IEEE 802.15.4 frames: addresses, the frame control word, the eight frame types, and their
encoding and decoding as hand-written or derived in the source. -/
namespace ZigbeeStack
open Bits

structure ShortAddress where
  value : UInt16
deriving DecidableEq, Repr

def ShortAddress.invalid : ShortAddress := ⟨0xFFFF⟩
def ShortAddress.noneAssigned : ShortAddress := ⟨0xFFFE⟩

structure ExtendedAddress where
  value : UInt64
deriving DecidableEq, Repr

structure PANID where
  value : UInt16
deriving DecidableEq, Repr

def PANID.broadcast : PANID := ⟨0xFFFF⟩

instance : Pack ShortAddress where
  unpack data := do
    let (value, data) ← Pack.unpack data
    return (⟨value⟩, data)
  pack self target := Pack.pack self.value target

instance : WordField ShortAddress UInt16 := ⟨.mk, ShortAddress.value, fun _ => rfl⟩

instance : PackField ShortAddress := ⟨fun _ => rfl, fun _ => rfl⟩

instance : Pack ExtendedAddress where
  unpack data := do
    let (value, data) ← Pack.unpack data
    return (⟨value⟩, data)
  pack self target := Pack.pack self.value target

instance : WordField ExtendedAddress UInt64 := ⟨.mk, ExtendedAddress.value, fun _ => rfl⟩

instance : PackField ExtendedAddress := ⟨fun _ => rfl, fun _ => rfl⟩

instance : Pack PANID where
  unpack data := do
    let (value, data) ← Pack.unpack data
    return (⟨value⟩, data)
  pack self target := Pack.pack self.value target

instance : WordField PANID UInt16 := ⟨.mk, PANID.value, fun _ => rfl⟩

instance : PackField PANID := ⟨fun _ => rfl, fun _ => rfl⟩

inductive AddressingMode where
  | none | reserved | short | extended
deriving DecidableEq, Repr

instance : ExtEnum AddressingMode UInt16 where
  intoTag
    | .none => 0
    | .reserved => 1
    | .short => 2
    | .extended => 3
  tryFromTag tag :=
    if tag = 0 then .ok .none
    else if tag = 1 then .ok .reserved
    else if tag = 2 then .ok .short
    else if tag = 3 then .ok .extended
    else .error .invalidTag

inductive Address where
  | short (address : ShortAddress)
  | extended (address : ExtendedAddress)
deriving DecidableEq, Repr

instance : PackTagged Address AddressingMode where
  getTag
    | .short _ => .short
    | .extended _ => .extended
  unpackData tag data :=
    match tag with
    | .short => do
      let (address, data) ← Pack.unpack data
      return (.short address, data)
    | .extended => do
      let (address, data) ← Pack.unpack data
      return (.extended address, data)
    | _ => .error .invalidEnumTag
  packData self target :=
    match self with
    | .short address => Pack.pack address target
    | .extended address => Pack.pack address target

structure FullAddress where
  panId : PANID
  address : Address
deriving DecidableEq, Repr

instance : PackTagged FullAddress AddressingMode where
  getTag self := PackTagged.getTag self.address
  unpackData tag data := do
    let (panId, data) ← Pack.unpack data
    let (address, data) ← PackTagged.unpackData tag data
    return (⟨panId, address⟩, data)
  packData self target := do
    let target ← Pack.pack self.panId target
    PackTagged.packData self.address target

/-! The words declared with `bitfield!`: a getter and a setter for each range of bits. -/

structure FrameControl where
  bits : UInt16
deriving DecidableEq, Repr

namespace FrameControl

def frameType (self : FrameControl) : UInt16 := bitRange self.bits 2 0
def setFrameType (self : FrameControl) (value : UInt16) : FrameControl :=
  ⟨setBitRange self.bits 2 0 value⟩
def securityEnabled (self : FrameControl) : UInt16 := bitRange self.bits 3 3
def setSecurityEnabled (self : FrameControl) (value : UInt16) : FrameControl :=
  ⟨setBitRange self.bits 3 3 value⟩
def framePending (self : FrameControl) : UInt16 := bitRange self.bits 4 4
def setFramePending (self : FrameControl) (value : UInt16) : FrameControl :=
  ⟨setBitRange self.bits 4 4 value⟩
def acknowledgeRequest (self : FrameControl) : UInt16 := bitRange self.bits 5 5
def setAcknowledgeRequest (self : FrameControl) (value : UInt16) : FrameControl :=
  ⟨setBitRange self.bits 5 5 value⟩
def panIdCompression (self : FrameControl) : UInt16 := bitRange self.bits 6 6
def setPanIdCompression (self : FrameControl) (value : UInt16) : FrameControl :=
  ⟨setBitRange self.bits 6 6 value⟩
def setReserved (self : FrameControl) (value : UInt16) : FrameControl :=
  ⟨setBitRange self.bits 7 7 value⟩
def sequenceNumberSupression (self : FrameControl) : UInt16 := bitRange self.bits 8 8
def setSequenceNumberSupression (self : FrameControl) (value : UInt16) : FrameControl :=
  ⟨setBitRange self.bits 8 8 value⟩
def informationElementsPresent (self : FrameControl) : UInt16 := bitRange self.bits 9 9
def setInformationElementsPresent (self : FrameControl) (value : UInt16) : FrameControl :=
  ⟨setBitRange self.bits 9 9 value⟩
def destinationAddressingMode (self : FrameControl) : UInt16 := bitRange self.bits 11 10
def setDestinationAddressingMode (self : FrameControl) (value : UInt16) : FrameControl :=
  ⟨setBitRange self.bits 11 10 value⟩
def setFrameVersion (self : FrameControl) (value : UInt16) : FrameControl :=
  ⟨setBitRange self.bits 13 12 value⟩
def sourceAddressingMode (self : FrameControl) : UInt16 := bitRange self.bits 15 14
def setSourceAddressingMode (self : FrameControl) (value : UInt16) : FrameControl :=
  ⟨setBitRange self.bits 15 14 value⟩

end FrameControl

instance : Pack FrameControl where
  unpack data := do
    let (bits, data) ← Pack.unpack data
    return (⟨bits⟩, data)
  pack self target := Pack.pack self.bits target

instance : WordField FrameControl UInt16 := ⟨.mk, FrameControl.bits, fun _ => rfl⟩

instance : PackField FrameControl := ⟨fun _ => rfl, fun _ => rfl⟩

structure SuperframeSpecification where
  bits : UInt16
deriving DecidableEq, Repr

namespace SuperframeSpecification

def beaconOrder (self : SuperframeSpecification) : UInt16 := bitRange self.bits 3 0
def setBeaconOrder (self : SuperframeSpecification) (value : UInt16) : SuperframeSpecification :=
  ⟨setBitRange self.bits 3 0 value⟩
def superframeOrder (self : SuperframeSpecification) : UInt16 := bitRange self.bits 7 4
def setSuperframeOrder (self : SuperframeSpecification) (value : UInt16) :
    SuperframeSpecification := ⟨setBitRange self.bits 7 4 value⟩
def finalCapSlot (self : SuperframeSpecification) : UInt16 := bitRange self.bits 11 8
def setFinalCapSlot (self : SuperframeSpecification) (value : UInt16) :
    SuperframeSpecification := ⟨setBitRange self.bits 11 8 value⟩
def batteryLifeExtension (self : SuperframeSpecification) : UInt16 := bitRange self.bits 12 12
def setBatteryLifeExtension (self : SuperframeSpecification) (value : UInt16) :
    SuperframeSpecification := ⟨setBitRange self.bits 12 12 value⟩
def setReserved (self : SuperframeSpecification) (value : UInt16) : SuperframeSpecification :=
  ⟨setBitRange self.bits 13 13 value⟩
def panCoordinator (self : SuperframeSpecification) : UInt16 := bitRange self.bits 14 14
def setPanCoordinator (self : SuperframeSpecification) (value : UInt16) :
    SuperframeSpecification := ⟨setBitRange self.bits 14 14 value⟩
def associationPermit (self : SuperframeSpecification) : UInt16 := bitRange self.bits 15 15
def setAssociationPermit (self : SuperframeSpecification) (value : UInt16) :
    SuperframeSpecification := ⟨setBitRange self.bits 15 15 value⟩

end SuperframeSpecification

instance : Pack SuperframeSpecification where
  unpack data := do
    let (bits, data) ← Pack.unpack data
    return (⟨bits⟩, data)
  pack self target := Pack.pack self.bits target

instance : WordField SuperframeSpecification UInt16 :=
  ⟨.mk, SuperframeSpecification.bits, fun _ => rfl⟩

instance : PackField SuperframeSpecification := ⟨fun _ => rfl, fun _ => rfl⟩

structure Payload where
  bytes : List UInt8
deriving DecidableEq, Repr

instance : Pack Payload where
  unpack data := .ok (⟨data⟩, data.drop data.length)
  pack self target := (PackTarget.append target self.bytes).mapError .targetError

structure Beacon where
  beaconOrder : Nat
  superframeOrder : Nat
  finalCapSlot : Nat
  batteryLifeExtension : Bool
  panCoordinator : Bool
  associationPermit : Bool
  payload : Payload
deriving DecidableEq, Repr

/- The superframe word that `pack` writes once the three orders are known to be in range. -/
def Beacon.superframe (self : Beacon) : SuperframeSpecification :=
  let ss := (SuperframeSpecification.mk 0).setBeaconOrder (.ofNat self.beaconOrder)
  let ss := ss.setSuperframeOrder (.ofNat self.superframeOrder)
  let ss := ss.setFinalCapSlot (.ofNat self.finalCapSlot)
  let ss := ss.setBatteryLifeExtension self.batteryLifeExtension.toUInt16
  let ss := ss.setReserved 0
  let ss := ss.setPanCoordinator self.panCoordinator.toUInt16
  ss.setAssociationPermit self.associationPermit.toUInt16

instance : Pack Beacon where
  unpack data := do
    let ((ss, gts, pendingAddresses), data) ←
      (Pack.unpack data :
        Except UnpackError ((SuperframeSpecification × UInt8 × UInt8) × List UInt8))
    if gts ≠ 0 ∨ pendingAddresses ≠ 0 then
      .error (.unimplemented (some "Non-zero GTS or pending-addresses not yet supported"))
    else do
      let (payload, data) ← Pack.unpack data
      return ({
        beaconOrder := ss.beaconOrder.toNat
        superframeOrder := ss.superframeOrder.toNat
        finalCapSlot := ss.finalCapSlot.toNat
        batteryLifeExtension := ss.batteryLifeExtension != 0
        panCoordinator := ss.panCoordinator != 0
        associationPermit := ss.associationPermit != 0
        payload := payload }, data)
  pack self target :=
    if self.beaconOrder > 0xF then .error (.notAllowed (some "Beacon order out of range"))
    else if self.superframeOrder > 0xF then
      .error (.notAllowed (some "Superframe order out of range"))
    else if self.finalCapSlot > 0xF then
      .error (.notAllowed (some "Final cap slot order out of range"))
    else do
      let target ← Pack.pack (self.superframe, (0 : UInt8), (0 : UInt8)) target
      Pack.pack self.payload target

inductive DeviceType where
  | rfd | ffd
deriving DecidableEq, Repr

instance : PackTagged DeviceType UInt8 where
  getTag
    | .rfd => 0
    | .ffd => 1
  unpackData tag data :=
    if tag = 0 then .ok (.rfd, data)
    else if tag = 1 then .ok (.ffd, data)
    else .error .invalidEnumTag
  packData _ target := .ok target

inductive PowerSource where
  | battery | ac
deriving DecidableEq, Repr

instance : PackTagged PowerSource UInt8 where
  getTag
    | .battery => 0
    | .ac => 1
  unpackData tag data :=
    if tag = 0 then .ok (.battery, data)
    else if tag = 1 then .ok (.ac, data)
    else .error .invalidEnumTag
  packData _ target := .ok target

structure CapabilityInformation where
  deviceType : DeviceType
  powerSource : PowerSource
  receiverOnWhenIdle : Bool
  fastAssociation : Bool
  securityCapable : Bool
  allocateAddress : Bool
deriving DecidableEq, Repr

/- `pack` of the source returns its target as it got it: no byte is written. -/
instance : Pack CapabilityInformation where
  unpack data := do
    let (capability, data) ← (Pack.unpack data : Except UnpackError (UInt8 × List UInt8))
    let (deviceType, data) ← PackTagged.unpackData ((capability >>> 1) &&& 1) data
    let (powerSource, data) ← PackTagged.unpackData ((capability >>> 2) &&& 1) data
    return ({
      deviceType := deviceType
      powerSource := powerSource
      receiverOnWhenIdle := (capability >>> 3) &&& 1 != 0
      fastAssociation := (capability >>> 4) &&& 1 != 0
      securityCapable := (capability >>> 6) &&& 1 != 0
      allocateAddress := (capability >>> 7) &&& 1 != 0 }, data)
  pack _ target := .ok target

inductive AssociationError where
  | panAtCapacity | panAccessDenied | hoppingSequenceOffset
deriving DecidableEq, Repr

instance : PackTagged AssociationError UInt8 where
  getTag
    | .panAtCapacity => 1
    | .panAccessDenied => 2
    | .hoppingSequenceOffset => 3
  unpackData tag data :=
    if tag = 1 then .ok (.panAtCapacity, data)
    else if tag = 2 then .ok (.panAccessDenied, data)
    else if tag = 3 then .ok (.hoppingSequenceOffset, data)
    else .error .invalidEnumTag
  packData _ target := .ok target

structure AssociationResponse where
  fastAssociation : Bool
  status : Except AssociationError ShortAddress
deriving DecidableEq, Repr

instance : Pack AssociationResponse where
  unpack data := do
    let (shortAddress, data) ← Pack.unpack data
    let (status, data) ← (Pack.unpack data : Except UnpackError (UInt8 × List UInt8))
    let fastAssociation := status &&& 0x80 != 0
    let status := status &&& 0x7F
    if status = 0 then return (⟨fastAssociation, .ok shortAddress⟩, data)
    else do
      let (error, data) ← PackTagged.unpackData status data
      return (⟨fastAssociation, .error error⟩, data)
  pack self target := do
    let (address, status) := match self.status with
      | .ok address => (address, (0 : UInt8))
      | .error x => (ShortAddress.invalid, PackTagged.getTag x)
    let status := if self.fastAssociation then status ||| 0x80 else status
    let target ← Pack.pack address target
    Pack.pack status target

inductive Command where
  | associationRequest (capability : CapabilityInformation)
  | associationResponse (response : AssociationResponse)
  | dataRequest
  | beaconRequest
deriving DecidableEq, Repr

def Command.getTag : Command → UInt8
  | .associationRequest _ => 0x01
  | .associationResponse _ => 0x02
  | .dataRequest => 0x04
  | .beaconRequest => 0x07

instance : Pack Command where
  unpack data := do
    let (tag, data) ← (Pack.unpack data : Except UnpackError (UInt8 × List UInt8))
    if tag = 0x01 then do
      let (capability, data) ← Pack.unpack data
      return (.associationRequest capability, data)
    else if tag = 0x02 then do
      let (response, data) ← Pack.unpack data
      return (.associationResponse response, data)
    else if tag = 0x04 then return (.dataRequest, data)
    else if tag = 0x07 then return (.beaconRequest, data)
    else .error .invalidEnumTag
  pack self target := do
    let target ← Pack.pack self.getTag target
    match self with
    | .associationRequest capability => Pack.pack capability target
    | .associationResponse response => Pack.pack response target
    | .dataRequest => return target
    | .beaconRequest => return target

inductive FrameType where
  | beacon (beacon : Beacon)
  | data (payload : Payload)
  | ack (payload : Payload)
  | command (command : Command)
  | reserved (payload : Payload)
  | multipurpose (payload : Payload)
  | fragment (payload : Payload)
  | extended (payload : Payload)
deriving DecidableEq, Repr

instance : PackTagged FrameType UInt8 where
  getTag
    | .beacon _ => 0
    | .data _ => 1
    | .ack _ => 2
    | .command _ => 3
    | .reserved _ => 4
    | .multipurpose _ => 5
    | .fragment _ => 6
    | .extended _ => 7
  unpackData tag data :=
    if tag = 0 then do let (x, data) ← Pack.unpack data; return (.beacon x, data)
    else if tag = 1 then do let (x, data) ← Pack.unpack data; return (.data x, data)
    else if tag = 2 then do let (x, data) ← Pack.unpack data; return (.ack x, data)
    else if tag = 3 then do let (x, data) ← Pack.unpack data; return (.command x, data)
    else if tag = 4 then do let (x, data) ← Pack.unpack data; return (.reserved x, data)
    else if tag = 5 then do let (x, data) ← Pack.unpack data; return (.multipurpose x, data)
    else if tag = 6 then do let (x, data) ← Pack.unpack data; return (.fragment x, data)
    else if tag = 7 then do let (x, data) ← Pack.unpack data; return (.extended x, data)
    else .error .invalidEnumTag
  packData self target :=
    match self with
    | .beacon x => Pack.pack x target
    | .command x => Pack.pack x target
    | .data x | .ack x | .reserved x | .multipurpose x | .fragment x | .extended x =>
      Pack.pack x target

structure Frame where
  framePending : Bool
  acknowledgeRequest : Bool
  sequenceNumber : Option UInt8
  destination : Option FullAddress
  source : Option FullAddress
  frameType : FrameType
deriving DecidableEq, Repr

namespace Frame

def unpackAddress (mode : AddressingMode) (previousPan : Option PANID) (data : List UInt8) :
    Except UnpackError (Option FullAddress × List UInt8) :=
  if mode = .none then .ok (none, data)
  else match previousPan with
    | some panId => do
      let (address, data) ← PackTagged.unpackData mode data
      return (some ⟨panId, address⟩, data)
    | none => do
      let (address, data) ← PackTagged.unpackData mode data
      return (some address, data)

def addressingMode (address : Option FullAddress) : AddressingMode :=
  (address.map PackTagged.getTag).getD .none

def panIdCompression (self : Frame) : Bool :=
  let destinationPanId := self.destination.map (·.panId)
  let sourcePanId := self.source.map (·.panId)
  destinationPanId.isSome && destinationPanId == sourcePanId

def control (self : Frame) : FrameControl :=
  let fc := (FrameControl.mk 0).setFrameType (PackTagged.getTag self.frameType).toUInt16
  let fc := fc.setSecurityEnabled 0
  let fc := fc.setFramePending self.framePending.toUInt16
  let fc := fc.setAcknowledgeRequest self.acknowledgeRequest.toUInt16
  let fc := fc.setPanIdCompression self.panIdCompression.toUInt16
  let fc := fc.setReserved 0
  let fc := fc.setSequenceNumberSupression self.sequenceNumber.isNone.toUInt16
  let fc := fc.setInformationElementsPresent 0
  let fc := fc.setDestinationAddressingMode (ExtEnum.intoTag (addressingMode self.destination))
  let fc := fc.setSourceAddressingMode (ExtEnum.intoTag (addressingMode self.source))
  fc.setFrameVersion 0

def packDestination {T E : Type} [PackTarget T E] (self : Frame) (target : T) :
    Except (PackError E) T :=
  match self.destination with
  | some destination => PackTagged.packData destination target
  | none => .ok target

def packSource {T E : Type} [PackTarget T E] (self : Frame) (target : T) :
    Except (PackError E) T :=
  match self.source with
  | some source =>
    if self.panIdCompression then PackTagged.packData source.address target
    else PackTagged.packData source target
  | none => .ok target

instance : Pack Frame where
  unpack data := do
    let (fc, data) ← (Pack.unpack data : Except UnpackError (FrameControl × List UInt8))
    let (sequenceNumber, data) ← PackTagged.unpackData (fc.sequenceNumberSupression == 0) data
    let mode ← (ExtEnum.tryFromTag fc.destinationAddressingMode).mapError
      ExtEnumError.toUnpackError
    let (destination, data) ← unpackAddress mode none data
    let mode ← (ExtEnum.tryFromTag fc.sourceAddressingMode).mapError ExtEnumError.toUnpackError
    let previousPan := if fc.panIdCompression ≠ 0 then destination.map (·.panId) else none
    let (source, data) ← unpackAddress mode previousPan data
    if fc.informationElementsPresent ≠ 0 then
      .error (.unimplemented (some "Information elements not implemented"))
    else if fc.securityEnabled ≠ 0 then
      .error (.unimplemented (some "Secured frames not yet supported"))
    else do
      let (frameType, data) ← PackTagged.unpackData fc.frameType.toUInt8 data
      return ({
        framePending := fc.framePending != 0
        acknowledgeRequest := fc.acknowledgeRequest != 0
        sequenceNumber := sequenceNumber
        destination := destination
        source := source
        frameType := frameType }, data)
  pack self target := do
    let target ← Pack.pack self.control target
    let target ← PackTagged.packData self.sequenceNumber target
    let target ← self.packDestination target
    let target ← self.packSource target
    PackTagged.packData self.frameType target

end Frame
end ZigbeeStack
