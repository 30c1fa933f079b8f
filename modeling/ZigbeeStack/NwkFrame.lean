import ZigbeeStack.FrameRoundTrip
import ZigbeeStack.SecuredPayloads

/-! Zigbee network frames: what is written is read back, and what the fields of the wire cannot
hold is refused. -/
namespace ZigbeeStack

instance : Serialize ShortAddress where
  serializeTo self := Serialize.serializeTo self.value

instance : Deserialize ShortAddress where
  deserialize input := do
    let (input, value) ← Deserialize.deserialize input
    return (input, ⟨value⟩)

instance : SerializeField ShortAddress := ⟨fun _ _ => rfl, fun _ => rfl⟩

namespace Nwk
open Bits Security

inductive FrameType where
  | data (payload : List UInt8)
  | command (payload : List UInt8)
  | interPAN (payload : List UInt8)
deriving DecidableEq, Repr

inductive DiscoverRoute where
  | supressRouteDiscovery | enableRouteDiscovery
deriving DecidableEq, Repr

def DiscoverRoute.toUInt16 : DiscoverRoute → UInt16
  | .supressRouteDiscovery => 0
  | .enableRouteDiscovery => 1

/- The derived `TryFrom`. -/
def DiscoverRoute.tryFrom (value : UInt16) : Option DiscoverRoute :=
  if value = 0 then some .supressRouteDiscovery
  else if value = 1 then some .enableRouteDiscovery
  else none

structure SourceRoute where
  relayIndex : UInt8
  relayList : List ShortAddress
deriving DecidableEq, Repr

structure Frame where
  frameType : SecurableTagged FrameType UInt16
  protocolVersion : UInt8
  destination : ShortAddress
  source : ShortAddress
  radius : UInt8
  sequenceNumber : UInt8
  discoverRoute : DiscoverRoute
  destinationExt : Option ExtendedAddress
  sourceExt : Option ExtendedAddress
  sourceRoute : Option SourceRoute
deriving DecidableEq, Repr

structure FrameControl where
  bits : UInt16
deriving DecidableEq, Repr

namespace FrameControl

def frameType (self : FrameControl) : UInt16 := bitRange self.bits 1 0
def setFrameType (self : FrameControl) (value : UInt16) : FrameControl :=
  ⟨setBitRange self.bits 1 0 value⟩
def protocolVersion (self : FrameControl) : UInt16 := bitRange self.bits 5 2
def setProtocolVersion (self : FrameControl) (value : UInt16) : FrameControl :=
  ⟨setBitRange self.bits 5 2 value⟩
def discoverRoute (self : FrameControl) : UInt16 := bitRange self.bits 7 6
def setDiscoverRoute (self : FrameControl) (value : UInt16) : FrameControl :=
  ⟨setBitRange self.bits 7 6 value⟩
def multicastFlag (self : FrameControl) : UInt16 := bitRange self.bits 8 8
def setMulticastFlag (self : FrameControl) (value : UInt16) : FrameControl :=
  ⟨setBitRange self.bits 8 8 value⟩
def security (self : FrameControl) : UInt16 := bitRange self.bits 9 9
def setSecurity (self : FrameControl) (value : UInt16) : FrameControl :=
  ⟨setBitRange self.bits 9 9 value⟩
def sourceRoute (self : FrameControl) : UInt16 := bitRange self.bits 10 10
def setSourceRoute (self : FrameControl) (value : UInt16) : FrameControl :=
  ⟨setBitRange self.bits 10 10 value⟩
def destinationIeeeAddress (self : FrameControl) : UInt16 := bitRange self.bits 11 11
def setDestinationIeeeAddress (self : FrameControl) (value : UInt16) : FrameControl :=
  ⟨setBitRange self.bits 11 11 value⟩
def sourceIeeeAddress (self : FrameControl) : UInt16 := bitRange self.bits 12 12
def setSourceIeeeAddress (self : FrameControl) (value : UInt16) : FrameControl :=
  ⟨setBitRange self.bits 12 12 value⟩
def reserved (self : FrameControl) : UInt16 := bitRange self.bits 15 13
def setReserved (self : FrameControl) (value : UInt16) : FrameControl :=
  ⟨setBitRange self.bits 15 13 value⟩

end FrameControl

instance : Serialize FrameControl where
  serializeTo self := Serialize.serializeTo self.bits

instance : Deserialize FrameControl where
  deserialize input := do
    let (input, bits) ← Deserialize.deserialize input
    return (input, ⟨bits⟩)

instance : WordField FrameControl UInt16 := ⟨.mk, FrameControl.bits, fun _ => rfl⟩

instance : SerializeField FrameControl := ⟨fun _ _ => rfl, fun _ => rfl⟩

instance : Serialize FrameType where
  serializeTo
    | .data payload, target => .ok (target ++ payload)
    | _, _ => .error (.unimplemented "Not yet implemented")

instance : SerializeTagged FrameType UInt16 where
  serializeTag
    | .data _ => .ok 0
    | .command _ => .ok 1
    | .interPAN _ => .ok 3

instance : DeserializeTagged FrameType UInt16 where
  deserialize tag input :=
    if tag = 0 then .ok ([], .data input) else .error (.unexpectedData input)

def SourceRoute.serializeTo (self : SourceRoute) (target : List UInt8) :
    Except SerializeError (List UInt8) := do
  let len := self.relayList.length
  if len > 255 then throw .unexpectedData
  let target ← Serialize.serializeTo (UInt8.ofNat len, self.relayIndex) target
  serializeAll self.relayList target

instance : Serialize SourceRoute := ⟨SourceRoute.serializeTo⟩

instance : Deserialize SourceRoute where
  deserialize input := do
    let (input, len, relayIndex) ← (Deserialize.deserialize input : Except _ (_ × UInt8 × UInt8))
    let (input, relayList) ← deserializeCount len.toNat input
    return (input, ⟨relayIndex, relayList⟩)

def Frame.control (self : Frame) (frameTypeTag : Bool × UInt16) : FrameControl :=
  ((((((((((FrameControl.mk 0).setFrameType frameTypeTag.2).setProtocolVersion
    self.protocolVersion.toUInt16).setDiscoverRoute self.discoverRoute.toUInt16).setMulticastFlag
    0).setSecurity frameTypeTag.1.toUInt16).setSourceRoute
    self.sourceRoute.isSome.toUInt16).setDestinationIeeeAddress
    self.destinationExt.isSome.toUInt16).setSourceIeeeAddress
    self.sourceExt.isSome.toUInt16).setReserved 0)

def Frame.serializeTo (self : Frame) (target : List UInt8) :
    Except SerializeError (List UInt8) := do
  let frameTypeTag ← SerializeTagged.serializeTag self.frameType
  if self.protocolVersion > 15 then throw .unexpectedData
  let fsf := self.control frameTypeTag
  let target ← Serialize.serializeTo
    (fsf, self.destination, self.source, self.radius, self.sequenceNumber) target
  let target ← serializeOption self.destinationExt target
  let target ← serializeOption self.sourceExt target
  let target ← serializeOption self.sourceRoute target
  Serialize.serializeTo self.frameType target

instance : Serialize Frame := ⟨Frame.serializeTo⟩

def Frame.deserialize (input : List UInt8) : Except DeserializeError (List UInt8 × Frame) := do
  let (input, fsf) ← (Deserialize.deserialize input : Except _ (_ × FrameControl))
  let protocolVersion := fsf.protocolVersion.toUInt8
  let discoverRoute ← match DiscoverRoute.tryFrom fsf.discoverRoute with
    | some discoverRoute => .ok discoverRoute
    | none => .error (.invalidEnumValue input)
  if fsf.multicastFlag ≠ 0 then throw (.unimplemented input "Multicast not yet supported")
  if fsf.reserved ≠ 0 then throw (.unimplemented input "Reserved was not 0")
  let (input, destination, source, radius, sequenceNumber) ← Deserialize.deserialize input
  let (input, destinationExt) ← deserializeCond (fsf.destinationIeeeAddress != 0) input
  let (input, sourceExt) ← deserializeCond (fsf.sourceIeeeAddress != 0) input
  let (input, sourceRoute) ← deserializeCond (fsf.sourceRoute != 0) input
  let (input, frameType) ← DeserializeTagged.deserialize (fsf.security != 0, fsf.frameType) input
  return (input, { frameType, protocolVersion, destination, source, radius, sequenceNumber
                   discoverRoute, destinationExt, sourceExt, sourceRoute })

instance : Deserialize Frame := ⟨Frame.deserialize⟩

/-! The control word reads back what the frame has put into it. -/

section Control
variable (f : Frame) (tag : Bool × UInt16)

theorem control_bits : (f.control tag).bits =
    setBitRange (setBitRange (setBitRange (setBitRange (setBitRange (setBitRange
      (setBitRange (setBitRange (setBitRange 0
        1 0 tag.2) 5 2 f.protocolVersion.toUInt16) 7 6 f.discoverRoute.toUInt16) 8 8 0)
        9 9 tag.1.toUInt16) 10 10 f.sourceRoute.isSome.toUInt16)
        11 11 f.destinationExt.isSome.toUInt16) 12 12 f.sourceExt.isSome.toUInt16) 15 13 0 := rfl

theorem control_fields (htag : tag.2 < 4) (hversion : f.protocolVersion ≤ 15) :
    (f.control tag).frameType = tag.2 ∧
    (f.control tag).protocolVersion = f.protocolVersion.toUInt16 ∧
    (f.control tag).discoverRoute = f.discoverRoute.toUInt16 ∧
    (f.control tag).multicastFlag = 0 ∧
    (f.control tag).security = tag.1.toUInt16 ∧
    (f.control tag).sourceRoute = f.sourceRoute.isSome.toUInt16 ∧
    (f.control tag).destinationIeeeAddress = f.destinationExt.isSome.toUInt16 ∧
    (f.control tag).sourceIeeeAddress = f.sourceExt.isSome.toUInt16 ∧
    (f.control tag).reserved = 0 := by
  have htype : bitRange tag.2 1 0 = tag.2 :=
    bitRange_of_lt _ (by decide) (UInt16.lt_iff_toNat_lt.mp htag)
  have hversionBits : bitRange f.protocolVersion.toUInt16 3 0 = f.protocolVersion.toUInt16 := by
    refine bitRange_of_lt _ (by decide) ?_
    rw [toNat_uint16, UInt8.toNat_toUInt16]
    exact Nat.lt_succ_of_le (UInt8.le_iff_toNat_le.mp hversion)
  have hroute : bitRange f.discoverRoute.toUInt16 1 0 = f.discoverRoute.toUInt16 :=
    bitRange_of_lt _ (by decide) (by cases f.discoverRoute <;> decide)
  simp [FrameControl.frameType, FrameControl.protocolVersion, FrameControl.discoverRoute,
    FrameControl.multicastFlag, FrameControl.security, FrameControl.sourceRoute,
    FrameControl.destinationIeeeAddress, FrameControl.sourceIeeeAddress, FrameControl.reserved,
    control_bits, bitRange_set_of_disjoint, bitRange_set_self, bitRange_bool,
    bitRange_of_lt, htype, hversionBits, hroute]

@[simp] theorem tryFrom_toUInt16 (discoverRoute : DiscoverRoute) :
    DiscoverRoute.tryFrom discoverRoute.toUInt16 = some discoverRoute := by
  cases discoverRoute <;> rfl

end Control

/-! The parts of a frame survive. -/

/-- Both the number of relays and the relays themselves stand on the wire. -/
theorem recovers_sourceRoute {route : SourceRoute} (h : route.relayList.length ≤ 255) :
    Recovers route := by
  have hcount : (UInt8.ofNat route.relayList.length).toNat = route.relayList.length :=
    UInt8.toNat_ofNat_of_lt' (by rw [UInt8.size]; omega)
  obtain ⟨front, hwriteFront, hreadFront⟩ :=
    (recovers_word (UInt8.ofNat route.relayList.length)).pair (recovers_word route.relayIndex)
  obtain ⟨relays, hwriteRelays, hreadRelays⟩ :=
    recovers_list route.relayList fun relay _ => recovers_field relay
  refine ⟨front ++ relays, fun target => ?_, fun rest => ?_⟩
  · have hfits : ¬ route.relayList.length > 255 := by omega
    change route.serializeTo target = _
    rw [SourceRoute.serializeTo, if_neg hfits]
    change (Serialize.serializeTo _ _ >>= _) = _
    rw [hwriteFront]
    change serializeAll _ _ = _
    rw [hwriteRelays, List.append_assoc]
  · change (Deserialize.deserialize _ >>= _) = _
    rw [List.append_assoc, hreadFront]
    change (deserializeCount (UInt8.ofNat route.relayList.length).toNat _ >>= _) = _
    rw [hcount, hreadRelays]
    rfl

theorem serializeTo_sourceRoute_long {route : SourceRoute} (h : 255 < route.relayList.length)
    (target : List UInt8) : Serialize.serializeTo route target = .error .unexpectedData := by
  change route.serializeTo target = _
  rw [SourceRoute.serializeTo, if_pos h]
  rfl

/-- Data and everything secured are read back with the help of their tag; nothing else is
written. -/
theorem frameType_survives (frameType : SecurableTagged FrameType UInt16) :
    ∃ tag, SerializeTagged.serializeTag frameType = .ok tag ∧
      ((∀ tag' data, frameType = .secured tag' data → tag' < 4) → tag.2 < 4) ∧
      ((∀ target, ∃ e, Serialize.serializeTo frameType target = .error e) ∨
        ∃ bytes, (∀ target, Serialize.serializeTo frameType target = .ok (target ++ bytes)) ∧
          DeserializeTagged.deserialize tag bytes = .ok ([], frameType)) := by
  cases frameType with
  | secured tag data =>
    obtain ⟨bytes, hwrite, hread⟩ := securedData_survives data
    refine ⟨(true, tag), rfl, fun h => h tag data rfl, .inr ⟨bytes, hwrite, ?_⟩⟩
    change (Deserialize.deserialize bytes >>= _) = _
    rw [hread]
    rfl
  | unsecured data =>
    cases data with
    | data payload =>
      exact ⟨(false, 0), rfl, fun _ => by decide, .inr ⟨payload, fun _ => rfl, rfl⟩⟩
    | command payload => exact ⟨(false, 1), rfl, fun _ => by decide, .inl fun _ => ⟨_, rfl⟩⟩
    | interPAN payload => exact ⟨(false, 3), rfl, fun _ => by decide, .inl fun _ => ⟨_, rfl⟩⟩

section Frames
variable {f : Frame} {tag : Bool × UInt16}

theorem serialize_version (h : 15 < f.protocolVersion) : serialize f = .error .unexpectedData := by
  obtain ⟨tag, htag, -⟩ := frameType_survives f.frameType
  change f.serializeTo [] = _
  simp only [Frame.serializeTo, htag, ok_bind, if_pos h]
  rfl

/-- With a version that fits, everything up to the source route is written and read back. -/
theorem serialize_upTo (h : ¬ 15 < f.protocolVersion)
    (htag : SerializeTagged.serializeTag f.frameType = .ok tag) :
    ∃ front, serialize f = (serializeOption f.sourceRoute front >>=
        Serialize.serializeTo f.frameType) ∧
      ∀ rest, ∃ afterControl afterAddressing afterDestination,
        Deserialize.deserialize (front ++ rest) = .ok (afterControl, f.control tag) ∧
        Deserialize.deserialize afterControl =
          .ok (afterAddressing, f.destination, f.source, f.radius, f.sequenceNumber) ∧
        deserializeCond f.destinationExt.isSome afterAddressing =
          .ok (afterDestination, f.destinationExt) ∧
        deserializeCond f.sourceExt.isSome afterDestination = .ok (rest, f.sourceExt) := by
  obtain ⟨control, hwriteControl, hreadControl⟩ := recovers_field (f.control tag)
  obtain ⟨addressing, hwriteAddressing, hreadAddressing⟩ :=
    (recovers_field f.destination).pair <| (recovers_field f.source).pair <|
      (recovers_word f.radius).pair (recovers_word f.sequenceNumber)
  obtain ⟨destination, hwriteDestination, hreadDestination⟩ :=
    recovers_option f.destinationExt fun a _ => recovers_field a
  obtain ⟨source, hwriteSource, hreadSource⟩ :=
    recovers_option f.sourceExt fun a _ => recovers_field a
  have hwrite : Serialize.serializeTo (f.control tag, f.destination, f.source, f.radius,
      f.sequenceNumber) [] = .ok (control ++ addressing) := by
    change (Serialize.serializeTo (f.control tag) [] >>= _) = _
    rw [hwriteControl]
    exact hwriteAddressing control
  refine ⟨control ++ (addressing ++ (destination ++ source)), ?_, fun rest => ?_⟩
  · change f.serializeTo [] = _
    simp only [Frame.serializeTo, htag, ok_bind, if_neg h, hwrite, hwriteDestination,
      hwriteSource, List.append_assoc]
  · refine ⟨addressing ++ (destination ++ (source ++ rest)), destination ++ (source ++ rest),
      source ++ rest, ?_, hreadAddressing _, hreadDestination _, hreadSource _⟩
    rw [List.append_assoc, List.append_assoc, List.append_assoc]
    exact hreadControl _

/-- Reading the parts one after the other gives the frame. -/
theorem deserialize_parts (hversion : ¬ 15 < f.protocolVersion) (htag : tag.2 < 4)
    {input afterControl afterAddressing afterDestination afterSource afterRoute : List UInt8}
    (hcontrol : Deserialize.deserialize input = .ok (afterControl, f.control tag))
    (haddressing : Deserialize.deserialize afterControl =
      .ok (afterAddressing, f.destination, f.source, f.radius, f.sequenceNumber))
    (hdestination : deserializeCond f.destinationExt.isSome afterAddressing =
      .ok (afterDestination, f.destinationExt))
    (hsource : deserializeCond f.sourceExt.isSome afterDestination =
      .ok (afterSource, f.sourceExt))
    (hroute : deserializeCond f.sourceRoute.isSome afterSource = .ok (afterRoute, f.sourceRoute))
    (hframe : DeserializeTagged.deserialize tag afterRoute = .ok ([], f.frameType)) :
    Deserialize.deserialize input = .ok ([], f) := by
  have hfits : f.protocolVersion ≤ 15 := UInt8.not_lt.mp hversion
  change Frame.deserialize input = _
  obtain ⟨htype, hprotocol, hdiscover, hmulticast, hsecurity, hsourceRoute, hdst, hsrc,
    hreserved⟩ := control_fields f tag htag hfits
  simp only [Frame.deserialize, hcontrol, ok_bind, hdiscover, tryFrom_toUInt16, hmulticast,
    hreserved, haddressing, hdst, hsrc, hsourceRoute, hsecurity, toUInt16_ne_zero, hdestination,
    hsource, hroute, htype, hframe, hprotocol, UInt8.toUInt8_toUInt16]
  rfl

end Frames

/-- A frame that is written is read back whole; a version or a relay list too long for its field
is refused. -/
theorem frame_survives (f : Frame) :
    (∀ bytes, serialize f = .ok bytes →
        (∀ tag data, f.frameType = .secured tag data → tag < 4) →
      Deserialize.deserialize bytes = .ok ([], f)) ∧
    (15 < f.protocolVersion ∨ (∃ route ∈ f.sourceRoute, 255 < route.relayList.length) →
      ∃ e, serialize f = .error e) := by
  obtain ⟨tag, htag, hsmall, hframeType⟩ := frameType_survives f.frameType
  by_cases hversion : 15 < f.protocolVersion
  · have hfails := serialize_version hversion
    refine ⟨fun bytes hbytes _ => ?_, fun _ => ⟨_, hfails⟩⟩
    rw [hfails] at hbytes
    cases hbytes
  obtain ⟨front, hfront, hreadFront⟩ := serialize_upTo hversion htag
  by_cases hlong : ∃ route ∈ f.sourceRoute, 255 < route.relayList.length
  · obtain ⟨route, hsome, hlen⟩ := hlong
    have hfails : serialize f = .error .unexpectedData := by
      rw [hfront, Option.mem_def.mp hsome]
      exact congrArg (· >>= _) (serializeTo_sourceRoute_long hlen front)
    refine ⟨fun bytes hbytes _ => ?_, fun _ => ⟨_, hfails⟩⟩
    rw [hfails] at hbytes
    cases hbytes
  · refine ⟨fun bytes hbytes hsecured => ?_, fun h => absurd h (not_or.mpr ⟨hversion, hlong⟩)⟩
    obtain ⟨route, hwriteRoute, hreadRoute⟩ := recovers_option f.sourceRoute fun route hmem =>
      recovers_sourceRoute (Nat.not_lt.mp fun hlt => hlong ⟨route, hmem, hlt⟩)
    rw [hfront, hwriteRoute, ok_bind] at hbytes
    obtain hfails | ⟨payload, hwritePayload, hreadPayload⟩ := hframeType
    · obtain ⟨e, he⟩ := hfails (front ++ route)
      rw [he] at hbytes
      cases hbytes
    · rw [hwritePayload] at hbytes
      cases hbytes
      obtain ⟨_, _, _, hcontrol, haddressing, hdestination, hsource⟩ :=
        hreadFront (route ++ payload)
      rw [List.append_assoc]
      exact deserialize_parts hversion (hsmall hsecured) hcontrol haddressing hdestination hsource
        (hreadRoute payload) hreadPayload

def securedFrame : Frame where
  frameType := .secured 0 ⟨.network 0, 0, some ⟨0xd0cf5efffe1c6306⟩, [0x6c, 0x41]⟩
  protocolVersion := 2
  destination := ⟨0xFFFD⟩
  source := ⟨0x558B⟩
  radius := 30
  sequenceNumber := 251
  discoverRoute := .supressRouteDiscovery
  destinationExt := none
  sourceExt := some ⟨0xd0cf5efffe1c6306⟩
  sourceRoute := none

def securedBytes : List UInt8 :=
  [0x08, 0x12, 0xfd, 0xff, 0x8b, 0x55, 0x1e, 0xfb, 0x06, 0x63, 0x1c, 0xfe, 0xff, 0x5e, 0xcf, 0xd0,
    0x28, 0x00, 0x00, 0x00, 0x00, 0x06, 0x63, 0x1c, 0xfe, 0xff, 0x5e, 0xcf, 0xd0, 0x00, 0x6c, 0x41]

theorem frame_survives_secured :
    serialize securedFrame = .ok securedBytes ∧
      Deserialize.deserialize securedBytes = .ok ([], securedFrame) ∧
      ∃ e, serialize { securedFrame with protocolVersion := 16 } = .error e := by
  refine ⟨rfl, (frame_survives securedFrame).1 _ rfl fun tag data h => ?_,
    (frame_survives { securedFrame with protocolVersion := 16 }).2 (.inl (by decide))⟩
  cases h
  decide

end Nwk
end ZigbeeStack
