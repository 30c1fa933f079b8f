import ZigbeeStack.SecuredPayloads

/-! Zigbee application frames: the bytes of data and command frames tell what was written, those
of acknowledgements do not. -/
namespace ZigbeeStack

structure ClusterId where
  value : UInt16
deriving DecidableEq, Repr

structure ProfileId where
  value : UInt16
deriving DecidableEq, Repr

structure EndpointId where
  value : UInt8
deriving DecidableEq, Repr

structure GroupId where
  value : UInt16
deriving DecidableEq, Repr

instance : Serialize ClusterId where
  serializeTo self := Serialize.serializeTo self.value

instance : Serialize ProfileId where
  serializeTo self := Serialize.serializeTo self.value

instance : Serialize EndpointId where
  serializeTo self := Serialize.serializeTo self.value

instance : Serialize GroupId where
  serializeTo self := Serialize.serializeTo self.value

namespace Aps
open Bits Security

instance : Serialize Block where
  serializeTo key target := .ok (target ++ key.toList)

instance : Deserialize Block where
  deserialize input :=
    match tryIntoArray 16 (input.take 16) with
    | some key => .ok (input.drop 16, key)
    | none => .error .incomplete

structure TrustCenterKeyDescriptor where
  key : Block
  destination : ExtendedAddress
  source : ExtendedAddress
deriving DecidableEq, Repr

structure NetworkKeyDescriptor where
  key : Block
  sequenceNumber : UInt8
  destination : ExtendedAddress
  source : ExtendedAddress
deriving DecidableEq, Repr

structure ApplicationKeyDescriptor where
  key : Block
  partner : ExtendedAddress
  initiator : Bool
deriving DecidableEq, Repr

inductive KeyDescriptor where
  | trustCenterMasterKey (descriptor : TrustCenterKeyDescriptor)
  | standardNetworkKey (descriptor : NetworkKeyDescriptor)
  | applicationMasterKey (descriptor : ApplicationKeyDescriptor)
  | applicationLinkKey (descriptor : ApplicationKeyDescriptor)
  | uniqueTrustCenterLinkKey (descriptor : TrustCenterKeyDescriptor)
  | highSecurityNetworkKey (descriptor : NetworkKeyDescriptor)
  | unknown (descriptor : NetworkKeyDescriptor)
deriving DecidableEq, Repr

inductive Command where
  | transportKey (keyDescriptor : KeyDescriptor)
deriving DecidableEq, Repr

instance : Serialize TrustCenterKeyDescriptor where
  serializeTo self := Serialize.serializeTo (self.key, self.destination, self.source)

instance : Deserialize TrustCenterKeyDescriptor where
  deserialize input := do
    let (input, key, destination, source) ← Deserialize.deserialize input
    return (input, { key, destination, source })

instance : Serialize NetworkKeyDescriptor where
  serializeTo self :=
    Serialize.serializeTo (self.key, self.sequenceNumber, self.destination, self.source)

instance : Deserialize NetworkKeyDescriptor where
  deserialize input := do
    let (input, key, sequenceNumber, destination, source) ← Deserialize.deserialize input
    return (input, { key, sequenceNumber, destination, source })

section Commands
variable [Serialize Bool] [Deserialize Bool]

instance : Serialize ApplicationKeyDescriptor where
  serializeTo self := Serialize.serializeTo (self.key, self.partner, self.initiator)

instance : Deserialize ApplicationKeyDescriptor where
  deserialize input := do
    let (input, key, partner, initiator) ← Deserialize.deserialize input
    return (input, { key, partner, initiator })

instance : Serialize KeyDescriptor where
  serializeTo
    | .trustCenterMasterKey x => Serialize.serializeTo ((0 : UInt8), x)
    | .standardNetworkKey x => Serialize.serializeTo ((1 : UInt8), x)
    | .applicationMasterKey x => Serialize.serializeTo ((2 : UInt8), x)
    | .applicationLinkKey x => Serialize.serializeTo ((3 : UInt8), x)
    | .uniqueTrustCenterLinkKey x => Serialize.serializeTo ((4 : UInt8), x)
    | .highSecurityNetworkKey x => Serialize.serializeTo ((5 : UInt8), x)
    | .unknown x => Serialize.serializeTo ((6 : UInt8), x)

def KeyDescriptor.deserialize (input : List UInt8) :
    Except DeserializeError (List UInt8 × KeyDescriptor) := do
  let (input, keyType) ← (Deserialize.deserialize input : Except _ (_ × UInt8))
  if keyType = 0 then Prod.map id .trustCenterMasterKey <$> Deserialize.deserialize input
  else if keyType = 1 then Prod.map id .standardNetworkKey <$> Deserialize.deserialize input
  else if keyType = 2 then Prod.map id .applicationMasterKey <$> Deserialize.deserialize input
  else if keyType = 3 then Prod.map id .applicationLinkKey <$> Deserialize.deserialize input
  else if keyType = 4 then Prod.map id .uniqueTrustCenterLinkKey <$> Deserialize.deserialize input
  else if keyType = 5 then Prod.map id .highSecurityNetworkKey <$> Deserialize.deserialize input
  else if keyType = 6 then Prod.map id .unknown <$> Deserialize.deserialize input
  else .error (.unexpectedData input)

instance : Deserialize KeyDescriptor := ⟨KeyDescriptor.deserialize⟩

instance : Serialize Command where
  serializeTo
    | .transportKey keyDescriptor => Serialize.serializeTo ((5 : UInt8), keyDescriptor)

def Command.deserialize (input : List UInt8) :
    Except DeserializeError (List UInt8 × Command) := do
  let (input, cmdId) ← (Deserialize.deserialize input : Except _ (_ × UInt8))
  if cmdId = 5 then Prod.map id .transportKey <$> Deserialize.deserialize input
  else .error (.unexpectedData input)

instance : Deserialize Command := ⟨Command.deserialize⟩

end Commands

structure Payload where
  bytes : List UInt8
deriving DecidableEq, Repr

instance : Serialize Payload where
  serializeTo self target := .ok (target ++ self.bytes)

instance : Deserialize Payload where
  deserialize input := .ok ([], ⟨input⟩)

structure ExtendedHeader where
deriving DecidableEq, Repr

instance : Serialize ExtendedHeader where
  serializeTo _ target := .ok target

inductive DeliveryMode where
  | unicast | reserved | broadcast | group
deriving DecidableEq, Repr

def DeliveryMode.toUInt8 : DeliveryMode → UInt8
  | .unicast => 0
  | .reserved => 1
  | .broadcast => 2
  | .group => 3

inductive DataDestination where
  | unicast (endpoint : EndpointId)
  | broadcast (endpoint : EndpointId)
  | group (id : GroupId)
deriving DecidableEq, Repr

def DataDestination.deliveryMode : DataDestination → UInt8
  | .unicast _ => 0
  | .broadcast _ => 2
  | .group _ => 3

def DataDestination.serializeTo : DataDestination → List UInt8 → Except SerializeError (List UInt8)
  | .unicast endpoint => Serialize.serializeTo endpoint
  | .broadcast endpoint => Serialize.serializeTo endpoint
  | .group id => Serialize.serializeTo id

inductive Frame where
  | data (ackRequest : Bool) (destination : DataDestination) (cluster : ClusterId × ProfileId)
      (source : EndpointId) (apsCounter : UInt8) (extendedHeader : Option ExtendedHeader)
      (payload : Securable Payload)
  | command (deliveryMode : DeliveryMode) (ackRequest : Bool) (apsCounter : UInt8)
      (payload : Securable Command)
  | dataAck (destination : EndpointId) (cluster : ClusterId × ProfileId) (source : EndpointId)
      (apsCounter : UInt8) (extendedHeader : Option ExtendedHeader)
  | commandAck (apsCounter : UInt8)
deriving DecidableEq, Repr

structure FrameControl where
  bits : UInt8
deriving DecidableEq, Repr

namespace FrameControl

def frameType (self : FrameControl) : UInt8 := bitRange self.bits 1 0
def setFrameType (self : FrameControl) (value : UInt8) : FrameControl :=
  ⟨setBitRange self.bits 1 0 value⟩
def deliveryMode (self : FrameControl) : UInt8 := bitRange self.bits 3 2
def setDeliveryMode (self : FrameControl) (value : UInt8) : FrameControl :=
  ⟨setBitRange self.bits 3 2 value⟩
def setAckFormat (self : FrameControl) (value : UInt8) : FrameControl :=
  ⟨setBitRange self.bits 4 4 value⟩
def security (self : FrameControl) : UInt8 := bitRange self.bits 5 5
def setSecurity (self : FrameControl) (value : UInt8) : FrameControl :=
  ⟨setBitRange self.bits 5 5 value⟩
def ackRequest (self : FrameControl) : UInt8 := bitRange self.bits 6 6
def setAckRequest (self : FrameControl) (value : UInt8) : FrameControl :=
  ⟨setBitRange self.bits 6 6 value⟩
def extendedHeaderPresent (self : FrameControl) : UInt8 := bitRange self.bits 7 7
def setExtendedHeaderPresent (self : FrameControl) (value : UInt8) : FrameControl :=
  ⟨setBitRange self.bits 7 7 value⟩

/-- The setters as both branches of the writer call them. -/
def build (frameType deliveryMode : UInt8) (security ackRequest extendedHeaderPresent : Bool) :
    FrameControl :=
  ((((((FrameControl.mk 0).setFrameType frameType).setDeliveryMode deliveryMode).setAckFormat
    0).setSecurity security.toUInt8).setAckRequest ackRequest.toUInt8).setExtendedHeaderPresent
    extendedHeaderPresent.toUInt8

end FrameControl

instance : Serialize FrameControl where
  serializeTo self := Serialize.serializeTo self.bits

def Frame.serializeTo [Serialize Bool] (self : Frame) (target : List UInt8) :
    Except SerializeError (List UInt8) :=
  match self with
  | .data ackRequest destination cluster source apsCounter extendedHeader payload => do
    let security ← SerializeTagged.serializeTag payload
    let frameControl := FrameControl.build 0 destination.deliveryMode security ackRequest
      extendedHeader.isSome
    let target ← Serialize.serializeTo frameControl target
    let target ← destination.serializeTo target
    let target ← Serialize.serializeTo cluster target
    let target ← Serialize.serializeTo source target
    let target ← Serialize.serializeTo apsCounter target
    let target ← serializeOption extendedHeader target
    Serialize.serializeTo payload target
  | .command deliveryMode ackRequest apsCounter payload => do
    let security ← SerializeTagged.serializeTag payload
    let frameControl := FrameControl.build 1 deliveryMode.toUInt8 security ackRequest false
    let target ← Serialize.serializeTo frameControl target
    let target ← Serialize.serializeTo apsCounter target
    Serialize.serializeTo payload target
  | _ => .ok target

instance [Serialize Bool] : Serialize Frame := ⟨Frame.serializeTo⟩

/-! Commands are read back. How a boolean is written is not known here, only that it is read
back. -/

theorem recovers_block (key : Block) : Recovers key := by
  refine ⟨key.toList, fun _ => rfl, fun rest => ?_⟩
  have htake : (key.toList ++ rest).take 16 = key.toList := List.take_left' (by simp)
  have hdrop : (key.toList ++ rest).drop 16 = rest := List.drop_left' (by simp)
  have harray : tryIntoArray 16 key.toList = some key := by simp [tryIntoArray, Vector.toList]
  change (match tryIntoArray 16 ((key.toList ++ rest).take 16) with | some key => _ | none => _) = _
  rw [htake, harray, hdrop]

theorem recovers_trustCenterKeyDescriptor (x : TrustCenterKeyDescriptor) : Recovers x :=
  ((recovers_block x.key).pair <| (recovers_field x.destination).pair <|
    recovers_field x.source).newtype
    (fun y => TrustCenterKeyDescriptor.mk y.1 y.2.1 y.2.2) (fun _ => rfl) fun _ _ _ h => by
      change (Deserialize.deserialize _ >>= _) = _
      rw [h]
      rfl

theorem recovers_networkKeyDescriptor (x : NetworkKeyDescriptor) : Recovers x :=
  ((recovers_block x.key).pair <| (recovers_word x.sequenceNumber).pair <|
    (recovers_field x.destination).pair <| recovers_field x.source).newtype
    (fun y => NetworkKeyDescriptor.mk y.1 y.2.1 y.2.2.1 y.2.2.2) (fun _ => rfl) fun _ _ _ h => by
      change (Deserialize.deserialize _ >>= _) = _
      rw [h]
      rfl

section Commands
variable [Serialize Bool] [Deserialize Bool]

theorem recovers_applicationKeyDescriptor (hbool : ∀ b : Bool, Recovers b)
    (x : ApplicationKeyDescriptor) : Recovers x :=
  ((recovers_block x.key).pair <| (recovers_field x.partner).pair <|
    hbool x.initiator).newtype
    (fun y => ApplicationKeyDescriptor.mk y.1 y.2.1 y.2.2) (fun _ => rfl) fun _ _ _ h => by
      change (Deserialize.deserialize _ >>= _) = _
      rw [h]
      rfl

theorem recovers_keyDescriptor (hbool : ∀ b : Bool, Recovers b) (x : KeyDescriptor) :
    Recovers x := by
  -- the type byte alone decides how the rest is read
  have hread (keyType : UInt8) (input rest : List UInt8)
      (htag : Deserialize.deserialize input = .ok (rest, keyType)) :
      KeyDescriptor.deserialize input = KeyDescriptor.deserialize (keyType :: rest) := by
    rw [KeyDescriptor.deserialize, KeyDescriptor.deserialize, htag, deserialize_uint8_cons]
  cases x with
  | trustCenterMasterKey x =>
    exact (recovers_trustCenterKeyDescriptor x).tagged 0 _ (fun _ => rfl) (hread 0)
  | standardNetworkKey x =>
    exact (recovers_networkKeyDescriptor x).tagged 1 _ (fun _ => rfl) (hread 1)
  | applicationMasterKey x =>
    exact (recovers_applicationKeyDescriptor hbool x).tagged 2 _ (fun _ => rfl) (hread 2)
  | applicationLinkKey x =>
    exact (recovers_applicationKeyDescriptor hbool x).tagged 3 _ (fun _ => rfl) (hread 3)
  | uniqueTrustCenterLinkKey x =>
    exact (recovers_trustCenterKeyDescriptor x).tagged 4 _ (fun _ => rfl) (hread 4)
  | highSecurityNetworkKey x =>
    exact (recovers_networkKeyDescriptor x).tagged 5 _ (fun _ => rfl) (hread 5)
  | unknown x =>
    exact (recovers_networkKeyDescriptor x).tagged 6 _ (fun _ => rfl) (hread 6)

theorem recovers_command (hbool : ∀ b : Bool, Recovers b) (x : Command) : Recovers x := by
  cases x with
  | transportKey x =>
    refine (recovers_keyDescriptor hbool x).tagged 5 _ (fun _ => rfl)
      fun input rest htag => ?_
    change Command.deserialize input = _
    simp only [Command.deserialize, htag, ok_bind]
    rfl

end Commands

/-! A reader of frames, which the source leaves out: the control byte tells the layout of what
follows. -/

def FrameControl.fields (self : FrameControl) : UInt8 × UInt8 × Bool × Bool × Bool :=
  (self.frameType, self.deliveryMode, self.security != 0, self.ackRequest != 0,
    self.extendedHeaderPresent != 0)

def DeliveryMode.ofUInt8 (mode : UInt8) : DeliveryMode :=
  if mode = 0 then .unicast else if mode = 1 then .reserved
  else if mode = 2 then .broadcast else .group

def DataDestination.read (mode : UInt8) (input : List UInt8) :
    Except DeserializeError (List UInt8 × DataDestination) :=
  if mode = 0 then Prod.map id (fun e => .unicast ⟨e⟩) <$> Deserialize.deserialize input
  else if mode = 2 then Prod.map id (fun e => .broadcast ⟨e⟩) <$> Deserialize.deserialize input
  else Prod.map id (fun g => .group ⟨g⟩) <$> Deserialize.deserialize input

def Frame.read [Deserialize Bool] (input : List UInt8) :
    Except DeserializeError (List UInt8 × Frame) := do
  let (input, bits) ← (Deserialize.deserialize input : Except _ (_ × UInt8))
  let (frameType, mode, security, ackRequest, extended) := (FrameControl.mk bits).fields
  if frameType = 0 then
    let (input, destination) ← DataDestination.read mode input
    let (input, cluster, profile) ← Deserialize.deserialize input
    let (input, source) ← Deserialize.deserialize input
    let (input, apsCounter) ← Deserialize.deserialize input
    let (input, payload) ← DeserializeTagged.deserialize security input
    return (input, .data ackRequest destination (⟨cluster⟩, ⟨profile⟩) ⟨source⟩ apsCounter
      (if extended then some {} else none) payload)
  else
    let (input, apsCounter) ← Deserialize.deserialize input
    let (input, payload) ← DeserializeTagged.deserialize security input
    return (input, .command (.ofUInt8 mode) ackRequest apsCounter payload)

theorem fields_build (command : Bool) (mode : DeliveryMode) (security ackRequest extended : Bool) :
    (FrameControl.build command.toUInt8 mode.toUInt8 security ackRequest extended).fields =
      (command.toUInt8, mode.toUInt8, security, ackRequest, extended) := by
  have hcommand : bitRange command.toUInt8 1 0 = command.toUInt8 :=
    bitRange_of_lt _ (by decide) (by cases command <;> decide)
  have hmode : bitRange mode.toUInt8 1 0 = mode.toUInt8 :=
    bitRange_of_lt _ (by decide) (by cases mode <;> decide)
  simp [FrameControl.build, FrameControl.fields, FrameControl.frameType, FrameControl.deliveryMode,
    FrameControl.security, FrameControl.ackRequest, FrameControl.extendedHeaderPresent,
    FrameControl.setFrameType, FrameControl.setDeliveryMode, FrameControl.setAckFormat,
    FrameControl.setSecurity, FrameControl.setAckRequest, FrameControl.setExtendedHeaderPresent,
    bitRange_set_of_disjoint, bitRange_set_self, bitRange_flag, hcommand, hmode]

theorem ofUInt8_toUInt8 (mode : DeliveryMode) : DeliveryMode.ofUInt8 mode.toUInt8 = mode := by
  cases mode <;> rfl

theorem destination_mode (destination : DataDestination) :
    ∃ mode : DeliveryMode, destination.deliveryMode = mode.toUInt8 := by
  cases destination with
  | unicast endpoint => exact ⟨.unicast, rfl⟩
  | broadcast endpoint => exact ⟨.broadcast, rfl⟩
  | group id => exact ⟨.group, rfl⟩

theorem recovers_destination (destination : DataDestination) :
    ∃ bytes, (∀ target, destination.serializeTo target = .ok (target ++ bytes)) ∧
      ∀ rest, DataDestination.read destination.deliveryMode (bytes ++ rest) =
        .ok (rest, destination) := by
  cases destination with
  | unicast endpoint =>
    obtain ⟨bytes, hwrite, hread⟩ := recovers_word endpoint.value
    refine ⟨bytes, hwrite, fun rest => ?_⟩
    rw [DataDestination.read, DataDestination.deliveryMode, if_pos rfl, hread]
    rfl
  | broadcast endpoint =>
    obtain ⟨bytes, hwrite, hread⟩ := recovers_word endpoint.value
    refine ⟨bytes, hwrite, fun rest => ?_⟩
    rw [DataDestination.read, DataDestination.deliveryMode, if_neg (by decide), if_pos rfl, hread]
    rfl
  | group id =>
    obtain ⟨bytes, hwrite, hread⟩ := recovers_word id.value
    refine ⟨bytes, hwrite, fun rest => ?_⟩
    rw [DataDestination.read, DataDestination.deliveryMode, if_neg (by decide),
      if_neg (by decide), hread]
    rfl

def Frame.isAck : Frame → Bool
  | .dataAck .. => true
  | .commandAck _ => true
  | _ => false

theorem serialize_frame [Serialize Bool] (f : Frame) : serialize f = f.serializeTo [] := rfl

theorem serialize_ack [Serialize Bool] {f : Frame} (h : f.isAck) : serialize f = .ok [] := by
  cases f with
  | data _ _ _ _ _ _ _ => cases h
  | command _ _ _ _ => cases h
  | dataAck _ _ _ _ _ => rfl
  | commandAck _ => rfl

section Frames
variable [Serialize Bool] [Deserialize Bool]

theorem read_data (ackRequest : Bool) (destination : DataDestination)
    (cluster : ClusterId × ProfileId) (source : EndpointId) (apsCounter : UInt8)
    (extendedHeader : Option ExtendedHeader) (payload : Securable Payload) :
    ∃ bytes, serialize (Frame.data ackRequest destination cluster source apsCounter extendedHeader
        payload) = .ok bytes ∧
      Frame.read bytes = .ok ([], .data ackRequest destination cluster source apsCounter
        extendedHeader payload) := by
  obtain ⟨mode, hmode⟩ := destination_mode destination
  set control := FrameControl.build 0 destination.deliveryMode payload.isSecured ackRequest
    extendedHeader.isSome with hcontrol
  have hfields : control.fields =
      (0, destination.deliveryMode, payload.isSecured, ackRequest, extendedHeader.isSome) := by
    rw [hcontrol, hmode]
    exact fields_build false mode payload.isSecured ackRequest extendedHeader.isSome
  obtain ⟨front, hwriteFront, hreadFront⟩ := recovers_word control.bits
  obtain ⟨dest, hwriteDest, hreadDest⟩ := recovers_destination destination
  obtain ⟨ids, hwriteIds, hreadIds⟩ :=
    (recovers_word cluster.1.value).pair (recovers_word cluster.2.value)
  obtain ⟨src, hwriteSource, hreadSource⟩ := recovers_word source.value
  obtain ⟨counter, hwriteCounter, hreadCounter⟩ := recovers_word apsCounter
  obtain ⟨back, hwriteBack, hreadBack⟩ := @securable_survives Payload _ _ payload
    fun data _ => ⟨data.bytes, fun _ => rfl, rfl⟩
  have hwriteControl (target : List UInt8) :
      Serialize.serializeTo control target = .ok (target ++ front) := hwriteFront target
  have hwriteCluster (target : List UInt8) :
      Serialize.serializeTo cluster target = .ok (target ++ ids) := hwriteIds target
  have hwriteEndpoint (target : List UInt8) :
      Serialize.serializeTo source target = .ok (target ++ src) := hwriteSource target
  have hwriteHeader (target : List UInt8) : serializeOption extendedHeader target = .ok target := by
    cases extendedHeader <;> rfl
  have hheader : (if extendedHeader.isSome then some {} else none) = extendedHeader := by
    cases extendedHeader <;> rfl
  refine ⟨front ++ (dest ++ (ids ++ (src ++ (counter ++ back)))), ?_, ?_⟩
  · have htag : SerializeTagged.serializeTag payload = .ok payload.isSecured := rfl
    simp only [serialize_frame, Frame.serializeTo, htag, ok_bind, ← hcontrol, hwriteControl,
      hwriteDest, hwriteCluster, hwriteEndpoint, hwriteCounter, hwriteHeader, hwriteBack,
      List.nil_append, List.append_assoc]
  · simp only [Frame.read, hreadFront, ok_bind, hfields, if_true, hreadDest, hreadIds, hreadSource,
      hreadCounter, hreadBack, hheader]
    rfl

theorem read_command (hbool : ∀ b : Bool, Recovers b) (deliveryMode : DeliveryMode)
    (ackRequest : Bool) (apsCounter : UInt8) (payload : Securable Command) :
    ∃ bytes, serialize (Frame.command deliveryMode ackRequest apsCounter payload) = .ok bytes ∧
      Frame.read bytes = .ok ([], .command deliveryMode ackRequest apsCounter payload) := by
  set control := FrameControl.build 1 deliveryMode.toUInt8 payload.isSecured ackRequest false
    with hcontrol
  have hfields : control.fields =
      (1, deliveryMode.toUInt8, payload.isSecured, ackRequest, false) :=
    fields_build true deliveryMode payload.isSecured ackRequest false
  obtain ⟨front, hwriteFront, hreadFront⟩ := recovers_word control.bits
  obtain ⟨counter, hwriteCounter, hreadCounter⟩ := recovers_word apsCounter
  obtain ⟨back, hwriteBack, hreadBack⟩ := @securable_survives Command _ _ payload
    fun data _ => (recovers_command hbool data).whole
  have hwriteControl (target : List UInt8) :
      Serialize.serializeTo control target = .ok (target ++ front) := hwriteFront target
  refine ⟨front ++ (counter ++ back), ?_, ?_⟩
  · have htag : SerializeTagged.serializeTag payload = .ok payload.isSecured := rfl
    simp only [serialize_frame, Frame.serializeTo, htag, ok_bind, ← hcontrol, hwriteControl,
      hwriteCounter, hwriteBack, List.nil_append, List.append_assoc]
  · have hne : ¬ (1 : UInt8) = 0 := by decide
    simp only [Frame.read, hreadFront, ok_bind, hfields, if_neg hne, hreadCounter, hreadBack,
      ofUInt8_toUInt8]
    rfl

/-- The reader gets back every frame that is not an acknowledgement. -/
theorem read_back (hbool : ∀ b : Bool, Recovers b) {f : Frame} (h : ¬ f.isAck) :
    ∃ bytes, serialize f = .ok bytes ∧ Frame.read bytes = .ok ([], f) := by
  cases f with
  | data _ _ _ _ _ _ _ => exact read_data _ _ _ _ _ _ _
  | command _ _ _ _ => exact read_command hbool _ _ _ _
  | dataAck _ _ _ _ _ => exact absurd rfl h
  | commandAck _ => exact absurd rfl h

/-- Two different frames are written differently unless both are acknowledgements, and then
never: of those nothing is written. -/
theorem serialize_ne_iff (hbool : ∀ b : Bool, Recovers b) {f g : Frame} (hne : f ≠ g)
    {bytes bytes' : List UInt8} (hf : serialize f = .ok bytes) (hg : serialize g = .ok bytes') :
    bytes ≠ bytes' ↔ ¬ (f.isAck ∧ g.isAck) := by
  -- what the reader gets from one frame's bytes it cannot get from another's
  have hread {f : Frame} (h : ¬ f.isAck) {bytes : List UInt8} (hf : serialize f = .ok bytes) :
      Frame.read bytes = .ok ([], f) := by
    obtain ⟨written, hwrite, hread⟩ := read_back hbool h
    cases hwrite.symm.trans hf
    exact hread
  have hempty : Frame.read [] = .error .incomplete := rfl
  constructor
  · rintro hdiffer ⟨hack, hack'⟩
    cases (serialize_ack hack).symm.trans hf
    cases (serialize_ack hack').symm.trans hg
    exact hdiffer rfl
  · rintro hacks rfl
    by_cases hack : f.isAck
    · cases (serialize_ack hack).symm.trans hf
      rw [hread (fun hack' => hacks ⟨hack, hack'⟩) hg] at hempty
      cases hempty
    · have hfront := hread hack hf
      by_cases hack' : g.isAck
      · cases (serialize_ack hack').symm.trans hg
        rw [hfront] at hempty
        cases hempty
      · rw [hread hack' hg] at hfront
        cases hfront
        exact hne rfl

end Frames

/-! Booleans as one byte. -/

instance : Serialize Bool where
  serializeTo b := Serialize.serializeTo b.toUInt8

instance : Deserialize Bool where
  deserialize input :=
    Prod.map id (· != 0) <$> (Deserialize.deserialize input : Except _ (_ × UInt8))

theorem recovers_bool (b : Bool) : Recovers b := by
  obtain ⟨bytes, hwrite, hread⟩ := recovers_word b.toUInt8
  refine ⟨bytes, hwrite, fun rest => ?_⟩
  change _ <$> Deserialize.deserialize _ = _
  rw [hread]
  cases b <;> rfl

def deviceAnnounce (apsCounter : UInt8) : Frame :=
  .data false (.broadcast ⟨0⟩) (⟨0x0013⟩, ⟨0x0000⟩) ⟨0⟩ apsCounter none
    (.unsecured ⟨[0x81, 0x8b, 0x55, 0x06, 0x63, 0x1c, 0xfe, 0xff, 0x5e, 0xcf, 0xd0, 0x80]⟩)

def announceBytes (apsCounter : UInt8) : List UInt8 :=
  [0x08, 0x00, 0x13, 0x00, 0x00, 0x00, 0x00, apsCounter, 0x81, 0x8b, 0x55, 0x06, 0x63, 0x1c, 0xfe,
    0xff, 0x5e, 0xcf, 0xd0, 0x80]

theorem serialize_ne_iff_announce :
    announceBytes 150 ≠ announceBytes 151 ↔
      ¬ ((deviceAnnounce 150).isAck ∧ (deviceAnnounce 151).isAck) :=
  serialize_ne_iff recovers_bool (by decide) rfl rfl

/-- Two acknowledgements of commands with different counters, neither of which is written. -/
theorem acks_alike :
    Frame.commandAck 1 ≠ .commandAck 2 ∧
      serialize (Frame.commandAck 1) = .ok [] ∧ serialize (Frame.commandAck 2) = .ok [] :=
  ⟨by decide, rfl, rfl⟩

end Aps
end ZigbeeStack
