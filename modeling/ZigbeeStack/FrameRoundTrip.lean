import ZigbeeStack.Frame

/-! Which frames survive being packed and unpacked again: all of them, except those that carry an
association request, whose capability information is never written. -/
namespace ZigbeeStack
open Bits

/-! The bit fields of the two control words read back what was set. -/

theorem bitRange_bool (b : Bool) : bitRange b.toUInt16 0 0 = b.toUInt16 :=
  bitRange_of_lt _ (by decide) (by cases b <;> decide)

theorem bitRange_mode (mode : AddressingMode) :
    bitRange (ExtEnum.intoTag mode) 1 0 = ExtEnum.intoTag mode :=
  bitRange_of_lt _ (by decide) (by cases mode <;> decide)

theorem frameType_tag_lt (frameType : FrameType) :
    (PackTagged.getTag frameType : UInt8).toNat < 8 := by
  cases frameType <;> simp [PackTagged.getTag]

theorem bitRange_tag (frameType : FrameType) :
    bitRange (PackTagged.getTag frameType).toUInt16 2 0 =
      (PackTagged.getTag frameType).toUInt16 :=
  bitRange_of_lt _ (by decide) (by simpa using frameType_tag_lt frameType)

theorem toNat_nibble (value : UInt16) : (bitRange value 3 0).toNat = value.toNat % 16 :=
  toNat_bitRange_zero value (by decide)

theorem bitRange_nibble (n : Nat) (h : n ≤ 0xF) : (bitRange (UInt16.ofNat n) 3 0).toNat = n := by
  have hn : (UInt16.ofNat n).toNat = n := UInt16.toNat_ofNat_of_lt' (by simp [UInt16.size]; omega)
  rw [toNat_nibble, hn]
  omega

@[simp] theorem toUInt16_ne_zero (b : Bool) : (b.toUInt16 != 0) = b := by
  cases b <;> decide

namespace Frame
variable (f : Frame)

theorem control_bits : f.control.bits =
    setBitRange (setBitRange (setBitRange (setBitRange (setBitRange (setBitRange
      (setBitRange (setBitRange (setBitRange (setBitRange (setBitRange 0
        2 0 (PackTagged.getTag f.frameType).toUInt16) 3 3 0) 4 4 f.framePending.toUInt16)
        5 5 f.acknowledgeRequest.toUInt16) 6 6 f.panIdCompression.toUInt16) 7 7 0)
        8 8 f.sequenceNumber.isNone.toUInt16) 9 9 0)
        11 10 (ExtEnum.intoTag (addressingMode f.destination)))
        15 14 (ExtEnum.intoTag (addressingMode f.source))) 13 12 0 := rfl

theorem control_fields :
    f.control.frameType = (PackTagged.getTag f.frameType).toUInt16 ∧
    f.control.securityEnabled = 0 ∧
    f.control.framePending = f.framePending.toUInt16 ∧
    f.control.acknowledgeRequest = f.acknowledgeRequest.toUInt16 ∧
    f.control.panIdCompression = f.panIdCompression.toUInt16 ∧
    f.control.sequenceNumberSupression = f.sequenceNumber.isNone.toUInt16 ∧
    f.control.informationElementsPresent = 0 ∧
    f.control.destinationAddressingMode = ExtEnum.intoTag (addressingMode f.destination) ∧
    f.control.sourceAddressingMode = ExtEnum.intoTag (addressingMode f.source) := by
  simp [FrameControl.frameType, FrameControl.securityEnabled, FrameControl.framePending,
    FrameControl.acknowledgeRequest, FrameControl.panIdCompression,
    FrameControl.sequenceNumberSupression, FrameControl.informationElementsPresent,
    FrameControl.destinationAddressingMode, FrameControl.sourceAddressingMode, control_bits,
    bitRange_set_of_disjoint, bitRange_set_self, bitRange_tag, bitRange_bool,
    bitRange_mode, bitRange_of_lt]

end Frame

/-! The parts of the header survive whatever follows them. -/

theorem roundTrips_address (x : Address) : RoundTripsTagged x := by
  cases x with
  | short a =>
    obtain ⟨bytes, hp, hu⟩ := roundTrips_field a
    refine ⟨bytes, hp, fun rest => ?_⟩
    simp only [PackTagged.unpackData, PackTagged.getTag, hu, ok_bind]
    rfl
  | extended a =>
    obtain ⟨bytes, hp, hu⟩ := roundTrips_field a
    refine ⟨bytes, hp, fun rest => ?_⟩
    simp only [PackTagged.unpackData, PackTagged.getTag, hu, ok_bind]
    rfl

theorem roundTrips_fullAddress (x : FullAddress) : RoundTripsTagged x := by
  obtain ⟨bp, hpp, hup⟩ := roundTrips_field x.panId
  obtain ⟨ba, hpa, hua⟩ := roundTrips_address x.address
  refine ⟨bp ++ ba, fun v => ?_, fun rest => ?_⟩
  · change (Pack.pack x.panId _ >>= _) = _
    rw [hpp, ok_bind, hpa, List.append_assoc]
  · change (Pack.unpack _ >>= _) = _
    rw [List.append_assoc, hup, ok_bind]
    change (PackTagged.unpackData (PackTagged.getTag x.address) _ >>= _) = _
    rw [hua]
    rfl

theorem getTag_ne_none (x : Address) : (PackTagged.getTag x : AddressingMode) ≠ .none := by
  cases x <;> simp [PackTagged.getTag]

namespace Frame

theorem unpack_destination (f : Frame) :
    ∃ bytes, (∀ v, f.packDestination (VecPackTarget.mk v) = .ok ⟨v ++ bytes⟩) ∧
      ∀ rest, unpackAddress (addressingMode f.destination) none (bytes ++ rest) =
        .ok (f.destination, rest) := by
  unfold packDestination
  cases f.destination with
  | none => exact ⟨[], fun v => by rw [List.append_nil], fun rest => rfl⟩
  | some d =>
    obtain ⟨bytes, hp, hu⟩ := roundTrips_fullAddress d
    refine ⟨bytes, hp, fun rest => ?_⟩
    have hmode : addressingMode (some d) = PackTagged.getTag d := rfl
    have hne : (PackTagged.getTag d : AddressingMode) ≠ .none := getTag_ne_none d.address
    simp only [hmode, unpackAddress, if_neg hne, hu]
    rfl

/-- The PAN id of a source is left out exactly when the decoder takes it from the destination. -/
theorem unpack_source (f : Frame) :
    ∃ bytes, (∀ v, f.packSource (VecPackTarget.mk v) = .ok ⟨v ++ bytes⟩) ∧
      ∀ rest, unpackAddress (addressingMode f.source)
        (if f.panIdCompression then f.destination.map (·.panId) else none) (bytes ++ rest) =
          .ok (f.source, rest) := by
  unfold packSource
  cases hs : f.source with
  | none => exact ⟨[], fun v => by rw [List.append_nil], fun rest => rfl⟩
  | some s =>
    have hmode : addressingMode (some s) = PackTagged.getTag s := rfl
    have hne : (PackTagged.getTag s : AddressingMode) ≠ .none := getTag_ne_none s.address
    cases hc : f.panIdCompression with
    | false =>
      obtain ⟨bytes, hp, hu⟩ := roundTrips_fullAddress s
      refine ⟨bytes, fun v => by simpa using hp v, fun rest => ?_⟩
      simp only [hmode, unpackAddress, if_neg hne, Bool.false_eq_true, if_false, hu]
      rfl
    | true =>
      obtain ⟨bytes, hp, hu⟩ := roundTrips_address s.address
      have htag : (PackTagged.getTag s : AddressingMode) = PackTagged.getTag s.address := rfl
      rw [htag] at hmode hne
      have hpan : f.destination.map (·.panId) = some s.panId := by
        simp only [panIdCompression, hs, Bool.and_eq_true, beq_iff_eq] at hc
        exact hc.2
      refine ⟨bytes, fun v => by simpa using hp v, fun rest => ?_⟩
      simp only [hmode, unpackAddress, if_neg hne, if_true, hpan, hu]
      rfl

theorem tryFromTag_intoTag (mode : AddressingMode) :
    (ExtEnum.tryFromTag (ExtEnum.intoTag mode) : Except ExtEnumError AddressingMode) =
      .ok mode := by
  cases mode <;> rfl

/-- The header of every frame survives: what is left to decode is the body, under its own tag. -/
theorem unpack_header (f : Frame) :
    ∃ header, (∀ v, Pack.pack f (VecPackTarget.mk v) =
        PackTagged.packData f.frameType (VecPackTarget.mk (v ++ header))) ∧
      ∀ rest, (Pack.unpack (header ++ rest) : Except UnpackError (Frame × List UInt8)) =
        (PackTagged.unpackData (PackTagged.getTag f.frameType) rest >>=
          fun r => .ok ({ f with frameType := r.1 }, r.2)) := by
  obtain ⟨bc, hpc, huc⟩ := roundTrips_field f.control
  obtain ⟨bn, hpn, hun⟩ :=
    roundTrips_option (x := f.sequenceNumber) fun n _ => roundTrips_word n
  obtain ⟨bd, hpd, hud⟩ := unpack_destination f
  obtain ⟨bs, hps, hus⟩ := unpack_source f
  obtain ⟨htype, hsecurity, hpending, hack, hcompression, hsupression, hie, hdst, hsrc⟩ :=
    control_fields f
  have hseq : (f.sequenceNumber.isNone.toUInt16 == 0) = f.sequenceNumber.isSome := by
    cases f.sequenceNumber <;> rfl
  refine ⟨bc ++ (bn ++ (bd ++ bs)), fun v => ?_, fun rest => ?_⟩
  · change (Pack.pack f.control _ >>= _) = _
    rw [hpc, ok_bind, hpn, ok_bind, hpd, ok_bind, hps, ok_bind]
    simp only [List.append_assoc]
  · change (Pack.unpack _ >>= _) = _
    simp only [List.append_assoc]
    rw [huc, ok_bind, hsupression, hseq]
    change (PackTagged.unpackData (PackTagged.getTag f.sequenceNumber) _ >>= _) = _
    rw [hun, ok_bind, hdst, tryFromTag_intoTag]
    change (unpackAddress _ none _ >>= _) = _
    rw [hud, ok_bind, hsrc, tryFromTag_intoTag]
    change (unpackAddress _ _ _ >>= _) = _
    have hprev : (if f.control.panIdCompression ≠ 0 then f.destination.map (·.panId) else none) =
        if f.panIdCompression then f.destination.map (·.panId) else none := by
      rw [hcompression]
      cases f.panIdCompression <;> rfl
    rw [hprev, hus, ok_bind, hie, hsecurity, if_neg (by decide), if_neg (by decide), htype,
      hpending, hack]
    simp only [toUInt16_ne_zero, UInt8.toUInt8_toUInt16]
    rfl

end Frame

/-! The bodies use up all bytes that are left. -/

def Survives {α : Type} (pack : VecPackTarget → Except (PackError VecPackError) VecPackTarget)
    (unpack : List UInt8 → Except UnpackError (α × List UInt8)) (x : α) : Prop :=
  ∀ v target, pack ⟨v⟩ = .ok target →
    ∃ bytes, target = ⟨v ++ bytes⟩ ∧ unpack bytes = .ok (x, [])

theorem RoundTrips.survives {α : Type} [Pack α] {x : α} (h : RoundTrips x) :
    Survives (Pack.pack x) Pack.unpack x := by
  obtain ⟨bytes, hp, hu⟩ := h
  intro v target ht
  rw [hp] at ht
  obtain rfl := Except.ok.inj ht
  exact ⟨bytes, rfl, by simpa using hu []⟩

theorem unpack_payload (p : Payload) :
    (Pack.unpack p.bytes : Except UnpackError (Payload × List UInt8)) = .ok (p, []) := by
  change Except.ok (_, p.bytes.drop p.bytes.length) = _
  rw [List.drop_length]

theorem survives_payload (p : Payload) : Survives (Pack.pack p) Pack.unpack p := by
  intro v target ht
  obtain rfl := Except.ok.inj ht
  exact ⟨p.bytes, rfl, unpack_payload p⟩

theorem Beacon.superframe_bits (b : Beacon) : b.superframe.bits =
    setBitRange (setBitRange (setBitRange (setBitRange (setBitRange (setBitRange
      (setBitRange 0 3 0 (.ofNat b.beaconOrder)) 7 4 (.ofNat b.superframeOrder))
        11 8 (.ofNat b.finalCapSlot)) 12 12 b.batteryLifeExtension.toUInt16) 13 13 0)
        14 14 b.panCoordinator.toUInt16) 15 15 b.associationPermit.toUInt16 := rfl

theorem Beacon.superframe_numbers (b : Beacon) (hbeacon : b.beaconOrder ≤ 0xF)
    (hsuperframe : b.superframeOrder ≤ 0xF) (hslot : b.finalCapSlot ≤ 0xF) :
    b.superframe.beaconOrder.toNat = b.beaconOrder ∧
    b.superframe.superframeOrder.toNat = b.superframeOrder ∧
    b.superframe.finalCapSlot.toNat = b.finalCapSlot := by
  simp [SuperframeSpecification.beaconOrder, SuperframeSpecification.superframeOrder,
    SuperframeSpecification.finalCapSlot, superframe_bits, bitRange_set_of_disjoint,
    bitRange_set_self, bitRange_nibble, hbeacon, hsuperframe, hslot]

theorem Beacon.superframe_flags (b : Beacon) :
    b.superframe.batteryLifeExtension = b.batteryLifeExtension.toUInt16 ∧
    b.superframe.panCoordinator = b.panCoordinator.toUInt16 ∧
    b.superframe.associationPermit = b.associationPermit.toUInt16 := by
  refine ⟨?_, ?_, ?_⟩ <;>
    simp [SuperframeSpecification.batteryLifeExtension, SuperframeSpecification.panCoordinator,
      SuperframeSpecification.associationPermit, superframe_bits, bitRange_set_of_disjoint,
      bitRange_set_self, bitRange_bool]

theorem survives_beacon (b : Beacon) : Survives (Pack.pack b) Pack.unpack b := by
  intro v target ht
  obtain ⟨header, hp, hu⟩ := (roundTrips_field b.superframe).prod
    ((roundTrips_word (0 : UInt8)).prod (roundTrips_word (0 : UInt8)))
  -- the range checks of `pack` are what makes the three orders fit their fields
  simp only [Pack.pack] at ht
  split_ifs at ht with h1 h2 h3
  change (Pack.pack (b.superframe, (0 : UInt8), (0 : UInt8)) (VecPackTarget.mk v) >>= _) = _ at ht
  rw [hp, ok_bind] at ht
  obtain rfl := Except.ok.inj ht
  refine ⟨header ++ b.payload.bytes, by simp, ?_⟩
  change (Pack.unpack (header ++ b.payload.bytes) >>= _) = _
  rw [hu, ok_bind]
  obtain ⟨hbeacon, hsuperframe, hslot⟩ :=
    b.superframe_numbers (by omega) (by omega) (by omega)
  obtain ⟨hble, hpc, hap⟩ := b.superframe_flags
  dsimp only
  rw [if_neg (by decide), unpack_payload, ok_bind, hbeacon, hsuperframe, hslot, hble, hpc, hap]
  simp only [toUInt16_ne_zero]
  rfl

/-- The status byte carries its tag in the low seven bits and the flag in the top one. -/
theorem status_bits (fastAssociation : Bool) (tag : UInt8) (h : tag.toNat < 4) :
    ((if fastAssociation then tag ||| 0x80 else tag) &&& 0x80 != 0) = fastAssociation ∧
      (if fastAssociation then tag ||| 0x80 else tag) &&& 0x7F = tag := by
  have htag : tag = 0 ∨ tag = 1 ∨ tag = 2 ∨ tag = 3 := by
    simp only [← UInt8.toNat_inj, UInt8.reduceToNat]
    omega
  rcases htag with rfl | rfl | rfl | rfl <;> cases fastAssociation <;> decide

theorem unpackData_associationError (e : AssociationError) (rest : List UInt8) :
    PackTagged.unpackData (PackTagged.getTag e) rest = .ok (e, rest) ∧
      (PackTagged.getTag e : UInt8) ≠ 0 ∧ (PackTagged.getTag e : UInt8).toNat < 4 := by
  cases e <;> exact ⟨rfl, by decide, by decide⟩

theorem roundTrips_associationResponse (r : AssociationResponse) : RoundTrips r := by
  obtain ⟨fastAssociation, status⟩ := r
  cases status with
  | ok address =>
    obtain ⟨ba, hpa, hua⟩ := roundTrips_field address
    obtain ⟨bs, hps, hus⟩ := roundTrips_word
      (if fastAssociation then 0 ||| 0x80 else 0 : UInt8)
    obtain ⟨hflag, htag⟩ := status_bits fastAssociation 0 (by decide)
    refine ⟨ba ++ bs, fun v => ?_, fun rest => ?_⟩
    · change (Pack.pack address _ >>= _) = _
      rw [hpa, ok_bind, hps, List.append_assoc]
    · change (Pack.unpack _ >>= _) = _
      rw [List.append_assoc, hua, ok_bind]
      dsimp only
      rw [hus, ok_bind]
      simp only [hflag, htag, if_true]
      rfl
  | error e =>
    obtain ⟨ba, hpa, hua⟩ := roundTrips_field ShortAddress.invalid
    obtain ⟨bs, hps, hus⟩ := roundTrips_word
      (if fastAssociation then PackTagged.getTag e ||| 0x80 else PackTagged.getTag e)
    refine ⟨ba ++ bs, fun v => ?_, fun rest => ?_⟩
    · change (Pack.pack ShortAddress.invalid _ >>= _) = _
      rw [hpa, ok_bind, hps, List.append_assoc]
    · obtain ⟨hunpack, hne, hlt⟩ := unpackData_associationError e rest
      obtain ⟨hflag, htag⟩ := status_bits fastAssociation (PackTagged.getTag e) hlt
      change (Pack.unpack _ >>= _) = _
      rw [List.append_assoc, hua, ok_bind]
      dsimp only
      rw [hus, ok_bind]
      simp only [hflag, htag, if_neg hne, hunpack]
      rfl

/-- The commands that write all they carry. -/
theorem roundTrips_command (c : Command) (h : ∀ capability, c ≠ .associationRequest capability) :
    RoundTrips c := by
  obtain ⟨bt, hpt, hut⟩ := roundTrips_word c.getTag
  cases c with
  | associationRequest capability => exact absurd rfl (h capability)
  | associationResponse r =>
    obtain ⟨br, hpr, hur⟩ := roundTrips_associationResponse r
    refine ⟨bt ++ br, fun v => ?_, fun rest => ?_⟩
    · change (Pack.pack _ _ >>= _) = _
      rw [hpt, ok_bind]
      change Pack.pack r _ = _
      rw [hpr, List.append_assoc]
    · change (Pack.unpack _ >>= _) = _
      rw [List.append_assoc, hut, ok_bind]
      change (Pack.unpack _ >>= _) = _
      rw [hur]
      rfl
  | dataRequest =>
    refine ⟨bt, fun v => ?_, fun rest => ?_⟩
    · change (Pack.pack _ _ >>= _) = _
      rw [hpt]
      rfl
    · change (Pack.unpack _ >>= _) = _
      rw [hut]
      rfl
  | beaconRequest =>
    refine ⟨bt, fun v => ?_, fun rest => ?_⟩
    · change (Pack.pack _ _ >>= _) = _
      rw [hpt]
      rfl
    · change (Pack.unpack _ >>= _) = _
      rw [hut]
      rfl

theorem Survives.unpack_bind {α β : Type}
    {pack : VecPackTarget → Except (PackError VecPackError) VecPackTarget}
    {unpack : List UInt8 → Except UnpackError (α × List UInt8)} {x : α} (mk : α → β)
    (h : Survives pack unpack x) :
    Survives pack (fun data => unpack data >>= fun r => .ok (mk r.1, r.2)) (mk x) := by
  intro v target ht
  obtain ⟨bytes, rfl, hu⟩ := h v target ht
  exact ⟨bytes, rfl, by simp only [hu, ok_bind]⟩

theorem survives_frameType (frameType : FrameType)
    (h : ∀ capability, frameType ≠ .command (.associationRequest capability)) :
    Survives (PackTagged.packData frameType)
      (PackTagged.unpackData (PackTagged.getTag frameType)) frameType := by
  cases frameType with
  | beacon b => exact (survives_beacon b).unpack_bind FrameType.beacon
  | data p => exact (survives_payload p).unpack_bind FrameType.data
  | ack p => exact (survives_payload p).unpack_bind FrameType.ack
  | command c =>
    have hc : ∀ capability, c ≠ .associationRequest capability := by
      rintro capability rfl
      exact h capability rfl
    exact (roundTrips_command c hc).survives.unpack_bind FrameType.command
  | reserved p => exact (survives_payload p).unpack_bind FrameType.reserved
  | multipurpose p => exact (survives_payload p).unpack_bind FrameType.multipurpose
  | fragment p => exact (survives_payload p).unpack_bind FrameType.fragment
  | extended p => exact (survives_payload p).unpack_bind FrameType.extended

/-- The bytes a frame is packed into, when it is packed, unpack to the frame and nothing else. -/
def Frame.SurvivesWire (f : Frame) : Prop :=
  ∀ target, Pack.pack f VecPackTarget.new = .ok target →
    (Pack.unpack target.bytes : Except UnpackError (Frame × List UInt8)) = .ok (f, [])

theorem Frame.survivesWire_of_body (f : Frame)
    (h : Survives (PackTagged.packData f.frameType)
      (PackTagged.unpackData (PackTagged.getTag f.frameType)) f.frameType) : f.SurvivesWire := by
  obtain ⟨header, hp, hu⟩ := f.unpack_header
  intro target ht
  rw [VecPackTarget.new, hp] at ht
  obtain ⟨body, rfl, hbody⟩ := h _ _ ht
  rw [List.nil_append, hu, hbody]
  rfl

/-- A packed association request ends after its command tag, one byte short of what the decoder
reads for the capability information. -/
theorem Frame.associationRequest_rejected (f : Frame) (capability : CapabilityInformation)
    (h : f.frameType = .command (.associationRequest capability)) :
    ∃ target, Pack.pack f VecPackTarget.new = .ok target ∧
      (Pack.unpack target.bytes : Except UnpackError (Frame × List UInt8)) =
        .error .notEnoughData := by
  obtain ⟨header, hp, hu⟩ := f.unpack_header
  refine ⟨⟨header ++ [1]⟩, ?_, ?_⟩
  · rw [VecPackTarget.new, hp, h]
    rfl
  · rw [hu, h]
    rfl

/-- Exactly the frames that carry no association request survive the wire. -/
theorem Frame.survivesWire_iff (f : Frame) : f.SurvivesWire ↔
    ∀ capability, f.frameType ≠ .command (.associationRequest capability) := by
  constructor
  · intro hs capability hf
    obtain ⟨target, hp, hu⟩ := f.associationRequest_rejected capability hf
    rw [hs target hp] at hu
    cases hu
  · intro h
    exact f.survivesWire_of_body (survives_frameType f.frameType h)

/- A request to join, as a device without any special capability would send it. -/
def joinRequest : Frame where
  framePending := false
  acknowledgeRequest := true
  sequenceNumber := some 1
  destination := some ⟨⟨0x1234⟩, .short ⟨0⟩⟩
  source := some ⟨PANID.broadcast, .extended ⟨1⟩⟩
  frameType := .command (.associationRequest ⟨.rfd, .battery, false, false, false, true⟩)

theorem joinRequest_lost : ¬ ∀ f : Frame, f.SurvivesWire := by
  intro h
  have hu := h joinRequest _ rfl
  revert hu
  decide

end ZigbeeStack
