import ZigbeeStack.OldFrame

/-! What the first MAC writes of a frame, and what it reads back of it. -/
namespace ZigbeeStack

theorem exists_of_bind_ok {ε α β : Type} {x : Except ε α} {f : α → Except ε β} {b : β}
    (h : (x >>= f) = .ok b) : ∃ a, x = .ok a ∧ f a = .ok b := by
  cases x with
  | error e => cases h
  | ok a => exact ⟨a, rfl, h⟩

namespace OldSrc
open Bits

/-! The control word reads back what the frame has put into it. -/

section Control
variable (f : Frame) (tag : UInt16)

theorem control_bits : (f.control tag).bits =
    setBitRange (setBitRange (setBitRange (setBitRange (setBitRange (setBitRange
      (setBitRange (setBitRange (setBitRange (setBitRange (setBitRange 0
        2 0 tag) 3 3 0) 4 4 f.framePending.toUInt16) 5 5 f.acknowledgeRequest.toUInt16)
        6 6 f.panIdCompression.toUInt16) 7 7 0) 8 8 f.sequenceNumber.isNone.toUInt16) 9 9 0)
        11 10 f.destination.serializeTag) 13 12 0) 15 14 f.source.serializeTag := rfl

theorem serializeTag_bits (address : AddressSpecification) :
    bitRange address.serializeTag 1 0 = address.serializeTag := by
  cases address with
  | none => exact bitRange_of_lt 0 (by decide) (by decide)
  | short _ _ => exact bitRange_of_lt 2 (by decide) (by decide)
  | extended _ _ => exact bitRange_of_lt 3 (by decide) (by decide)

theorem control_fields (h : tag < 8) :
    (f.control tag).frameType = tag ∧
    (f.control tag).framePending = f.framePending.toUInt16 ∧
    (f.control tag).acknowledgeRequest = f.acknowledgeRequest.toUInt16 ∧
    (f.control tag).panIdCompression = f.panIdCompression.toUInt16 ∧
    (f.control tag).sequenceNumberSupression = f.sequenceNumber.isNone.toUInt16 ∧
    (f.control tag).destinationAddressingMode = f.destination.serializeTag ∧
    (f.control tag).sourceAddressingMode = f.source.serializeTag := by
  have htype : bitRange tag 2 0 = tag :=
    bitRange_of_lt _ (by decide) (UInt16.lt_iff_toNat_lt.mp h)
  simp [FrameControl.frameType, FrameControl.framePending, FrameControl.acknowledgeRequest,
    FrameControl.panIdCompression, FrameControl.sequenceNumberSupression,
    FrameControl.destinationAddressingMode, FrameControl.sourceAddressingMode, control_bits,
    bitRange_set_of_disjoint, bitRange_set_self, bitRange_bool, serializeTag_bits, htype]

end Control

/-! An address is read back under its tag; where its PAN id was left out, under the other one. -/

theorem address_survives (self : AddressSpecification) {skipPanid : Bool}
    {usePanid : Option PANID} (hskip : skipPanid → usePanid = self.panid)
    (hkeep : ¬ skipPanid → usePanid = none) :
    ∃ bytes, (∀ target, self.serializeTo skipPanid target = .ok (target ++ bytes)) ∧
      ∀ rest, AddressSpecification.deserialize self.serializeTag usePanid (bytes ++ rest) =
        .ok (rest, self) := by
  have hpanid (panid : PANID) (hsome : self.panid = some panid) :
      ∃ front, (∀ target, AddressSpecification.serializePanid skipPanid panid target =
          .ok (target ++ front)) ∧
        ∀ rest, AddressSpecification.deserializePanid usePanid (front ++ rest) =
          .ok (rest, panid) := by
    cases skipPanid with
    | true =>
      rw [hskip rfl, hsome]
      exact ⟨[], fun target => by rw [List.append_nil]; rfl, fun rest => rfl⟩
    | false =>
      obtain ⟨front, hwrite, hread⟩ := recovers_field panid
      rw [hkeep Bool.false_ne_true]
      exact ⟨front, hwrite, hread⟩
  cases self with
  | none => exact ⟨[], fun target => by rw [List.append_nil]; rfl, fun rest => rfl⟩
  | short panid address =>
    obtain ⟨front, hwritePanid, hreadPanid⟩ := hpanid panid rfl
    obtain ⟨back, hwrite, hread⟩ := recovers_field address
    refine ⟨front ++ back, fun target => ?_, fun rest => ?_⟩
    · simp only [AddressSpecification.serializeTo, hwritePanid, ok_bind, hwrite,
        List.append_assoc]
    · change (AddressSpecification.deserializePanid _ _ >>= _) = _
      rw [List.append_assoc, hreadPanid, ok_bind]
      change (Deserialize.deserialize _ >>= _) = _
      rw [hread]
      rfl
  | extended panid address =>
    obtain ⟨front, hwritePanid, hreadPanid⟩ := hpanid panid rfl
    obtain ⟨back, hwrite, hread⟩ := recovers_field address
    refine ⟨front ++ back, fun target => ?_, fun rest => ?_⟩
    · simp only [AddressSpecification.serializeTo, hwritePanid, ok_bind, hwrite,
        List.append_assoc]
    · change (AddressSpecification.deserializePanid _ _ >>= _) = _
      rw [List.append_assoc, hreadPanid, ok_bind]
      change (Deserialize.deserialize _ >>= _) = _
      rw [hread]
      rfl

/-! The body. -/

def FrameType.writable : FrameType → Bool
  | .beacon beaconOrder superframeOrder finalCapSlot _ _ _ =>
    beaconOrder < UInt16.size && superframeOrder < UInt16.size && finalCapSlot < UInt16.size
  | .data | .ack => true
  | .command (.associationResponse _ _) => true
  | _ => false

def FrameType.sent : FrameType → FrameType
  | .beacon beaconOrder superframeOrder finalCapSlot batteryLifeExtension panCoordinator
      associationPermit =>
    .beacon (beaconOrder % 16) (superframeOrder % 16) (finalCapSlot % 16) batteryLifeExtension
      panCoordinator associationPermit
  | frameType => frameType

section Superframe
variable (beaconOrder superframeOrder finalCapSlot : UInt16)
  (batteryLifeExtension panCoordinator associationPermit : Bool)

theorem superframe_bits : (FrameType.superframe beaconOrder superframeOrder finalCapSlot
    batteryLifeExtension panCoordinator associationPermit).bits =
    setBitRange (setBitRange (setBitRange (setBitRange (setBitRange (setBitRange
      (setBitRange 0 3 0 beaconOrder) 7 4 superframeOrder) 11 8 finalCapSlot)
        12 12 batteryLifeExtension.toUInt16) 13 13 0) 14 14 panCoordinator.toUInt16)
        15 15 associationPermit.toUInt16 := rfl

theorem superframe_numbers {ss : SuperframeSpecification}
    (h : ss = FrameType.superframe beaconOrder superframeOrder finalCapSlot
      batteryLifeExtension panCoordinator associationPermit) :
    ss.beaconOrder.toNat = beaconOrder.toNat % 16 ∧
      ss.superframeOrder.toNat = superframeOrder.toNat % 16 ∧
      ss.finalCapSlot.toNat = finalCapSlot.toNat % 16 := by
  subst h
  simp [SuperframeSpecification.beaconOrder, SuperframeSpecification.superframeOrder,
    SuperframeSpecification.finalCapSlot, superframe_bits, bitRange_set_of_disjoint,
    bitRange_set_self, toNat_nibble]

theorem superframe_flags {ss : SuperframeSpecification}
    (h : ss = FrameType.superframe beaconOrder superframeOrder finalCapSlot
      batteryLifeExtension panCoordinator associationPermit) :
    ss.batteryLifeExtension = batteryLifeExtension.toUInt16 ∧
      ss.panCoordinator = panCoordinator.toUInt16 ∧
      ss.associationPermit = associationPermit.toUInt16 := by
  subst h
  simp [SuperframeSpecification.batteryLifeExtension, SuperframeSpecification.panCoordinator,
    SuperframeSpecification.associationPermit, superframe_bits, bitRange_set_of_disjoint,
    bitRange_set_self, bitRange_bool]

end Superframe

theorem recovers_status (status : AssociationResponseStatus) : Recovers status := by
  obtain ⟨bytes, hwrite, hread⟩ := recovers_word status.toUInt8
  refine ⟨bytes, hwrite, fun rest => ?_⟩
  change (Deserialize.deserialize _ >>= _) = _
  rw [hread]
  cases status <;> rfl

theorem associationResponse_survives (address : ShortAddress)
    (status : AssociationResponseStatus) :
    ∃ bytes, (∀ target, Serialize.serializeTo (Command.associationResponse address status) target =
        .ok (target ++ bytes)) ∧
      ∀ rest, Deserialize.deserialize (bytes ++ rest) =
        .ok (rest, Command.associationResponse address status) := by
  obtain ⟨front, hwriteTag, hreadTag⟩ := recovers_word (2 : UInt8)
  obtain ⟨back, hwrite, hread⟩ := (recovers_field address).pair (recovers_status status)
  refine ⟨front ++ back, fun target => ?_, fun rest => ?_⟩
  · change (Serialize.serializeTo (2 : UInt8) target >>= _) = _
    rw [hwriteTag, ok_bind, hwrite, List.append_assoc]
  · obtain ⟨⟨input, _⟩, haddress, hrest⟩ := exists_of_bind_ok (hread rest)
    obtain ⟨⟨input, _⟩, hstatus, heq⟩ := exists_of_bind_ok hrest
    cases heq
    change (Deserialize.deserialize _ >>= _) = _
    rw [List.append_assoc, hreadTag]
    change (Deserialize.deserialize _ >>= _) = _
    rw [haddress]
    change (Deserialize.deserialize _ >>= _) = _
    rw [hstatus]
    rfl

theorem toU16_eq_ok {value : Nat} (h : value < UInt16.size) (text : String) :
    FrameType.toU16 value text = .ok (.ofNat value) := if_pos h

theorem beacon_survives {beaconOrder superframeOrder finalCapSlot : Nat}
    (batteryLifeExtension panCoordinator associationPermit : Bool)
    (hbeacon : beaconOrder < UInt16.size) (hsuperframe : superframeOrder < UInt16.size)
    (hslot : finalCapSlot < UInt16.size) :
    ∃ bytes, (∀ target, Serialize.serializeTo (FrameType.beacon beaconOrder superframeOrder
          finalCapSlot batteryLifeExtension panCoordinator associationPermit) target =
        .ok (target ++ bytes)) ∧
      ∀ rest, FrameType.deserialize 0 (bytes ++ rest) = .ok (rest,
        .beacon (beaconOrder % 16) (superframeOrder % 16) (finalCapSlot % 16)
          batteryLifeExtension panCoordinator associationPermit) := by
  obtain ⟨bytes, hwrite, hread⟩ := (recovers_field (FrameType.superframe (.ofNat beaconOrder)
    (.ofNat superframeOrder) (.ofNat finalCapSlot) batteryLifeExtension panCoordinator
    associationPermit)).pair ((recovers_word (0 : UInt8)).pair (recovers_word (0 : UInt8)))
  refine ⟨bytes, fun target => ?_, fun rest => ?_⟩
  · change (FrameType.toU16 _ _ >>= _) = _
    simp only [toU16_eq_ok hbeacon, toU16_eq_ok hsuperframe, toU16_eq_ok hslot, ok_bind, hwrite]
  · obtain ⟨h1, h2, h3⟩ := superframe_numbers _ _ _ _ _ _ rfl
    obtain ⟨h4, h5, h6⟩ := superframe_flags _ _ _ _ _ _ rfl
    change (Deserialize.deserialize _ >>= _) = _
    rw [hread, ok_bind]
    dsimp only
    rw [if_neg (by decide), h1, h2, h3, h4, h5, h6, UInt16.toNat_ofNat_of_lt' hbeacon,
      UInt16.toNat_ofNat_of_lt' hsuperframe, UInt16.toNat_ofNat_of_lt' hslot]
    simp only [toUInt16_ne_zero]
    rfl

/-- What has a form is read back as it was sent. -/
theorem frameType_survives {frameType : FrameType} (h : frameType.writable) :
    ∃ tag, frameType.serializeTag = .ok tag ∧ tag < 8 ∧
      ∃ bytes, (∀ target, Serialize.serializeTo frameType target = .ok (target ++ bytes)) ∧
        ∀ rest, FrameType.deserialize tag (bytes ++ rest) = .ok (rest, frameType.sent) := by
  cases frameType with
  | beacon beaconOrder superframeOrder finalCapSlot batteryLifeExtension panCoordinator permit =>
    simp only [FrameType.writable, Bool.and_eq_true, decide_eq_true_iff] at h
    obtain ⟨⟨hbeacon, hsuperframe⟩, hslot⟩ := h
    obtain ⟨bytes, hwrite, hread⟩ := beacon_survives batteryLifeExtension panCoordinator permit
      hbeacon hsuperframe hslot
    exact ⟨0, rfl, by decide, bytes, hwrite, hread⟩
  | data => exact ⟨1, rfl, by decide, [], fun target => by rw [List.append_nil]; rfl, fun _ => rfl⟩
  | ack => exact ⟨2, rfl, by decide, [], fun target => by rw [List.append_nil]; rfl, fun _ => rfl⟩
  | command c =>
    cases c with
    | associationResponse address status =>
      obtain ⟨bytes, hwrite, hread⟩ := associationResponse_survives address status
      refine ⟨3, rfl, by decide, bytes, hwrite, fun rest => ?_⟩
      change (Deserialize.deserialize _ >>= _) = _
      rw [hread]
      rfl
    | associationRequest => cases h
    | dataRequest => cases h
    | beaconRequest => cases h
  | reserved => cases h
  | multipurpose => cases h
  | fragment => cases h
  | extended => cases h

theorem toU16_cases (value : Nat) (text : String) :
    value < UInt16.size ∨ FrameType.toU16 value text = .error (.unimplemented text) := by
  by_cases h : value < UInt16.size
  · exact .inl h
  · exact .inr (if_neg h)

theorem frameType_refused {frameType : FrameType} (h : ¬ frameType.writable) :
    (∃ e, frameType.serializeTag = .error e) ∨
      ∀ target, ∃ e, Serialize.serializeTo frameType target = .error e := by
  cases frameType with
  | beacon beaconOrder superframeOrder finalCapSlot batteryLifeExtension panCoordinator permit =>
    refine .inr fun target => ?_
    change ∃ e, (FrameType.toU16 beaconOrder _ >>= _) = _
    obtain hbeacon | herror := toU16_cases beaconOrder "Beacon order is too big"
    · rw [toU16_eq_ok hbeacon, ok_bind]
      obtain hsuperframe | herror := toU16_cases superframeOrder "Superframe order is too big"
      · rw [toU16_eq_ok hsuperframe, ok_bind]
        obtain hslot | herror := toU16_cases finalCapSlot "Final cap slot is too big"
        · simp [FrameType.writable, hbeacon, hsuperframe, hslot] at h
        · exact ⟨_, by rw [herror]; rfl⟩
      · exact ⟨_, by rw [herror]; rfl⟩
    · exact ⟨_, by rw [herror]; rfl⟩
  | data => cases h rfl
  | ack => cases h rfl
  | command c =>
    cases c with
    | associationResponse => cases h rfl
    | associationRequest => exact .inr fun _ => ⟨_, rfl⟩
    | dataRequest => exact .inr fun _ => ⟨_, rfl⟩
    | beaconRequest => exact .inr fun _ => ⟨_, rfl⟩
  | reserved => exact .inr fun _ => ⟨_, rfl⟩
  | multipurpose => exact .inl ⟨_, rfl⟩
  | fragment => exact .inl ⟨_, rfl⟩
  | extended => exact .inl ⟨_, rfl⟩

/-! The frame. -/

theorem sequenceNumber_survives (sequenceNumber : Option UInt8) :
    ∃ bytes, (∀ target, Frame.serializeSequenceNumber sequenceNumber target =
        .ok (target ++ bytes)) ∧
      ∀ rest, Frame.deserializeSequenceNumber sequenceNumber.isSome (bytes ++ rest) =
        .ok (rest, sequenceNumber) := by
  cases sequenceNumber with
  | none => exact ⟨[], fun target => by rw [List.append_nil]; rfl, fun rest => rfl⟩
  | some x =>
    obtain ⟨bytes, hwrite, hread⟩ := recovers_word x
    refine ⟨bytes, hwrite, fun rest => ?_⟩
    change (Deserialize.deserialize _ >>= _) = _
    rw [hread]
    rfl

theorem toUInt16_pos (b : Bool) : decide (b.toUInt16 > 0) = b := by
  cases b <;> rfl

theorem source_survives (f : Frame) :
    ∃ bytes, (∀ target, f.source.serializeTo f.panIdCompression target = .ok (target ++ bytes)) ∧
      ∀ rest, AddressSpecification.deserialize f.source.serializeTag
        (if f.panIdCompression.toUInt16 ≠ 0 then f.destination.panid else none) (bytes ++ rest) =
          .ok (rest, f.source) := by
  apply address_survives
  · intro hcompressed
    rw [hcompressed, if_pos (by decide)]
    simp only [Frame.panIdCompression, Bool.and_eq_true, decide_eq_true_iff] at hcompressed
    exact hcompressed.1.symm
  · intro hfull
    rw [Bool.not_eq_true] at hfull
    rw [hfull, if_neg (by decide)]

def Frame.sent (self : Frame) : Frame := { self with frameType := self.frameType.sent }

theorem frame_read_back {f : Frame} (h : f.frameType.writable) :
    ∃ bytes, serialize f = .ok bytes ∧ Frame.deserialize bytes = .ok ([], f.sent) := by
  obtain ⟨tag, htag, hlt, body, hwriteBody, hreadBody⟩ := frameType_survives h
  obtain ⟨control, hwriteControl, hreadControl⟩ := recovers_field (f.control tag)
  obtain ⟨number, hwriteNumber, hreadNumber⟩ := sequenceNumber_survives f.sequenceNumber
  obtain ⟨destination, hwriteDestination, hreadDestination⟩ :=
    @address_survives f.destination false none
      (fun hskip => absurd hskip Bool.false_ne_true) fun _ => rfl
  obtain ⟨source, hwriteSource, hreadSource⟩ := source_survives f
  refine ⟨control ++ (number ++ (destination ++ (source ++ (body ++ f.payload)))), ?_, ?_⟩
  · change f.serializeTo [] = _
    simp only [Frame.serializeTo, htag, ok_bind, hwriteControl, hwriteNumber, hwriteDestination,
      hwriteSource, hwriteBody, List.append_assoc, List.nil_append]
    rfl
  · have hnumber : (f.sequenceNumber.isNone.toUInt16 == 0) = f.sequenceNumber.isSome := by
      cases f.sequenceNumber <;> rfl
    obtain ⟨htype, hpending, hack, hcompression, hsupression, hdst, hsrc⟩ :=
      control_fields f tag hlt
    simp only [Frame.deserialize, hreadControl, ok_bind, hsupression, hnumber, hreadNumber, hdst,
      hreadDestination, hsrc, hcompression, hreadSource, htype, hreadBody, hpending, hack,
      toUInt16_pos]
    rfl

theorem frame_refused {f : Frame} (h : ¬ f.frameType.writable) : ∃ e, serialize f = .error e := by
  obtain ⟨e, htag⟩ | hbody := frameType_refused h
  · refine ⟨e, ?_⟩
    change f.serializeTo [] = _
    rw [Frame.serializeTo, htag]
    rfl
  · cases hs : serialize f with
    | error e => exact ⟨e, rfl⟩
    | ok bytes =>
      change f.serializeTo [] = _ at hs
      obtain ⟨tag, -, hs⟩ := exists_of_bind_ok hs
      obtain ⟨control, -, hs⟩ := exists_of_bind_ok hs
      obtain ⟨number, -, hs⟩ := exists_of_bind_ok hs
      obtain ⟨destination, -, hs⟩ := exists_of_bind_ok hs
      obtain ⟨source, -, hs⟩ := exists_of_bind_ok hs
      obtain ⟨e, he⟩ := hbody source
      rw [he] at hs
      cases hs

/-- A frame is written when its type has a form, and it is read back as it was, but for the numbers
of a beacon, which lose all but four bits on the way. -/
theorem written_frame_returns (f : Frame) :
    ((∃ bytes, serialize f = .ok bytes) ↔ f.frameType.writable) ∧
      ∀ bytes, serialize f = .ok bytes → Frame.deserialize bytes = .ok ([], f.sent) := by
  by_cases h : f.frameType.writable
  · obtain ⟨bytes, hwrite, hread⟩ := frame_read_back h
    refine ⟨⟨fun _ => h, fun _ => ⟨bytes, hwrite⟩⟩, fun bytes' hbytes => ?_⟩
    obtain rfl := Except.ok.inj (hwrite.symm.trans hbytes)
    exact hread
  · obtain ⟨e, he⟩ := frame_refused h
    refine ⟨⟨fun ⟨bytes, hbytes⟩ => ?_, fun hw => absurd hw h⟩, fun bytes hbytes => ?_⟩ <;>
    · rw [he] at hbytes
      cases hbytes

end OldSrc
end ZigbeeStack
