import ZigbeeStack.OldFrameRoundTrip

/-! The two frame codecs of the repository read the same frames off the air. -/
namespace ZigbeeStack
open Bits

/-- Two readers of the same bytes, an earlier one and a later one, come to related results. What the
earlier one has no value for, it refuses. -/
structure Agrees {α γ ε δ : Type} (known : α → Prop) (rel : α → List UInt8 → γ → Prop)
    (later : Except ε (α × List UInt8)) (earlier : Except δ γ) : Prop where
  forth : ∀ {out}, earlier = .ok out → ∃ a rest, later = .ok (a, rest) ∧ rel a rest out
  back : ∀ {a rest}, later = .ok (a, rest) → known a →
    ∃ out, earlier = .ok out ∧ rel a rest out
  refuses : ∀ {a rest}, later = .ok (a, rest) → ¬ known a → ∃ d, earlier = .error d

def Same {α β : Type} (c : α → β) (a : α) (rest : List UInt8) (out : List UInt8 × β) : Prop :=
  out = (rest, c a)

def All {α : Type} (_ : α) : Prop := True

namespace Agrees
variable {α β γ α' ε δ : Type} {known : α → Prop} {rel : α → List UInt8 → γ → Prop} {a : α}
  {rest : List UInt8} {out : γ} {e : ε} {d : δ} {later : Except ε (α × List UInt8)}
  {earlier : Except δ γ}

theorem values (hk : known a) (h : rel a rest out) :
    Agrees known rel (.ok (a, rest) : Except ε _) (.ok out : Except δ γ) where
  forth := by
    intro out' heq
    cases heq
    exact ⟨a, rest, rfl, h⟩
  back := by
    intro a' rest' heq _
    cases heq
    exact ⟨out, rfl, h⟩
  refuses := by
    intro a' rest' heq hno
    cases heq
    exact absurd hk hno

theorem failed (h : ∀ a rest, later ≠ .ok (a, rest)) :
    Agrees known rel later (.error d : Except δ γ) where
  forth := by
    intro out heq
    cases heq
  back := by
    intro a rest heq
    exact absurd heq (h a rest)
  refuses := by
    intro a rest heq
    exact absurd heq (h a rest)

theorem errors : Agrees known rel (.error e : Except ε (α × List UInt8)) (.error d : Except δ γ) :=
  failed fun a rest h => by cases h

theorem refused (h : ¬ known a) :
    Agrees known rel (.ok (a, rest) : Except ε _) (.error d : Except δ γ) where
  forth := by
    intro out heq
    cases heq
  back := by
    intro a' rest' heq hk
    cases heq
    exact absurd hk h
  refuses := by
    intro a' rest' heq _
    exact ⟨d, rfl⟩

theorem fails (h : Agrees known rel later earlier) (hl : later = .error e) :
    ∃ d, earlier = .error d := by
  cases he : earlier with
  | error d => exact ⟨d, rfl⟩
  | ok out =>
    obtain ⟨a, rest, hok, -⟩ := h.forth he
    cases hl.symm.trans hok

theorem bind_of {known' : α' → Prop} {rel' : α' → List UInt8 → γ → Prop} {c : α → β}
    {earlier : Except δ (List UInt8 × β)} {f : α × List UInt8 → Except ε (α' × List UInt8)}
    {g : List UInt8 × β → Except δ γ} (h : Agrees All (Same c) later earlier)
    (hf : ∀ a rest, later = .ok (a, rest) → Agrees known' rel' (f (a, rest)) (g (rest, c a))) :
    Agrees known' rel' (later >>= f) (earlier >>= g) := by
  cases hl : later with
  | error e =>
    obtain ⟨d, hd⟩ := h.fails hl
    rw [hd]
    exact errors
  | ok result =>
    obtain ⟨a, rest⟩ := result
    obtain ⟨out, hok, hsame⟩ := h.back hl trivial
    cases hsame
    rw [hok]
    exact hf a rest hl

theorem bind {known' : α' → Prop} {rel' : α' → List UInt8 → γ → Prop} {c : α → β}
    {earlier : Except δ (List UInt8 × β)} {f : α × List UInt8 → Except ε (α' × List UInt8)}
    {g : List UInt8 × β → Except δ γ} (h : Agrees All (Same c) later earlier)
    (hf : ∀ a rest, Agrees known' rel' (f (a, rest)) (g (rest, c a))) :
    Agrees known' rel' (later >>= f) (earlier >>= g) :=
  h.bind_of fun a rest _ => hf a rest

/-- A value put into a larger one on both sides. -/
theorem map {γ' : Type} {known' : α' → Prop} {rel' : α' → List UInt8 → γ' → Prop} (u : α → α')
    (v : γ → γ') (h : Agrees known rel later earlier) (hk : ∀ a, known' (u a) ↔ known a)
    (hrel : ∀ a rest out, rel a rest out → rel' (u a) rest (v out)) :
    Agrees known' rel' (later >>= fun r => .ok (u r.1, r.2))
      (earlier >>= fun out => .ok (v out)) := by
  cases hl : later with
  | error e =>
    obtain ⟨d, hd⟩ := h.fails hl
    rw [hd]
    exact errors
  | ok result =>
    obtain ⟨a, rest⟩ := result
    by_cases ha : known a
    · obtain ⟨out, hok, hr⟩ := h.back hl ha
      rw [hok]
      exact values ((hk a).2 ha) (hrel a rest out hr)
    · obtain ⟨d, hd⟩ := h.refuses hl ha
      rw [hd]
      exact refused (mt (hk a).1 ha)

theorem embed {known' : α' → Prop} {rel' : α' → List UInt8 → γ → Prop} (u : α → α')
    (h : Agrees known rel later earlier) (hk : ∀ a, known' (u a) ↔ known a)
    (hrel : ∀ a rest out, rel a rest out → rel' (u a) rest out) :
    Agrees known' rel' (later >>= fun r => .ok (u r.1, r.2)) earlier := by
  have hmap : Agrees known' rel' _ (earlier >>= fun out => .ok (id out)) := h.map u id hk hrel
  rwa [show (earlier >>= fun out => Except.ok (id out)) = earlier from bind_pure earlier] at hmap

end Agrees

theorem FrameControl.destinationAddressingMode_lt (fc : FrameControl) :
    fc.destinationAddressingMode.toNat < 4 :=
  toNat_bitRange_lt fc.bits (by decide) (by decide)

theorem FrameControl.sourceAddressingMode_lt (fc : FrameControl) :
    fc.sourceAddressingMode.toNat < 4 :=
  toNat_bitRange_lt fc.bits (by decide) (by decide)

theorem FrameControl.frameType_lt (fc : FrameControl) : fc.frameType.toNat < 8 :=
  toNat_bitRange_lt fc.bits (by decide) (by decide)

namespace OldSrc

theorem agrees_int {α : Type} (size : Nat) (ofNat : Nat → α) (data : List UInt8) :
    Agrees All (Same id) (unpackInt size ofNat data) (deserializeInt size ofNat data) := by
  unfold unpackInt deserializeInt
  split
  · exact .errors
  · exact .values trivial rfl

theorem agrees_word {α : Type} [Word α] [Pack α] [PackWord α] [Serialize α] [Deserialize α]
    [SerializeWord α] (data : List UInt8) : Agrees All (Same id)
    (Pack.unpack data : Except _ (α × _)) (Deserialize.deserialize data) := by
  rw [PackWord.unpack_eq, SerializeWord.deserialize_eq]
  exact agrees_int _ _ data

theorem agrees_field {β α : Type} [WordField β α] [Word α] [Pack α] [PackWord α] [Pack β]
    [PackField β] [Serialize α] [Deserialize α] [SerializeWord α] [Serialize β] [Deserialize β]
    [SerializeField β] (data : List UInt8) : Agrees All (Same id)
    (Pack.unpack data : Except _ (β × _)) (Deserialize.deserialize data) := by
  rw [PackField.unpack_field, SerializeField.deserialize_field, map_eq_pure_bind,
    map_eq_pure_bind]
  exact (agrees_word data).bind fun _ _ => .values trivial rfl

theorem agrees_pair {α β : Type} [Pack α] [Pack β] [Deserialize α] [Deserialize β]
    (hα : ∀ data, Agrees All (Same id) (Pack.unpack data : Except _ (α × _))
      (Deserialize.deserialize data))
    (hβ : ∀ data, Agrees All (Same id) (Pack.unpack data : Except _ (β × _))
      (Deserialize.deserialize data)) (data : List UInt8) :
    Agrees All (Same id) (Pack.unpack data : Except _ ((α × β) × _))
      (Deserialize.deserialize data) :=
  (hα data).bind fun _ rest => (hβ rest).bind fun _ _ => .values trivial rfl

/-! What a value of the later codec is in the earlier one. -/

def AddressSpecification.ofLater : Option FullAddress → AddressSpecification
  | .none => .none
  | some ⟨panid, .short address⟩ => .short panid address
  | some ⟨panid, .extended address⟩ => .extended panid address

def DeviceType.ofLater : ZigbeeStack.DeviceType → DeviceType
  | .rfd => .rfd
  | .ffd => .ffd

def PowerSource.ofLater : ZigbeeStack.PowerSource → PowerSource
  | .battery => .battery
  | .ac => .powered

def AssociationResponseStatus.ofError : AssociationError → AssociationResponseStatus
  | .panAtCapacity => .panAtCapacity
  | .panAccessDenied => .panAccessDenied
  | .hoppingSequenceOffset => .hoppingSequenceOffsetDuplication

/- What the earlier codec has a value for: no refused fast association, -/
def Command.known : ZigbeeStack.Command → Bool
  | .associationResponse ⟨true, .error _⟩ => false
  | _ => true

/- and only five of the frame types. -/
def FrameType.known : ZigbeeStack.FrameType → Bool
  | .multipurpose _ | .fragment _ | .extended _ => false
  | .command c => Command.known c
  | _ => true

/-- The later codec drops the coordinator bit of a request and the address of a refusal, the earlier
one drops the bit for a fast association, and it knows no refusal of one. -/
inductive Command.Later : ZigbeeStack.Command → Command → Prop
  | associationRequest (capability : CapabilityInformation) (alternatePanCoordinator : Bool) :
      Command.Later (.associationRequest capability)
        (.associationRequest alternatePanCoordinator (.ofLater capability.deviceType)
          (.ofLater capability.powerSource) capability.receiverOnWhenIdle
          capability.securityCapable capability.allocateAddress)
  | associated (address : ShortAddress) :
      Command.Later (.associationResponse ⟨false, .ok address⟩)
        (.associationResponse address .associationSuccessful)
  | associatedFast (address : ShortAddress) :
      Command.Later (.associationResponse ⟨true, .ok address⟩)
        (.associationResponse address .fastAssociationSuccessful)
  | refused (address : ShortAddress) (error : AssociationError) :
      Command.Later (.associationResponse ⟨false, .error error⟩)
        (.associationResponse address (.ofError error))
  | dataRequest : Command.Later .dataRequest .dataRequest
  | beaconRequest : Command.Later .beaconRequest .beaconRequest

inductive FrameType.Later : ZigbeeStack.FrameType → List UInt8 → FrameType × List UInt8 → Prop
  | beacon (b : Beacon) : FrameType.Later (.beacon b) []
      (.beacon b.beaconOrder b.superframeOrder b.finalCapSlot b.batteryLifeExtension
        b.panCoordinator b.associationPermit, b.payload.bytes)
  | data (payload : Payload) : FrameType.Later (.data payload) [] (.data, payload.bytes)
  | ack (payload : Payload) : FrameType.Later (.ack payload) [] (.ack, payload.bytes)
  | reserved (payload : Payload) : FrameType.Later (.reserved payload) [] (.reserved, payload.bytes)
  | command {c : ZigbeeStack.Command} {c' : Command} (rest : List UInt8) (h : Command.Later c c') :
      FrameType.Later (.command c) rest (.command c', rest)

structure Frame.Later (f : ZigbeeStack.Frame) (rest : List UInt8) (g : Frame) : Prop where
  framePending : g.framePending = f.framePending
  acknowledgeRequest : g.acknowledgeRequest = f.acknowledgeRequest
  sequenceNumber : g.sequenceNumber = f.sequenceNumber
  destination : g.destination = .ofLater f.destination
  source : g.source = .ofLater f.source
  frameType : FrameType.Later f.frameType rest (g.frameType, g.payload)

/-! Part by part. -/

theorem agrees_sequenceNumber (present : Bool) (data : List UInt8) :
    Agrees All (Same id) (PackTagged.unpackData present data : Except _ (Option UInt8 × _))
      (Frame.deserializeSequenceNumber present data) := by
  cases present with
  | false => exact .values trivial rfl
  | true => exact (agrees_word data).bind fun _ _ => .values trivial rfl

theorem mode_cases {tag : UInt16} (h : tag.toNat < 4) : tag = 0 ∨ tag = 1 ∨ tag = 2 ∨ tag = 3 := by
  simp only [← UInt16.toNat_inj]
  simp
  omega

theorem unpackAddress_none {mode : AddressingMode} (h : mode ≠ .none) (data : List UInt8) :
    ZigbeeStack.Frame.unpackAddress mode none data =
      (Pack.unpack data >>= fun (panid, data) =>
        ZigbeeStack.Frame.unpackAddress mode (some panid) data) := by
  simp only [ZigbeeStack.Frame.unpackAddress, if_neg h, PackTagged.unpackData, bind_assoc,
    pure_bind]

theorem unpackAddress_short (panid : PANID) (data : List UInt8) :
    ZigbeeStack.Frame.unpackAddress .short (some panid) data =
      (Pack.unpack data >>= fun (address, data) =>
        .ok (some ⟨panid, .short address⟩, data)) := by
  simp only [ZigbeeStack.Frame.unpackAddress, PackTagged.unpackData, bind_assoc, pure_bind]
  rfl

theorem unpackAddress_extended (panid : PANID) (data : List UInt8) :
    ZigbeeStack.Frame.unpackAddress .extended (some panid) data =
      (Pack.unpack data >>= fun (address, data) =>
        .ok (some ⟨panid, .extended address⟩, data)) := by
  simp only [ZigbeeStack.Frame.unpackAddress, PackTagged.unpackData, bind_assoc, pure_bind]
  rfl

theorem agrees_address {tag : UInt16} (h : tag.toNat < 4) :
    ∃ mode : AddressingMode, ExtEnum.tryFromTag tag = .ok mode ∧ ∀ panid data,
      Agrees All (Same AddressSpecification.ofLater)
        (ZigbeeStack.Frame.unpackAddress mode panid data)
        (AddressSpecification.deserialize tag panid data) := by
  obtain rfl | rfl | rfl | rfl := mode_cases h
  · have hnone (data : List UInt8) :
        Same AddressSpecification.ofLater none data (data, .none) := rfl
    exact ⟨.none, rfl, fun panid data => .values trivial (hnone data)⟩
  · refine ⟨.reserved, rfl, fun panid data => .failed fun a rest hok => ?_⟩
    cases panid with
    | some panid => cases hok
    | none =>
      rw [unpackAddress_none (by decide)] at hok
      cases hp : (Pack.unpack data : Except UnpackError (PANID × List UInt8)) with
      | error e =>
        rw [hp] at hok
        cases hok
      | ok out =>
        rw [hp] at hok
        cases hok
  · refine ⟨.short, rfl, fun panid data => ?_⟩
    have hsome (panid : PANID) (data : List UInt8) : Agrees All (Same AddressSpecification.ofLater)
        (ZigbeeStack.Frame.unpackAddress .short (some panid) data)
        (AddressSpecification.deserialize 2 (some panid) data) := by
      rw [unpackAddress_short]
      exact (agrees_field data).bind fun _ _ => Agrees.values trivial rfl
    cases panid with
    | some panid => exact hsome panid data
    | none =>
      rw [unpackAddress_none (by decide)]
      exact (agrees_field data).bind hsome
  · refine ⟨.extended, rfl, fun panid data => ?_⟩
    have hsome (panid : PANID) (data : List UInt8) : Agrees All (Same AddressSpecification.ofLater)
        (ZigbeeStack.Frame.unpackAddress .extended (some panid) data)
        (AddressSpecification.deserialize 3 (some panid) data) := by
      rw [unpackAddress_extended]
      exact (agrees_field data).bind fun _ _ => Agrees.values trivial rfl
    cases panid with
    | some panid => exact hsome panid data
    | none =>
      rw [unpackAddress_none (by decide)]
      exact (agrees_field data).bind hsome

/-! Commands. -/

theorem uint8_forall {P : UInt8 → Prop} (h : ∀ n : Fin 256, P (.ofNat n)) (v : UInt8) : P v := by
  have hv := h ⟨v.toNat, v.toNat_lt⟩
  rwa [UInt8.ofNat_toNat] at hv

/- A bit is what the shifted byte has as its last bit. -/
theorem bit_eq_shift (v : UInt8) :
    (AssociationRequest.mk v).deviceType = (v >>> 1) &&& 1 ∧
      (AssociationRequest.mk v).powerSource = (v >>> 2) &&& 1 ∧
      (AssociationRequest.mk v).receiveOnWhenIdle = (v >>> 3) &&& 1 ∧
      (AssociationRequest.mk v).securityCapability = (v >>> 6) &&& 1 ∧
      (AssociationRequest.mk v).allocateAddress = (v >>> 7) &&& 1 := by
  revert v
  refine uint8_forall ?_
  decide +kernel

theorem unpackData_bit {bit : UInt8} (h : bit = 0 ∨ bit = 1) (data : List UInt8) :
    (∃ deviceType : ZigbeeStack.DeviceType,
      PackTagged.unpackData bit data = .ok (deviceType, data) ∧
        DeviceType.tryFrom bit = some (.ofLater deviceType)) ∧
    ∃ powerSource : ZigbeeStack.PowerSource,
      PackTagged.unpackData bit data = .ok (powerSource, data) ∧
        PowerSource.tryFrom bit = some (.ofLater powerSource) := by
  obtain rfl | rfl := h
  · exact ⟨⟨.rfd, rfl, rfl⟩, .battery, rfl, rfl⟩
  · exact ⟨⟨.ffd, rfl, rfl⟩, .ac, rfl, rfl⟩

theorem decide_pos_eq (x : UInt8) : decide (x > 0) = (x != 0) := by
  rw [Bool.eq_iff_iff, decide_eq_true_iff, bne_iff_ne, gt_iff_lt, UInt8.pos_iff_ne_zero]

theorem agrees_associationRequest (data : List UInt8) :
    Agrees All (fun c rest out => out.1 = rest ∧ Command.Later (.associationRequest c) out.2)
      (Pack.unpack data : Except UnpackError (CapabilityInformation × List UInt8))
      ((Deserialize.deserialize data : Except _ (_ × AssociationRequest)) >>=
        fun out => .ok (out.1, out.2.command)) := by
  have hbyte : ((Deserialize.deserialize data : Except _ (_ × AssociationRequest)) >>=
      fun out => Except.ok (out.1, out.2.command)) =
      ((Deserialize.deserialize data : Except _ (_ × UInt8)) >>=
        fun out => .ok (out.1, (AssociationRequest.mk out.2).command)) := by
    change (Deserialize.deserialize data >>= _) >>= _ = _
    rw [bind_assoc]
    rfl
  rw [hbyte]
  refine (agrees_word data).bind fun v rest => ?_
  obtain ⟨hdevice, hpower, hidle, hsecurity, hallocate⟩ := bit_eq_shift v
  have hdeviceBit : (AssociationRequest.mk v).deviceType = 0 ∨
      (AssociationRequest.mk v).deviceType = 1 :=
    AssociationRequest.bit_zero_or_one ⟨v⟩ (show 1 < 8 by decide)
  have hpowerBit : (AssociationRequest.mk v).powerSource = 0 ∨
      (AssociationRequest.mk v).powerSource = 1 :=
    AssociationRequest.bit_zero_or_one ⟨v⟩ (show 2 < 8 by decide)
  obtain ⟨⟨deviceType, hunpackDevice, hsomeDevice⟩, -⟩ := unpackData_bit hdeviceBit rest
  obtain ⟨-, powerSource, hunpackPower, hsomePower⟩ := unpackData_bit hpowerBit rest
  rw [hdevice] at hunpackDevice
  rw [hpower] at hunpackPower
  simp only [hunpackDevice, hunpackPower, ok_bind]
  refine .values trivial ⟨rfl, ?_⟩
  have hcommand : (AssociationRequest.mk v).command = .associationRequest
      ((AssociationRequest.mk v).alternatePanCoordinator > 0) (.ofLater deviceType)
      (.ofLater powerSource) ((v >>> 3) &&& 1 != 0) ((v >>> 6) &&& 1 != 0)
      ((v >>> 7) &&& 1 != 0) := by
    simp only [AssociationRequest.command, hsomeDevice, hsomePower, Option.get_some,
      decide_pos_eq, hidle, hsecurity, hallocate]
  rw [id, hcommand]
  exact Command.Later.associationRequest _ _

theorem unknown_status (v : UInt8) (h : AssociationResponseStatus.tryFrom v = none) :
    v &&& 0x7F ≠ 0 ∧ (v &&& 0x80 = 0 →
      v &&& 0x7F ≠ 1 ∧ v &&& 0x7F ≠ 2 ∧ v &&& 0x7F ≠ 3) := by
  revert h
  revert v
  refine uint8_forall ?_
  decide +kernel

def statusOf (address : ShortAddress) (v : UInt8) (data : List UInt8) :
    Except UnpackError (AssociationResponse × List UInt8) :=
  if v &&& 0x7F = 0 then .ok (⟨v &&& 0x80 != 0, .ok address⟩, data)
  else (PackTagged.unpackData (v &&& 0x7F) data).map fun out =>
    (⟨v &&& 0x80 != 0, .error out.1⟩, out.2)

theorem unpack_associationResponse (data : List UInt8) :
    (Pack.unpack data : Except UnpackError (AssociationResponse × List UInt8)) =
      (Pack.unpack data >>= fun address =>
        Pack.unpack address.2 >>= fun v => statusOf address.1 v.1 v.2) := by
  change (Pack.unpack data >>= _) = _
  congr 1

theorem agrees_status (address : ShortAddress) (v : UInt8) (data : List UInt8)
    (d : DeserializeError) :
    Agrees (fun c => Command.known (.associationResponse c))
      (fun c rest out => out.1 = rest ∧ Command.Later (.associationResponse c) out.2)
      (statusOf address v data)
      (((AssociationResponseStatus.tryFrom v).map fun status =>
        Except.ok (data, Command.associationResponse address status)).getD (.error d)) := by
  cases h : AssociationResponseStatus.tryFrom v with
  | some status =>
    unfold AssociationResponseStatus.tryFrom at h
    split_ifs at h with h0 h1 h2 h3 h4
    · subst h0
      cases h
      exact .values rfl ⟨rfl, .associated address⟩
    · subst h1
      cases h
      exact .values rfl ⟨rfl, .refused address .panAtCapacity⟩
    · subst h2
      cases h
      exact .values rfl ⟨rfl, .refused address .panAccessDenied⟩
    · subst h3
      cases h
      exact .values rfl ⟨rfl, .refused address .hoppingSequenceOffset⟩
    · subst h4
      cases h
      exact .values rfl ⟨rfl, .associatedFast address⟩
  | none =>
    obtain ⟨hzero, hslow⟩ := unknown_status v h
    rw [statusOf, if_neg hzero]
    cases hdata : (PackTagged.unpackData (v &&& 0x7F) data :
      Except UnpackError (AssociationError × List UInt8)) with
    | error e => exact .errors
    | ok out =>
      -- only a refused fast association is known to the later codec alone
      refine .refused fun hknown => ?_
      have hfast : v &&& 0x80 = 0 := by
        cases hbit : (v &&& 0x80 != 0) with
        | false => simpa using hbit
        | true =>
          rw [hbit] at hknown
          cases hknown
      obtain ⟨h1, h2, h3⟩ := hslow hfast
      simp only [PackTagged.unpackData, if_neg h1, if_neg h2, if_neg h3] at hdata
      cases hdata

theorem agrees_associationResponse (data : List UInt8) :
    Agrees (fun c => Command.known (.associationResponse c))
      (fun c rest out => out.1 = rest ∧ Command.Later (.associationResponse c) out.2)
      (Pack.unpack data : Except UnpackError (AssociationResponse × List UInt8))
      (Deserialize.deserialize data >>= fun address =>
        Deserialize.deserialize address.1 >>= fun status =>
          .ok (status.1, Command.associationResponse address.2 status.2)) := by
  rw [unpack_associationResponse]
  refine (agrees_field data).bind fun address rest => ?_
  have hstatus : (Deserialize.deserialize rest >>= fun status =>
      Except.ok (status.1, Command.associationResponse address status.2)) =
      ((Deserialize.deserialize rest : Except DeserializeError (_ × UInt8)) >>= fun v =>
        ((AssociationResponseStatus.tryFrom v.2).map fun status =>
          Except.ok (v.1, Command.associationResponse address status)).getD
            (.error (.invalidEnumValue rest))) := by
    change (Deserialize.deserialize rest >>= _) >>= _ = _
    rw [bind_assoc]
    congr 1
    funext v
    cases h : AssociationResponseStatus.tryFrom v.2 with
    | some status => simp [h]
    | none =>
      simp only [h]
      rfl
  change Agrees _ _ _ (Deserialize.deserialize rest >>= fun status =>
    Except.ok (status.1, Command.associationResponse address status.2))
  rw [hstatus]
  exact (agrees_word rest).bind fun v rest' => agrees_status address v rest' _

theorem agrees_command (data : List UInt8) :
    Agrees (Command.known ·) (fun c rest out => out.1 = rest ∧ Command.Later c out.2)
      (Pack.unpack data : Except UnpackError (ZigbeeStack.Command × List UInt8))
      (Deserialize.deserialize data : Except _ (_ × Command)) := by
  refine (agrees_word data).bind fun tag rest => ?_
  dsimp only [id]
  split
  · exact (agrees_associationRequest rest).embed ZigbeeStack.Command.associationRequest
      (fun _ => .intro (fun _ => trivial) fun _ => rfl) fun _ _ _ => id
  split
  · exact (agrees_associationResponse rest).embed ZigbeeStack.Command.associationResponse
      (fun _ => Iff.rfl) fun _ _ _ => id
  split
  · exact .values rfl ⟨rfl, .dataRequest⟩
  split
  · exact .values rfl ⟨rfl, .beaconRequest⟩
  · exact .errors

/-! The body of a frame. -/

theorem agrees_superframeWords (data : List UInt8) : Agrees All (Same id)
    (Pack.unpack data : Except _ ((SuperframeSpecification × UInt8 × UInt8) × _))
    (Deserialize.deserialize data) :=
  agrees_pair agrees_field (agrees_pair agrees_word agrees_word) data

theorem decide_pos_eq16 (x : UInt16) : decide (x > 0) = (x != 0) := by
  rw [Bool.eq_iff_iff, decide_eq_true_iff, bne_iff_ne, gt_iff_lt, UInt16.pos_iff_ne_zero]

theorem agrees_frameType {tag : UInt16} (h : tag.toNat < 8) (data : List UInt8) :
    Agrees (FrameType.known ·) (fun f rest out => FrameType.Later f rest (out.2, out.1))
      (PackTagged.unpackData tag.toUInt8 data :
        Except UnpackError (ZigbeeStack.FrameType × List UInt8))
      (FrameType.deserialize tag data) := by
  have htag : tag = 0 ∨ tag = 1 ∨ tag = 2 ∨ tag = 3 ∨ tag = 4 ∨ tag = 5 ∨ tag = 6 ∨ tag = 7 := by
    simp only [← UInt16.toNat_inj]
    simp
    omega
  have hend (data : List UInt8) : data.drop data.length = [] := List.drop_length
  obtain rfl | rfl | rfl | rfl | rfl | rfl | rfl | rfl := htag
  · change Agrees _ _ ((Pack.unpack data >>= _) >>= _) (Deserialize.deserialize data >>= _)
    rw [bind_assoc]
    refine (agrees_superframeWords data).bind fun words rest => ?_
    obtain ⟨ss, gts, pendingAddresses⟩ := words
    by_cases hempty : gts ≠ 0 ∨ pendingAddresses ≠ 0
    · simp only [id, if_pos hempty]
      exact .errors
    · simp only [id, if_neg hempty]
      refine .values rfl ?_
      rw [hend, ← decide_pos_eq16]
      exact .beacon _
  · have hdata : FrameType.Later (.data ⟨data⟩) (data.drop data.length) (.data, data) := by
      rw [hend]
      exact .data ⟨data⟩
    exact .values rfl hdata
  · have hack : FrameType.Later (.ack ⟨data⟩) (data.drop data.length) (.ack, data) := by
      rw [hend]
      exact .ack ⟨data⟩
    exact .values rfl hack
  · refine (agrees_command data).map ZigbeeStack.FrameType.command
      (fun out => (out.1, FrameType.command out.2)) (fun c => ?_) fun c rest out h => ?_
    · exact Iff.rfl
    obtain ⟨rfl, hc⟩ := h
    exact .command _ hc
  · have hreserved : FrameType.Later (.reserved ⟨data⟩) (data.drop data.length)
        (.reserved, data) := by
      rw [hend]
      exact .reserved ⟨data⟩
    exact .values rfl hreserved
  · have hno : ¬ FrameType.known (.multipurpose ⟨data⟩) := by simp [FrameType.known]
    exact .refused hno
  · have hno : ¬ FrameType.known (.fragment ⟨data⟩) := by simp [FrameType.known]
    exact .refused hno
  · have hno : ¬ FrameType.known (.extended ⟨data⟩) := by simp [FrameType.known]
    exact .refused hno

/-! The whole frame. -/

theorem AddressSpecification.panid_ofLater (address : Option FullAddress) :
    (AddressSpecification.ofLater address).panid = address.map (·.panId) := by
  obtain _ | ⟨panid, address⟩ := address
  · rfl
  · cases address <;> rfl

def Plain (bytes : List UInt8) : Prop :=
  ∀ (fc : FrameControl) rest, Pack.unpack bytes = .ok (fc, rest) →
    fc.informationElementsPresent = 0 ∧ fc.securityEnabled = 0

theorem agrees_frame {bytes : List UInt8} (h : Plain bytes) :
    Agrees (fun f => FrameType.known f.frameType)
      (fun f rest out => out.1 = [] ∧ Frame.Later f rest out.2)
      (Pack.unpack bytes : Except UnpackError (ZigbeeStack.Frame × List UInt8))
      (Frame.deserialize bytes) := by
  refine (agrees_field bytes).bind_of fun fc rest hfc => ?_
  obtain ⟨hie, hsecurity⟩ := h fc rest hfc
  obtain ⟨destinationMode, hdestinationMode, hdestination⟩ :=
    agrees_address fc.destinationAddressingMode_lt
  obtain ⟨sourceMode, hsourceMode, hsource⟩ := agrees_address fc.sourceAddressingMode_lt
  refine (agrees_sequenceNumber (fc.sequenceNumberSupression == 0) rest).bind
    fun sequenceNumber rest => ?_
  dsimp only [id]
  rw [hdestinationMode, hsourceMode]
  refine (hdestination none rest).bind fun destination rest => ?_
  dsimp only
  rw [AddressSpecification.panid_ofLater]
  refine (hsource _ rest).bind fun source rest => ?_
  dsimp only
  rw [if_neg (not_not.2 hie), if_neg (not_not.2 hsecurity)]
  refine (agrees_frameType fc.frameType_lt rest).map
    (ZigbeeStack.Frame.mk (fc.framePending != 0) (fc.acknowledgeRequest != 0) sequenceNumber
      destination source) _ (fun _ => Iff.rfl) fun frameType rest out h => ?_
  exact ⟨rfl, decide_pos_eq16 _, decide_pos_eq16 _, rfl, rfl, rfl, h⟩

theorem plain_of_unpack {bytes rest : List UInt8} {f : ZigbeeStack.Frame}
    (h : Pack.unpack bytes = .ok (f, rest)) : Plain bytes := by
  intro fc data hfc
  change (Pack.unpack bytes >>= _) = _ at h
  rw [hfc, ok_bind] at h
  obtain ⟨⟨sequenceNumber, data⟩, -, h⟩ := exists_of_bind_ok h
  obtain ⟨mode, -, h⟩ := exists_of_bind_ok h
  obtain ⟨⟨destination, data⟩, -, h⟩ := exists_of_bind_ok h
  obtain ⟨mode, -, h⟩ := exists_of_bind_ok h
  obtain ⟨⟨source, data⟩, -, h⟩ := exists_of_bind_ok h
  dsimp only at h
  split_ifs at h with hie hsecurity
  exact ⟨not_not.1 hie, not_not.1 hsecurity⟩

/-- The later codec reads plain frames alone, and the earlier one reads the same in them, unless it
has no value for the type. -/
theorem decoders_agree (bytes : List UInt8) :
    (∀ (f : ZigbeeStack.Frame) rest, Pack.unpack bytes = .ok (f, rest) → Plain bytes ∧
      (FrameType.known f.frameType →
        ∃ g, Frame.deserialize bytes = .ok ([], g) ∧ Frame.Later f rest g) ∧
      (¬ FrameType.known f.frameType → ∃ d, Frame.deserialize bytes = .error d)) ∧
    ∀ rest g, Frame.deserialize bytes = .ok (rest, g) → Plain bytes →
      ∃ (f : ZigbeeStack.Frame) (left : List UInt8),
        Pack.unpack bytes = .ok (f, left) ∧ Frame.Later f left g := by
  constructor
  · intro f rest hf
    have hplain := plain_of_unpack hf
    refine ⟨hplain, fun hknown => ?_, (agrees_frame hplain).refuses hf⟩
    obtain ⟨⟨left, g⟩, hg, rfl, hlater⟩ := (agrees_frame hplain).back hf hknown
    exact ⟨g, hg, hlater⟩
  · intro rest g hg hplain
    obtain ⟨f, left, hf, -, hlater⟩ := (agrees_frame hplain).forth hg
    exact ⟨f, left, hf, hlater⟩

end OldSrc
end ZigbeeStack
