import ZigbeeStack.Security

/-! A secured payload arrives: what encryption gives survives the wire and decrypts to the
plaintext, although the receiver takes from the fields what the sender took from its arguments. -/
namespace ZigbeeStack.Security
open Bits

/-! The security control on air tells the key identifier and whether a source stands there. -/

def KeyIdentifier.tag : KeyIdentifier → UInt8
  | .data => 0
  | .network _ => 1
  | .keyTransport => 2
  | .keyLoad => 3

@[simp] theorem serializeTag_keyIdentifier (keyIdentifier : KeyIdentifier) :
    SerializeTagged.serializeTag keyIdentifier = .ok keyIdentifier.tag := by
  cases keyIdentifier <;> rfl

theorem bitRange_flag (b : Bool) : bitRange b.toUInt8 0 0 = b.toUInt8 :=
  bitRange_of_lt _ (by decide) (by cases b <;> decide)

@[simp] theorem toUInt8_ne_zero (b : Bool) : (b.toUInt8 != 0) = b := by
  cases b <;> decide

theorem build_fields (keyIdentifier : KeyIdentifier) (extended : Bool) :
    (SecurityControl.build 0 keyIdentifier.tag extended.toUInt8).securityLevel = 0 ∧
      (SecurityControl.build 0 keyIdentifier.tag extended.toUInt8).keyIdentifier =
        keyIdentifier.tag ∧
      ((SecurityControl.build 0 keyIdentifier.tag extended.toUInt8).extendedNonce != 0) =
        extended := by
  have htag : bitRange keyIdentifier.tag 1 0 = keyIdentifier.tag :=
    bitRange_of_lt _ (by decide) (by cases keyIdentifier <;> simp [KeyIdentifier.tag])
  simp [SecurityControl.build, SecurityControl.securityLevel, SecurityControl.keyIdentifier,
    SecurityControl.extendedNonce, SecurityControl.setSecurityLevel,
    SecurityControl.setKeyIdentifier, SecurityControl.setExtendedNonce,
    SecurityControl.setReserved, bitRange_set_of_disjoint, bitRange_set_self, bitRange_of_lt,
    bitRange_flag, htag]

theorem recovers_option {α : Type} [Serialize α] [Deserialize α] (value : Option α)
    (h : ∀ a ∈ value, Recovers a) :
    ∃ bytes, (∀ target, serializeOption value target = .ok (target ++ bytes)) ∧
      ∀ rest, deserializeCond value.isSome (bytes ++ rest) = .ok (rest, value) := by
  cases value with
  | none => exact ⟨[], fun target => by rw [List.append_nil]; rfl, fun rest => rfl⟩
  | some a =>
    obtain ⟨bytes, hwrite, hread⟩ := h a rfl
    refine ⟨bytes, hwrite, fun rest => ?_⟩
    simp only [deserializeCond, Option.isSome_some, if_true, hread rest, ok_bind]
    rfl

/-- A key identifier is read back with the help of its tag. -/
theorem recovers_keyIdentifier (keyIdentifier : KeyIdentifier) :
    ∃ bytes, (∀ target, Serialize.serializeTo keyIdentifier target = .ok (target ++ bytes)) ∧
      ∀ rest, KeyIdentifier.deserialize keyIdentifier.tag (bytes ++ rest) =
        .ok (rest, keyIdentifier) := by
  cases keyIdentifier with
  | network keySequenceNumber =>
    obtain ⟨bytes, hwrite, hread⟩ := recovers_word keySequenceNumber
    refine ⟨bytes, hwrite, fun rest => ?_⟩
    rw [KeyIdentifier.tag, KeyIdentifier.deserialize, if_neg (by decide), if_pos rfl, hread rest]
    rfl
  | _ => exact ⟨[], fun target => by rw [List.append_nil]; rfl, fun rest => rfl⟩

/-- The wire keeps every secured payload, whatever stands before it. -/
theorem securedData_survives (d : SecuredData) : RecoversWhole d := by
  set sc := SecurityControl.build 0 d.keyIdentifier.tag d.extendedSource.isSome.toUInt8 with hsc
  obtain ⟨control, hwriteControl, hreadControl⟩ := recovers_field sc
  obtain ⟨counter, hwriteCounter, hreadCounter⟩ := recovers_word d.frameCounter
  obtain ⟨source, hwriteSource, hreadSource⟩ :=
    recovers_option d.extendedSource fun a _ => recovers_field a
  obtain ⟨key, hwriteKey, hreadKey⟩ := recovers_keyIdentifier d.keyIdentifier
  refine ⟨control ++ (counter ++ (source ++ (key ++ d.payload))), fun target => ?_, ?_⟩
  · have hwrite : Serialize.serializeTo d target = d.serializeTo target := rfl
    simp only [hwrite, SecuredData.serializeTo, serializeTag_keyIdentifier, ok_bind, ← hsc,
      hwriteControl, hwriteCounter, hwriteSource, hwriteKey, List.append_assoc]
    rfl
  · obtain ⟨hlevel, htag, hpresent⟩ := build_fields d.keyIdentifier d.extendedSource.isSome
    rw [← hsc] at hlevel htag hpresent
    have hread (input : List UInt8) : (Deserialize.deserialize input : Except _ (_ × SecuredData)) =
        SecuredData.deserialize input := rfl
    simp only [hread, SecuredData.deserialize, hreadControl, ok_bind, hlevel, hreadCounter,
      hpresent, hreadSource, htag, hreadKey]
    rfl

theorem deserialize_serialize (d : SecuredData) :
    ∃ bytes, serialize d = .ok bytes ∧ Deserialize.deserialize bytes = .ok ([], d) := by
  obtain ⟨bytes, hwrite, hread⟩ := securedData_survives d
  exact ⟨bytes, hwrite [], hread⟩

/-- What may be secured survives if it does without security. -/
theorem securable_survives {T : Type} [Serialize T] [Deserialize T] {payload : Securable T}
    (h : ∀ data, payload = .unsecured data → RecoversWhole data) :
    ∃ bytes, (∀ target, Serialize.serializeTo payload target = .ok (target ++ bytes)) ∧
      DeserializeTagged.deserialize payload.isSecured bytes = .ok ([], payload) := by
  cases payload with
  | secured data =>
    obtain ⟨bytes, hwrite, hread⟩ := securedData_survives data
    refine ⟨bytes, hwrite, ?_⟩
    change _ <$> Deserialize.deserialize bytes = _
    rw [hread]
    rfl
  | unsecured data =>
    obtain ⟨bytes, hwrite, hread⟩ := h data rfl
    refine ⟨bytes, hwrite, ?_⟩
    change _ <$> Deserialize.deserialize bytes = _
    rw [hread]
    rfl

/-! Sender and receiver build the same nonce and the same associated data. -/

section Fields
variable (keyIdentifier : KeyIdentifier) (frameCounter : UInt32) (extended : Bool)
  (level : SecurityLevel) (source : ExtendedAddress)

theorem tryIntoArray_resize {size : Nat} {data : List UInt8} (h : data.length ≤ size) :
    ∃ array, tryIntoArray size (resize data size) = some array := by
  have hlen : (resize data size).length = size := by
    simp [resize, List.take_of_length_le h, Nat.add_sub_cancel' h]
  exact ⟨_, dif_pos hlen⟩

theorem generateNonce_exists :
    ∃ nonce, generateNonce keyIdentifier frameCounter extended level source = some nonce := by
  have hnonce : generateNonce keyIdentifier frameCounter extended level source =
      tryIntoArray 15 (resize (toLeBytes 8 source.value.toNat ++ toLeBytes 4 frameCounter.toNat ++
        toLeBytes 1 (SecurityControl.build level.toUInt8 keyIdentifier.tag
          extended.toUInt8).bits.toNat) 15) := by
    rw [generateNonce, serializeTag_keyIdentifier]
    rfl
  rw [hnonce]
  exact tryIntoArray_resize (by simp)

theorem generateAssociatedData_exists (extendedSource : Option ExtendedAddress)
    (header : List UInt8) :
    ∃ aad, generateAssociatedData keyIdentifier frameCounter extendedSource level header =
      .ok aad := by
  obtain ⟨source, hsource, -⟩ :=
    recovers_option extendedSource fun a _ => recovers_field a
  obtain ⟨key, hkey, -⟩ := recovers_keyIdentifier keyIdentifier
  obtain ⟨counter, hcounter, -⟩ := recovers_word frameCounter
  obtain ⟨control, hcontrol, -⟩ := recovers_field
    (SecurityControl.build level.toUInt8 keyIdentifier.tag extendedSource.isSome.toUInt8)
  simp only [generateAssociatedData, serializeTag_keyIdentifier, ok_bind, hcontrol, hcounter,
    hsource, hkey]
  exact ⟨_, rfl⟩

/-- The receiver's nonce is the sender's, whether the source stands on air or not. -/
theorem receiver_generateNonce (payload : List UInt8) :
    SecuredData.generateNonce
        ⟨keyIdentifier, frameCounter, if extended then some source else none, payload⟩ level
        source =
      generateNonce keyIdentifier frameCounter extended level source := by
  cases extended <;> rfl

end Fields

/-- A payload secured for a key that the store has is sent whole, arrives whole and decrypts to
the plaintext. -/
theorem secured_payload_arrives (crates : Crates) (store : KeyStore)
    (keyIdentifier : KeyIdentifier) (level : SecurityLevel) (header plaintext : List UInt8)
    (frameCounter : UInt32) (source : ExtendedAddress) (extended : Bool)
    (hkey : (generateEncryptionKey crates keyIdentifier store).isSome)
    (hlen : plaintext.length < 65536) :
    ∃ d, SecuredData.encrypt crates plaintext header level keyIdentifier frameCounter extended
        source store = some d ∧
      (∃ bytes, serialize d = .ok bytes ∧ Deserialize.deserialize bytes = .ok ([], d)) ∧
      d.decrypt crates header level source store = some plaintext := by
  obtain ⟨key, hkey⟩ := Option.isSome_iff_exists.mp hkey
  obtain ⟨nonce, hnonce⟩ := generateNonce_exists keyIdentifier frameCounter extended level source
  obtain ⟨aad, haad⟩ := generateAssociatedData_exists keyIdentifier frameCounter level
    (if extended then some source else none) header
  set ccm := SecuredData.ccmStar crates key level with hccm
  have hsize : ccm.lengthSize ≠ .len64 := CcmStarLengthSize.noConfusion
  have hbound : 2 ^ (ccm.lengthSize.toNat * 8) = 65536 := by
    change 2 ^ (2 * 8) = 65536
    norm_num
  have hnonce' (payload : List UInt8) := (receiver_generateNonce keyIdentifier frameCounter extended
    level source payload).trans hnonce
  by_cases henc : level.encryption
  · obtain ⟨ciphertext, hencrypt, -, hdecrypt⟩ :=
      @CcmStar.decrypt_encrypt ccm hsize nonce ⟨plaintext, aad⟩ (hbound ▸ hlen)
    refine ⟨⟨keyIdentifier, frameCounter, if extended then some source else none, ciphertext⟩,
      ?_, deserialize_serialize _, ?_⟩
    · simp only [SecuredData.encrypt, hkey, hnonce, haad, Except.toOption, Option.bind_eq_bind,
        Option.bind_some, ← hccm, henc, if_true, hencrypt]
      rfl
    · simp only [SecuredData.decrypt, SecuredData.generateAssociatedData, hkey, hnonce', haad,
        Except.toOption, Option.bind_eq_bind, Option.bind_some, ← hccm, henc, if_true, hdecrypt]
  · -- without encryption the plaintext is authenticated data and only the tag is encrypted
    obtain ⟨tag, hencrypt, htagLen, hdecrypt⟩ :=
      @CcmStar.decrypt_encrypt ccm hsize nonce ⟨[], aad ++ plaintext⟩ (by rw [hbound]; simp)
    have hsent : (plaintext ++ tag).length = plaintext.length + ccm.getTagLen := by
      rw [List.length_append, htagLen, List.length_nil, Nat.zero_add]
    have hlong : ¬ plaintext.length + ccm.getTagLen < ccm.getTagLen := by omega
    refine ⟨⟨keyIdentifier, frameCounter, if extended then some source else none,
      plaintext ++ tag⟩, ?_, deserialize_serialize _, ?_⟩
    · simp only [SecuredData.encrypt, hkey, hnonce, haad, Except.toOption, Option.bind_eq_bind,
        Option.bind_some, ← hccm, henc, hencrypt, Option.map_some]
      rfl
    · simp only [SecuredData.decrypt, SecuredData.generateAssociatedData, hkey, hnonce', haad,
        Except.toOption, Option.bind_eq_bind, Option.bind_some, ← hccm, henc, hsent, if_neg hlong,
        Nat.add_sub_cancel, List.take_left, List.drop_left, hdecrypt]
      rfl

/-! A device announcement secured with a network key: AES-128 at the blocks that it goes through,
and counter mode with a big-endian counter of 128 bits. -/

def blockOfNat (n : Nat) : Block := Vector.ofFn fun i => (toBeBytes 16 n).getD i 0

def counterMode (cipher : Block → Block) (initial : Block) (n : Nat) : UInt8 :=
  (cipher (blockOfNat (ofBeBytes initial.toList + n / 16))).toList.getD (n % 16) 0

def announcementBlocks : List (Nat × Nat) :=
  [(0x4906631cfeff5ecfd0000000002d0014, 0x3081ce47ac8ebd4cfec0ed66a107e9de),
    (0x309fc65551713619e03beb05bdf91680, 0x957ae8767d02ced0069a9d4ef783d070),
    (0x5aaac5767d02ced6658663b1a94c0070, 0x4ec6ef256c66e704f5184330a5908e05),
    (0x46c6fc256c66e79274931636c68c70fa, 0x8438085f112e6a5917a13be2bf0cd019),
    (0xdaf7d8df112e6a5917a13be2bf0cd019, 0x3ea1f40466a07c8351a292ada3f7cf29),
    (0x0106631cfeff5ecfd0000000002d0000, 0x3dd9d7290118ea3281f11b42383e4af2),
    (0x0106631cfeff5ecfd0000000002d0001, 0x6441a28d1cf12152d2438cc9c6ee42e8),
    (0x0106631cfeff5ecfd0000000002d0002, 0xc2343ec0b18e3ca1deecf257ed0f4d14)]

def announcementCrates : Crates where
  aes128 _ block := blockOfNat ((announcementBlocks.lookup (ofBeBytes block.toList)).getD 0)
  ctr128 := counterMode
  hmac _ _ _ := none

def announcementStore : KeyStore :=
  { data := none, keyTransport := none, keyLoad := none
    network := HashMap.set ∅ 0 (blockOfNat 0x41716172614875620000000000000000) }

def announcementHeader : List UInt8 := toBeBytes 16 0x0812fdff8b551efb06631cfeff5ecfd0

def announcement : List UInt8 := toBeBytes 20 0x0800130000000096818b5506631cfeff5ecfd080

def securedAnnouncement : SecuredData :=
  { keyIdentifier := .network 0, frameCounter := 0, extendedSource := some ⟨0xd0cf5efffe1c6306⟩
    payload := toBeBytes 24 0x6c41b18d1cf121c453c8d9cfa5f2bc179cfbee400378232d }

example : SecuredData.encrypt announcementCrates announcement announcementHeader ⟨true, .mic32⟩
    (.network 0) 0 true ⟨0xd0cf5efffe1c6306⟩ announcementStore = some securedAnnouncement := by
  decide +kernel

theorem secured_payload_arrives_announcement :
    ∃ d, SecuredData.encrypt announcementCrates announcement announcementHeader ⟨true, .mic32⟩
        (.network 0) 0 true ⟨0xd0cf5efffe1c6306⟩ announcementStore = some d ∧
      (∃ bytes, serialize d = .ok bytes ∧ Deserialize.deserialize bytes = .ok ([], d)) ∧
      d.decrypt announcementCrates announcementHeader ⟨true, .mic32⟩ ⟨0xd0cf5efffe1c6306⟩
        announcementStore = some announcement :=
  secured_payload_arrives announcementCrates announcementStore (.network 0) ⟨true, .mic32⟩
    announcementHeader announcement 0 ⟨0xd0cf5efffe1c6306⟩ true rfl (by decide)

/-! Encryption alone. -/

/-- Encryption and decryption are inverse to each other on all messages whose length the length
field holds. -/
theorem CcmStar.encrypt_iff_decrypt (ccm : CcmStar) (hsize : ccm.lengthSize ≠ .len64)
    (nonce : Vector UInt8 15) (aad msg : List UInt8)
    (hmsg : msg.length < 2 ^ (ccm.lengthSize.toNat * 8)) :
    (∃ ciphertext, ccm.encrypt nonce ⟨msg, aad⟩ = .ok ciphertext) ∧
      ∀ ciphertext, ccm.encrypt nonce ⟨msg, aad⟩ = .ok ciphertext ↔
        ccm.decrypt nonce ⟨ciphertext, aad⟩ = .ok msg := by
  obtain ⟨ciphertext, hencrypt, -, hdecrypt⟩ := @decrypt_encrypt ccm hsize nonce ⟨msg, aad⟩ hmsg
  refine ⟨⟨ciphertext, hencrypt⟩, fun ciphertext' => ⟨fun h => ?_, encrypt_of_decrypt hsize hmsg⟩⟩
  obtain rfl := Except.ok.inj (hencrypt.symm.trans h)
  exact hdecrypt

def announcementCcm : CcmStar :=
  { cipher := announcementCrates.aes128 (blockOfNat 0), ctr128 := counterMode
    integrityCodeLen := .mic8, lengthSize := .len16 }

theorem CcmStar.encrypt_iff_decrypt_announcement :
    (∃ ciphertext, announcementCcm.encrypt (Vector.replicate 15 0) ⟨announcement, []⟩ =
        .ok ciphertext) ∧
      ∀ ciphertext, announcementCcm.encrypt (Vector.replicate 15 0) ⟨announcement, []⟩ =
          .ok ciphertext ↔
        announcementCcm.decrypt (Vector.replicate 15 0) ⟨ciphertext, []⟩ = .ok announcement :=
  CcmStar.encrypt_iff_decrypt announcementCcm (by decide) _ _ _ (by decide)

end ZigbeeStack.Security
