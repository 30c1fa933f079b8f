import ZigbeeStack.MmoPadding
import ZigbeeStack.SecuredPayloads

/-! Which entries of a key store matter under a key identifier: the one it names, and for the
key-load key the key-transport key in its place. -/
namespace ZigbeeStack.Security
open Bits Keystream MMOHash

def KeyStore.entry (store : KeyStore) : KeyIdentifier → Option Block
  | .data => store.data
  | .network keySequenceNumber => HashMap.get store.network keySequenceNumber
  | .keyTransport => store.keyTransport
  | .keyLoad => store.keyLoad

/-- Both directions give the same under two stores, whatever the other arguments are. -/
def SameResults (crates : Crates) (keyIdentifier : KeyIdentifier) (store store' : KeyStore) :
    Prop :=
  (∀ plaintext associatedData level frameCounter extendedSource sourceAddress,
    SecuredData.encrypt crates plaintext associatedData level keyIdentifier frameCounter
        extendedSource sourceAddress store =
      SecuredData.encrypt crates plaintext associatedData level keyIdentifier frameCounter
        extendedSource sourceAddress store') ∧
  ∀ (data : SecuredData) associatedData level sourceAddress,
    data.keyIdentifier = keyIdentifier →
    data.decrypt crates associatedData level sourceAddress store =
      data.decrypt crates associatedData level sourceAddress store'

section Stores
variable {keyIdentifier : KeyIdentifier} {store store' : KeyStore}

/-- A store is looked at for the key only. -/
theorem sameResults_of_key {crates : Crates}
    (h : generateEncryptionKey crates keyIdentifier store =
      generateEncryptionKey crates keyIdentifier store') :
    SameResults crates keyIdentifier store store' := by
  refine ⟨fun _ _ _ _ _ _ => ?_, fun data _ _ _ hdata => ?_⟩
  · rw [SecuredData.encrypt, SecuredData.encrypt, h]
  · subst hdata
    rw [SecuredData.decrypt, SecuredData.decrypt, h]

theorem generateEncryptionKey_congr (crates : Crates)
    (hentry : store.entry keyIdentifier = store'.entry keyIdentifier)
    (hload : keyIdentifier = .keyLoad → store.keyTransport = store'.keyTransport) :
    generateEncryptionKey crates keyIdentifier store =
      generateEncryptionKey crates keyIdentifier store' := by
  cases keyIdentifier with
  | data => exact hentry
  | network keySequenceNumber => exact hentry
  | keyTransport =>
    have hkey : store.keyTransport = store'.keyTransport := hentry
    rw [generateEncryptionKey, generateEncryptionKey, hkey]
  | keyLoad => rw [generateEncryptionKey, generateEncryptionKey, hload rfl]

end Stores

/-! Crates that keep keys apart: a key is its own keyed hash, and two keys encrypt a block
differently. -/

def mirrorCrates : Crates where
  aes128 := mirror
  ctr128 := counterMode
  hmac _ key _ := some key

theorem mirror_key_inj {key key' block : Block} (h : mirror key block = mirror key' block) :
    key = key' := by
  refine block_ext fun i => ?_
  have hi := congrArg (fun b : Block => b[i]) h
  simp only [getElem_mirror] at hi
  exact (UInt8.xor_left_inj _).mp hi

/-- The second block of the keystream. -/
theorem counterMode_second (cipher : Block → Block) (initial : Block) {i : Nat} (hi : i < 16) :
    counterMode cipher initial (16 + i) =
      (cipher (blockOfNat (ofBeBytes initial.toList + 1))).toList.getD i 0 := by
  have hdiv : (16 + i) / 16 = 1 := by omega
  have hmod : (16 + i) % 16 = i := by omega
  rw [counterMode, hdiv, hmod]

/-- One block of the message tells two keys apart. -/
theorem key_of_keystream {key key' initial : Block} {data : List UInt8} (hlen : 16 ≤ data.length)
    (h : xorFrom (counterMode (mirror key) initial) 16 data =
      xorFrom (counterMode (mirror key') initial) 16 data) : key = key' := by
  apply @mirror_key_inj key key' (blockOfNat (ofBeBytes initial.toList + 1))
  refine block_ext fun i => ?_
  have hget (block : Block) : block[i] = block.toList.getD i 0 := by simp
  rw [hget, hget, ← counterMode_second _ _ i.isLt, ← counterMode_second _ _ i.isLt]
  exact stream_of_xorFrom_eq 16 (i.isLt.trans_le hlen) h

theorem generateEncryptionKey_keyLoad (store : KeyStore) :
    generateEncryptionKey mirrorCrates .keyLoad store = store.keyTransport := by
  rw [generateEncryptionKey]
  cases store.keyTransport <;> rfl

/-- A message encrypted without a tag is the message under the keystream. -/
theorem encrypt_noTag {crates : Crates} {keyIdentifier : KeyIdentifier} {frameCounter : UInt32}
    {source : ExtendedAddress} {nonce : Vector UInt8 15} {plaintext : List UInt8}
    (hnonce : generateNonce keyIdentifier frameCounter true ⟨true, .none⟩ source = some nonce)
    (hlen : plaintext.length < 65536) (header : List UInt8) {store : KeyStore} {key : Block}
    (hkey : generateEncryptionKey crates keyIdentifier store = some key) :
    SecuredData.encrypt crates plaintext header ⟨true, .none⟩ keyIdentifier frameCounter true source
        store =
      some ⟨keyIdentifier, frameCounter, some source,
        xorFrom ((SecuredData.ccmStar crates key ⟨true, .none⟩).keystream nonce) 16 plaintext⟩ := by
  obtain ⟨aad, haad⟩ := generateAssociatedData_exists keyIdentifier frameCounter ⟨true, .none⟩
    (some source) header
  set ccm := SecuredData.ccmStar crates key ⟨true, .none⟩ with hccm
  have hbound : 2 ^ (ccm.lengthSize.toNat * 8) = 65536 := by
    change 2 ^ (2 * 8) = 65536
    norm_num
  obtain ⟨tag, htag⟩ := @CcmStar.tag_exists ccm CcmStarLengthSize.noConfusion nonce
    ⟨plaintext, aad⟩ (hbound ▸ hlen)
  have hencrypt := CcmStar.encrypt_eq htag
  rw [show ccm.getTagLen = 0 from rfl, List.take_zero, List.append_nil] at hencrypt
  simp only [SecuredData.encrypt, hkey, hnonce, haad, Except.toOption, Option.bind_eq_bind,
    Option.bind_some, ← hccm, if_true, hencrypt]
  rfl

/-- The keystreams of two keys start from the same block. -/
theorem key_of_ciphertext {key key' : Block} {level : SecurityLevel} {nonce : Vector UInt8 15}
    {data : List UInt8} (hlen : 16 ≤ data.length)
    (h : xorFrom ((SecuredData.ccmStar mirrorCrates key level).keystream nonce) 16 data =
      xorFrom ((SecuredData.ccmStar mirrorCrates key' level).keystream nonce) 16 data) :
    key = key' := by
  simp only [CcmStar.keystream, CcmStar.createCtr, CcmStar.shortNonce, SecuredData.ccmStar,
    mirrorCrates] at h
  exact key_of_keystream hlen h

/-- A message of one block shows which of two keys it is encrypted with. -/
theorem keyTransport_of_sameResults {store store' : KeyStore}
    (h : SameResults mirrorCrates .keyLoad store store') :
    store.keyTransport = store'.keyTransport := by
  obtain ⟨nonce, hnonce⟩ := generateNonce_exists .keyLoad 0 true ⟨true, .none⟩ ⟨0⟩
  have hsame := h.1 (List.replicate 16 0) [] ⟨true, .none⟩ 0 true ⟨0⟩
  have hnone {s : KeyStore} (hs : s.keyTransport = none) :
      SecuredData.encrypt mirrorCrates (List.replicate 16 0) [] ⟨true, .none⟩ .keyLoad 0 true ⟨0⟩
        s = none := by
    rw [SecuredData.encrypt, generateEncryptionKey_keyLoad, hs]
    rfl
  have hsome {s : KeyStore} {key : Block} (hs : s.keyTransport = some key) :=
    encrypt_noTag hnonce (by decide : (List.replicate 16 (0 : UInt8)).length < 65536) []
      ((generateEncryptionKey_keyLoad s).trans hs)
  cases hkey : store.keyTransport with
  | none =>
    cases hkey' : store'.keyTransport with
    | none => rfl
    | some key' =>
      rw [hnone hkey, hsome hkey'] at hsame
      cases hsame
  | some key =>
    cases hkey' : store'.keyTransport with
    | none =>
      rw [hsome hkey, hnone hkey'] at hsame
      cases hsame
    | some key' =>
      rw [hsome hkey, hsome hkey'] at hsame
      have hpayload := congrArg SecuredData.payload (Option.some.inj hsame)
      exact congrArg some (key_of_ciphertext (by simp) hpayload)

/-- Under an identifier whose entry two stores share, both directions give the same with all
crates, and with those whose cipher permutes the blocks, if no key-load key is named or the
key-transport keys agree, and only then. -/
theorem sameResults_iff {keyIdentifier : KeyIdentifier} {store store' : KeyStore}
    (hentry : store.entry keyIdentifier = store'.entry keyIdentifier) :
    ((∀ crates, SameResults crates keyIdentifier store store') ↔
      (keyIdentifier = .keyLoad → store.keyTransport = store'.keyTransport)) ∧
    ((∀ crates : Crates, (∀ key, Function.Bijective (crates.aes128 key)) →
        SameResults crates keyIdentifier store store') ↔
      (keyIdentifier = .keyLoad → store.keyTransport = store'.keyTransport)) := by
  have hsame (hload : keyIdentifier = .keyLoad → store.keyTransport = store'.keyTransport)
      (crates : Crates) : SameResults crates keyIdentifier store store' :=
    sameResults_of_key (generateEncryptionKey_congr crates hentry hload)
  have hdiffer (h : SameResults mirrorCrates keyIdentifier store store')
      (hload : keyIdentifier = .keyLoad) : store.keyTransport = store'.keyTransport := by
    subst hload
    exact keyTransport_of_sameResults h
  exact ⟨⟨fun h => hdiffer (h mirrorCrates), hsame⟩,
    ⟨fun h => hdiffer (h mirrorCrates mirror_bijective), fun hload crates _ => hsame hload crates⟩⟩

def fullStore : KeyStore :=
  { data := none
    network := ∅
    keyTransport := some (blockOfNat 1)
    keyLoad := some (blockOfNat 2) }

def loadStore : KeyStore := { fullStore with keyTransport := none }

theorem sameResults_iff_transport :
    ((∀ crates, SameResults crates .keyTransport fullStore
        { fullStore with keyLoad := none }) ↔
      (KeyIdentifier.keyTransport = .keyLoad →
        fullStore.keyTransport = fullStore.keyTransport)) ∧
    ((∀ crates : Crates, (∀ key, Function.Bijective (crates.aes128 key)) →
        SameResults crates .keyTransport fullStore { fullStore with keyLoad := none }) ↔
      (KeyIdentifier.keyTransport = .keyLoad →
        fullStore.keyTransport = fullStore.keyTransport)) :=
  sameResults_iff rfl

/-- With the same key-load key, one store encrypts and the other does not. -/
theorem keyLoad_unread :
    (∀ key, Function.Bijective (mirrorCrates.aes128 key)) ∧
      fullStore.entry .keyLoad = loadStore.entry .keyLoad ∧
      ¬ SameResults mirrorCrates .keyLoad fullStore loadStore := by
  refine ⟨mirror_bijective, rfl, fun h => ?_⟩
  have hkeys := keyTransport_of_sameResults h
  cases hkeys

end ZigbeeStack.Security
