import ZigbeeStack.Bits
import ZigbeeStack.Keystream

/-! Authenticated encryption with a block cipher: the CBC-MAC, and CCM* over it and over the
keystream of `Ctr128`. Lengths are 64-bit words. -/
namespace ZigbeeStack.Security
open Bits Keystream

abbrev Block := Vector UInt8 16

def len (data : List UInt8) : UInt64 := UInt64.ofNat data.length

def unfilled : Fin 16 := 0

/-! The CBC-MAC takes its input byte by byte and encrypts its buffer when this is full. -/

structure CbcMac where
  cipher : Block → Block
  buffer : Block
  filled : Fin 16

namespace CbcMac

def fromCipher (cipher : Block → Block) : CbcMac := ⟨cipher, Vector.replicate 16 0, unfilled⟩

def inputByte (mac : CbcMac) (byte : UInt8) : CbcMac :=
  let buffer := mac.buffer.set mac.filled (mac.buffer[mac.filled] ^^^ byte)
  if h : mac.filled.val + 1 = 16 then { mac with buffer := mac.cipher buffer, filled := unfilled }
  else { mac with buffer, filled := ⟨mac.filled.val + 1, by omega⟩ }

def input (mac : CbcMac) (data : List UInt8) : CbcMac := data.foldl inputByte mac

/- The padding of the last block is zero, so that nothing needs to be combined with it. -/
def result (mac : CbcMac) : Block :=
  if 0 < mac.filled.val then mac.cipher mac.buffer else mac.buffer

end CbcMac

structure Ctr128 where
  stream : Nat → UInt8
  pos : Nat

def Ctr128.applyKeystream (ctr : Ctr128) (data : List UInt8) : List UInt8 × Ctr128 :=
  (xorFrom ctr.stream ctr.pos data, { ctr with pos := ctr.pos + data.length })

structure AuthDataFlag where
  bits : UInt8
deriving DecidableEq, Repr

namespace AuthDataFlag

def setReserved (flag : AuthDataFlag) (value : UInt8) : AuthDataFlag :=
  ⟨setBitRange flag.bits 7 7 value⟩
def setAData (flag : AuthDataFlag) (value : UInt8) : AuthDataFlag :=
  ⟨setBitRange flag.bits 6 6 value⟩
def setM (flag : AuthDataFlag) (value : UInt8) : AuthDataFlag :=
  ⟨setBitRange flag.bits 5 3 value⟩
def setL (flag : AuthDataFlag) (value : UInt8) : AuthDataFlag :=
  ⟨setBitRange flag.bits 2 0 value⟩

end AuthDataFlag

structure NonceFlag where
  bits : UInt8
deriving DecidableEq, Repr

namespace NonceFlag

def setReserved (flag : NonceFlag) (value : UInt8) : NonceFlag :=
  ⟨setBitRange flag.bits 7 6 value⟩
def setZero (flag : NonceFlag) (value : UInt8) : NonceFlag := ⟨setBitRange flag.bits 5 3 value⟩
def setL (flag : NonceFlag) (value : UInt8) : NonceFlag := ⟨setBitRange flag.bits 2 0 value⟩

end NonceFlag

inductive CcmStarIntegrityCodeLen where
  | none | mic4 | mic6 | mic8 | mic10 | mic12 | mic14 | mic16
deriving DecidableEq, Repr

def CcmStarIntegrityCodeLen.toNat : CcmStarIntegrityCodeLen → Nat
  | .none => 0
  | .mic4 => 1
  | .mic6 => 2
  | .mic8 => 3
  | .mic10 => 4
  | .mic12 => 5
  | .mic14 => 6
  | .mic16 => 7

def CcmStarIntegrityCodeLen.tagSize (codeLen : CcmStarIntegrityCodeLen) : Nat :=
  if codeLen.toNat = 0 then 0 else codeLen.toNat * 2 + 2

inductive CcmStarLengthSize where
  | len16 | len24 | len32 | len40 | len48 | len56 | len64
deriving DecidableEq, Repr

def CcmStarLengthSize.toNat : CcmStarLengthSize → Nat
  | .len16 => 2
  | .len24 => 3
  | .len32 => 4
  | .len40 => 5
  | .len48 => 6
  | .len56 => 7
  | .len64 => 8

structure Payload where
  msg : List UInt8
  aad : List UInt8
deriving DecidableEq, Repr

inductive AeadError where
  | error
deriving DecidableEq, Repr

/- `Ctr128::from_cipher` is a parameter: the bytes that the crate's keystream has for a cipher and
an initial block. -/
structure CcmStar where
  cipher : Block → Block
  ctr128 : (Block → Block) → Block → Nat → UInt8
  integrityCodeLen : CcmStarIntegrityCodeLen
  lengthSize : CcmStarLengthSize

def padToBlock (data : List UInt8) : List UInt8 :=
  data ++ List.replicate ((16 - data.length % 16) % 16) 0

namespace CcmStar

def aadLength (aad : List UInt8) : Except AeadError (List UInt8) :=
  if len aad = 0 then .ok []
  else if len aad < 0xFF00 then .ok (toBeBytes 2 (len aad).toNat)
  else if len aad ≤ 0xFFFFFFFF then .ok (toBeBytes 2 0xFFFE ++ toBeBytes 4 (len aad).toNat)
  else if len aad ≤ 0xFFFFFFFFFFFFFFFF then .ok (toBeBytes 2 0xFFFF ++ toBeBytes 8 (len aad).toNat)
  else .error .error

def msgLength (lengthSize : Nat) (msg : List UInt8) : List UInt8 :=
  (List.range lengthSize).map fun i =>
    ((len msg >>> UInt64.ofNat ((lengthSize - i - 1) * 8)) &&& 0xFF).toUInt8

def calculateTag (ccm : CcmStar) (plaintext : Payload) (nonce : List UInt8) :
    Except AeadError Block := do
  let aadLength ← aadLength plaintext.aad
  let authData := padToBlock (aadLength ++ plaintext.aad) ++ plaintext.msg
  let authDataFlag := ((((AuthDataFlag.mk 0).setReserved 0).setAData
    (decide (len plaintext.aad > 0)).toUInt8).setM
    (UInt8.ofNat ccm.integrityCodeLen.toNat)).setL (UInt8.ofNat ccm.lengthSize.toNat - 1)
  let lengthSize := ccm.lengthSize.toNat
  if len plaintext.msg >>> UInt64.ofNat (lengthSize * 8) ≠ 0 then throw .error
  let authDataB0 := [authDataFlag.bits] ++ nonce ++ msgLength lengthSize plaintext.msg
  if authDataB0.length ≠ 16 then throw .error
  return (((CbcMac.fromCipher ccm.cipher).input authDataB0).input authData).result

def createCtr (ccm : CcmStar) (nonce : List UInt8) : Ctr128 :=
  let nonceFlag := (((NonceFlag.mk 0).setReserved 0).setZero 0).setL
    (UInt8.ofNat ccm.lengthSize.toNat - 1)
  let counterNonce : Block := Vector.ofFn fun i => (nonceFlag.bits :: nonce).getD i 0
  { stream := ccm.ctr128 ccm.cipher counterNonce, pos := 0 }

def getTagLen (ccm : CcmStar) : Nat := ccm.integrityCodeLen.tagSize

def encrypt (ccm : CcmStar) (nonce : Vector UInt8 15) (plaintext : Payload) :
    Except AeadError (List UInt8) := do
  let nonce := nonce.toList.take (15 - ccm.lengthSize.toNat)
  let mac ← ccm.calculateTag plaintext nonce
  let ctr := ccm.createCtr nonce
  let (mac, ctr) := ctr.applyKeystream mac.toList
  let (output, _) := ctr.applyKeystream plaintext.msg
  return output ++ mac.take ccm.getTagLen

def decrypt (ccm : CcmStar) (nonce : Vector UInt8 15) (ciphertext : Payload) :
    Except AeadError (List UInt8) := do
  let nonce := nonce.toList.take (15 - ccm.lengthSize.toNat)
  let tagLen := ccm.getTagLen
  if ciphertext.msg.length < tagLen then throw .error
  let ctr := ccm.createCtr nonce
  let msgLen := ciphertext.msg.length - tagLen
  let tag := ciphertext.msg.drop msgLen ++ List.replicate (16 - tagLen) 0
  let (tag, ctr) := ctr.applyKeystream tag
  let (plaintext, _) := ctr.applyKeystream (ciphertext.msg.take msgLen)
  if 0 < tagLen then
    let mac ← ccm.calculateTag { msg := plaintext, aad := ciphertext.aad } nonce
    if mac.toList.take tagLen ≠ tag.take tagLen then throw .error
  return plaintext

/-! Decryption takes back what encryption did. -/

theorem tagSize_le (codeLen : CcmStarIntegrityCodeLen) : codeLen.tagSize ≤ 16 := by
  cases codeLen <;> decide

theorem aadLength_ok (aad : List UInt8) : ∃ bytes, aadLength aad = .ok bytes := by
  have hmax : len aad ≤ 0xFFFFFFFFFFFFFFFF := by
    have h := (len aad).toNat_lt
    rw [UInt64.le_iff_toNat_le]
    exact Nat.le_pred_of_lt h
  unfold aadLength
  rw [if_pos hmax]
  split_ifs
  all_goals exact ⟨_, rfl⟩

/-- A message that its length field can hold passes the check of its length. -/
theorem len_shiftRight {msg : List UInt8} {lengthSize : Nat} (hsize : lengthSize < 8)
    (h : msg.length < 2 ^ (lengthSize * 8)) :
    len msg >>> UInt64.ofNat (lengthSize * 8) = 0 := by
  have hfits : msg.length < 2 ^ 64 := h.trans_le (Nat.pow_le_pow_right (by decide) (by omega))
  have hshift : (lengthSize * 8) % 2 ^ 64 % 64 = lengthSize * 8 := by omega
  rw [← UInt64.toNat_inj, len, UInt64.toNat_shiftRight, UInt64.toNat_ofNat', UInt64.toNat_ofNat',
    Nat.mod_eq_of_lt hfits, hshift, Nat.shiftRight_eq_div_pow, Nat.div_eq_of_lt h]
  rfl

theorem lengthSize_lt {lengthSize : CcmStarLengthSize} (h : lengthSize ≠ .len64) :
    lengthSize.toNat < 8 := by
  cases lengthSize with
  | len64 => exact absurd rfl h
  | _ => decide

variable {ccm : CcmStar}

theorem calculateTag_ok (hsize : ccm.lengthSize ≠ .len64) {plaintext : Payload}
    (hmsg : plaintext.msg.length < 2 ^ (ccm.lengthSize.toNat * 8)) {nonce : List UInt8}
    (hnonce : nonce.length = 15 - ccm.lengthSize.toNat) :
    ∃ tag, ccm.calculateTag plaintext nonce = .ok tag := by
  obtain ⟨bytes, hbytes⟩ := aadLength_ok plaintext.aad
  have hlt := lengthSize_lt hsize
  have hb0 : ∀ flag : UInt8,
      ([flag] ++ nonce ++ msgLength ccm.lengthSize.toNat plaintext.msg).length = 16 := by
    intro flag
    simp only [msgLength, List.length_append, List.length_singleton, List.length_map,
      List.length_range, hnonce]
    omega
  simp only [calculateTag, hbytes, len_shiftRight hlt hmsg, hb0]
  exact ⟨_, rfl⟩

def shortNonce (ccm : CcmStar) (nonce : Vector UInt8 15) : List UInt8 :=
  nonce.toList.take (15 - ccm.lengthSize.toNat)

def keystream (ccm : CcmStar) (nonce : Vector UInt8 15) : Nat → UInt8 :=
  (ccm.createCtr (ccm.shortNonce nonce)).stream

theorem tag_exists (hsize : ccm.lengthSize ≠ .len64) (nonce : Vector UInt8 15)
    {plaintext : Payload} (hmsg : plaintext.msg.length < 2 ^ (ccm.lengthSize.toNat * 8)) :
    ∃ tag, ccm.calculateTag plaintext (ccm.shortNonce nonce) = .ok tag :=
  calculateTag_ok hsize hmsg (by simp [shortNonce])

variable {nonce : Vector UInt8 15} {msg aad : List UInt8} {tag : Block}

/-- The tag takes the first block of the keystream and the message what follows. -/
theorem encrypt_eq (htag : ccm.calculateTag ⟨msg, aad⟩ (ccm.shortNonce nonce) = .ok tag) :
    ccm.encrypt nonce ⟨msg, aad⟩ = .ok (xorFrom (ccm.keystream nonce) 16 msg ++
      (xorFrom (ccm.keystream nonce) 0 tag.toList).take ccm.getTagLen) := by
  have hpos : (ccm.createCtr (ccm.shortNonce nonce)).pos = 0 := rfl
  have hlen : tag.toList.length = 16 := by simp
  rw [shortNonce] at htag hpos
  simp only [encrypt, htag, Ctr128.applyKeystream, hpos, Nat.zero_add]
  change Except.ok (xorFrom _ tag.toList.length msg ++ _) = _
  rw [hlen]
  rfl

/-- Decryption answers with a message whose tag it was sent. The padded tag is a whole block
again, so that the message meets the same keystream. -/
theorem decrypt_eq_ok_iff (htag : ccm.calculateTag ⟨msg, aad⟩ (ccm.shortNonce nonce) = .ok tag)
    {output sent : List UInt8} (hsent : sent.length = ccm.getTagLen) :
    ccm.decrypt nonce ⟨output ++ sent, aad⟩ = .ok msg ↔
      xorFrom (ccm.keystream nonce) 16 output = msg ∧
        tag.toList.take ccm.getTagLen = xorFrom (ccm.keystream nonce) 0 sent := by
  have hpos : (ccm.createCtr (ccm.shortNonce nonce)).pos = 0 := rfl
  have htagLen : ccm.getTagLen ≤ 16 := tagSize_le _
  have hlen : (output ++ sent).length = output.length + ccm.getTagLen := by
    rw [List.length_append, hsent]
  have hlong : ¬ output.length + ccm.getTagLen < ccm.getTagLen := by omega
  have hpadded : (sent ++ List.replicate (16 - ccm.getTagLen) 0).length = 16 := by
    rw [List.length_append, hsent, List.length_replicate, Nat.add_sub_cancel' htagLen]
  have hreceived : (xorFrom (ccm.keystream nonce) 0
      (sent ++ List.replicate (16 - ccm.getTagLen) 0)).take ccm.getTagLen =
        xorFrom (ccm.keystream nonce) 0 sent := by
    rw [take_xorFrom, List.take_left' hsent]
  have hshort : nonce.toList.take (15 - ccm.lengthSize.toNat) = ccm.shortNonce nonce := rfl
  have hstream : (ccm.createCtr (ccm.shortNonce nonce)).stream = ccm.keystream nonce := rfl
  simp only [decrypt, hlen, if_neg hlong, Nat.add_sub_cancel, Ctr128.applyKeystream, hshort,
    hstream, hpos, List.take_left, List.drop_left, hpadded, Nat.zero_add, hreceived]
  by_cases htagged : 0 < ccm.getTagLen
  · rw [if_pos htagged]
    constructor
    · intro h
      cases hmac : ccm.calculateTag ⟨xorFrom (ccm.keystream nonce) 16 output, aad⟩
          (ccm.shortNonce nonce) with
      | error e =>
        rw [hmac] at h
        cases h
      | ok mac =>
        rw [hmac] at h
        change (if _ then _ else _) = Except.ok msg at h
        split at h
        · cases h
        · rename_i heq
          have hplain : xorFrom (ccm.keystream nonce) 16 output = msg := Except.ok.inj h
          rw [hplain, htag] at hmac
          exact ⟨hplain, Except.ok.inj hmac ▸ not_not.mp heq⟩
    · rintro ⟨hplain, hmac⟩
      rw [hplain, htag]
      exact if_neg (not_not.mpr hmac)
  · have hzero : ccm.getTagLen = 0 := by omega
    obtain rfl : sent = [] := List.eq_nil_of_length_eq_zero (hsent.trans hzero)
    rw [if_neg htagged, hzero]
    exact ⟨fun h => ⟨Except.ok.inj h, rfl⟩, fun h => congrArg Except.ok h.1⟩

theorem decrypt_short {ciphertext : List UInt8} (h : ciphertext.length < ccm.getTagLen) :
    ccm.decrypt nonce ⟨ciphertext, aad⟩ = .error .error := by
  simp only [decrypt, h, if_true]
  rfl

/-- What encryption gives is as long as the message and the tag together, and decryption with the
same nonce and associated data gives the message back. -/
theorem decrypt_encrypt (hsize : ccm.lengthSize ≠ .len64) (nonce : Vector UInt8 15)
    {plaintext : Payload} (hmsg : plaintext.msg.length < 2 ^ (ccm.lengthSize.toNat * 8)) :
    ∃ ciphertext, ccm.encrypt nonce plaintext = .ok ciphertext ∧
      ciphertext.length = plaintext.msg.length + ccm.getTagLen ∧
      ccm.decrypt nonce ⟨ciphertext, plaintext.aad⟩ = .ok plaintext.msg := by
  obtain ⟨msg, aad⟩ := plaintext
  obtain ⟨tag, htag⟩ := tag_exists hsize nonce hmsg
  have htagLen : ccm.getTagLen ≤ 16 := tagSize_le _
  have hsent : ((xorFrom (ccm.keystream nonce) 0 tag.toList).take ccm.getTagLen).length =
      ccm.getTagLen := by simp [htagLen]
  refine ⟨_, encrypt_eq htag, ?_, (decrypt_eq_ok_iff htag hsent).mpr ⟨?_, ?_⟩⟩
  · rw [List.length_append, hsent, length_xorFrom]
  · exact xorFrom_xorFrom _ _ _
  · rw [take_xorFrom, xorFrom_xorFrom]

/-- What decryption accepts is what encryption of its answer gives. -/
theorem encrypt_of_decrypt (hsize : ccm.lengthSize ≠ .len64)
    (hmsg : msg.length < 2 ^ (ccm.lengthSize.toNat * 8)) {ciphertext : List UInt8}
    (h : ccm.decrypt nonce ⟨ciphertext, aad⟩ = .ok msg) :
    ccm.encrypt nonce ⟨msg, aad⟩ = .ok ciphertext := by
  obtain ⟨tag, htag⟩ := @tag_exists ccm hsize nonce ⟨msg, aad⟩ hmsg
  by_cases hlong : ciphertext.length < ccm.getTagLen
  · rw [decrypt_short hlong] at h
    cases h
  · obtain ⟨output, sent, rfl, hsent⟩ : ∃ output sent, ciphertext = output ++ sent ∧
        sent.length = ccm.getTagLen := by
      refine ⟨_, _, (List.take_append_drop (ciphertext.length - ccm.getTagLen) _).symm, ?_⟩
      rw [List.length_drop]
      omega
    obtain ⟨rfl, hmac⟩ := (decrypt_eq_ok_iff htag hsent).mp h
    rw [encrypt_eq htag, xorFrom_xorFrom, take_xorFrom, hmac, xorFrom_xorFrom]

end CcmStar

end ZigbeeStack.Security
