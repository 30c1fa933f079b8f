import ZigbeeStack.MmoHash
import ZigbeeStack.BlockStreams

/-! The padding of the hash. Messages below 2^16 bits are padded as documented; above that the
length stands one byte too far back, and one byte of zeros follows it instead of two. -/
namespace ZigbeeStack.Security.MMOHash
open Bits BlockStreams
variable (cipher : Block → Block → Block)

/-! What is documented. -/

def compress (hash block : Block) : Block :=
  Vector.zipWith (· ^^^ ·) (cipher hash block) block

def chain (message : List UInt8) : Block :=
  (blocks 16 0 message).foldl (compress cipher) (Vector.replicate 16 0)

def suffix (bits : Nat) : List UInt8 :=
  if bits < 2 ^ 16 then toBeBytes 2 bits else toBeBytes 4 bits ++ [0, 0]

def zeroBits (bits suffixBits : Nat) : Nat := (128 - (bits + 1 + suffixBits) % 128) % 128

def padded (message : List UInt8) : List UInt8 :=
  let bits := message.length * 8
  message ++ 0x80 :: List.replicate (zeroBits bits ((suffix bits).length * 8) / 8) 0 ++ suffix bits

theorem zeroBits_completes (bits suffixBits : Nat) :
    128 ∣ bits + 1 + zeroBits bits suffixBits + suffixBits := by
  unfold zeroBits
  omega

theorem zeroBits_le {bits suffixBits zeros : Nat} (h : 128 ∣ bits + 1 + zeros + suffixBits) :
    zeroBits bits suffixBits ≤ zeros := by
  unfold zeroBits
  omega

/-- They are the seven bits that make the first byte full, and whole bytes. -/
theorem zeroBits_mod (bytes suffixBytes : Nat) :
    zeroBits (bytes * 8) (suffixBytes * 8) % 8 = 7 := by
  unfold zeroBits
  omega

theorem length_padded_mod (message : List UInt8) : (padded message).length % 16 = 0 := by
  have hcompletes := zeroBits_completes (message.length * 8)
    ((suffix (message.length * 8)).length * 8)
  have hmod := zeroBits_mod message.length (suffix (message.length * 8)).length
  simp only [padded, List.length_append, List.length_cons, List.length_replicate]
  omega

/-! What the state holds. -/

def buffered (mmo : MMOHash) : Buffered Block UInt8 16 := ⟨mmo.hash, mmo.buffer, mmo.filled⟩

theorem buffered_inputByte (mmo : MMOHash) (byte : UInt8) :
    (inputByte cipher mmo byte).buffered = mmo.buffered.push (compress cipher) 0 byte := by
  unfold inputByte Buffered.push
  by_cases h : mmo.filled.val + 1 = 16
  · rw [dif_pos h, dif_pos (show mmo.buffered.filled.val + 1 = 16 from h)]
    rfl
  · rw [dif_neg h, dif_neg (show ¬ mmo.buffered.filled.val + 1 = 16 from h)]
    rfl

theorem buffered_input (mmo : MMOHash) (data : List UInt8) :
    (input cipher mmo data).buffered =
      data.foldl (Buffered.push (compress cipher) 0) mmo.buffered := by
  have hfold : ∀ mmo : MMOHash, (data.foldl (inputByte cipher) mmo).buffered =
      data.foldl (Buffered.push (compress cipher) 0) mmo.buffered := by
    induction data with
    | nil => exact fun _ => rfl
    | cons byte data ih =>
      intro mmo
      rw [List.foldl_cons, List.foldl_cons, ih, buffered_inputByte]
  exact hfold mmo

theorem length_input (mmo : MMOHash) (data : List UInt8) :
    (input cipher mmo data).length = mmo.length + len data := by
  have hfold : ∀ mmo : MMOHash, (data.foldl (inputByte cipher) mmo).length = mmo.length := by
    induction data with
    | nil => exact fun _ => rfl
    | cons byte data ih =>
      intro mmo
      rw [List.foldl_cons, ih]
      unfold inputByte
      dsimp only
      split <;> rfl
  exact congrArg (· + len data) (hfold mmo)

structure Absorbed (mmo : MMOHash) (message : List UInt8) : Prop where
  holds : Holds (compress cipher) 0 (Vector.replicate 16 0) mmo.buffered message
  length : mmo.length = len message

variable {cipher}

theorem absorbed_new : Absorbed cipher new [] where
  holds := .start _ (by decide)
  length := rfl

theorem len_append (message later : List UInt8) :
    len (message ++ later) = len message + len later := by
  simp [len]

theorem Absorbed.input {mmo : MMOHash} {message : List UInt8} (h : Absorbed cipher mmo message)
    (data : List UInt8) : Absorbed cipher (input cipher mmo data) (message ++ data) where
  holds := by
    rw [buffered_input]
    exact h.holds.foldl data
  length := by rw [length_input, h.length, len_append]

/-- Any way of splitting the message makes the same state. -/
theorem absorbed_calls (calls : List (List UInt8)) :
    Absorbed cipher (calls.foldl (MMOHash.input cipher) new) calls.flatten := by
  have hfold : ∀ (mmo : MMOHash) (message : List UInt8), Absorbed cipher mmo message →
      Absorbed cipher (calls.foldl (MMOHash.input cipher) mmo) (message ++ calls.flatten) := by
    induction calls with
    | nil => intro mmo message h; simpa using h
    | cons data calls ih =>
      intro mmo message h
      rw [List.foldl_cons, List.flatten_cons, ← List.append_assoc]
      exact ih _ _ (h.input data)
  exact hfold new [] absorbed_new

/-- At the end of a block the hash is the chain over all of the message. -/
theorem Absorbed.hash {mmo : MMOHash} {message : List UInt8} (h : Absorbed cipher mmo message) :
    mmo.hash = chain cipher message := h.holds.state

theorem Absorbed.filled {mmo : MMOHash} {message : List UInt8} (h : Absorbed cipher mmo message) :
    mmo.filled.val = message.length % 16 := h.holds.filled

/-! What the loop over the padding writes. -/

theorem lengthByte (lengthInBits : UInt64) {m : Nat} (hm : m < 8) :
    ((lengthInBits >>> UInt64.ofNat (m * 8)) &&& 0xFF).toUInt8 =
      UInt8.ofNat (lengthInBits.toNat / 256 ^ m) := by
  have hshift : m * 8 % 2 ^ 64 % 64 = m * 8 := by omega
  have hpow : 2 ^ (m * 8) = 256 ^ m := by rw [Nat.mul_comm, Nat.pow_mul]
  have hbyte (x : Nat) : x &&& 255 = x % 256 := Nat.and_two_pow_sub_one_eq_mod x 8
  have hmask : (0xFF : UInt64).toNat = 255 := rfl
  rw [← UInt8.toNat_inj, UInt64.toNat_toUInt8, UInt64.toNat_and, UInt64.toNat_shiftRight,
    UInt64.toNat_ofNat', hshift, Nat.shiftRight_eq_div_pow, hpow, hmask, hbyte,
    UInt8.toNat_ofNat', Nat.mod_mod]

theorem overlayLength_cons (lengthInBits : UInt64) (m : Nat) (byte : UInt8)
    (padding : List UInt8) :
    overlayLength lengthInBits ((m + 1 : Nat) * 8) (byte :: padding) =
      (byte ||| UInt8.ofNat (lengthInBits.toNat / 256 ^ m)) ::
        overlayLength lengthInBits (m * 8) padding := by
  have hshift : ((m + 1 : Nat) * 8 : Int) - 8 = m * 8 := by omega
  have htoNat : ((m : Int) * 8).toNat = m * 8 := by omega
  rw [overlayLength, hshift, htoNat]
  by_cases hm : m < 8
  · rw [if_pos (by omega), lengthByte _ hm]
  · have hzero : lengthInBits.toNat / 256 ^ m = 0 := by
      have hlt := lengthInBits.toNat_lt
      have hpow : 256 ^ 8 ≤ 256 ^ m := Nat.pow_le_pow_right (by decide) (by omega)
      exact Nat.div_eq_of_lt (hlt.trans_le hpow)
    rw [if_neg (by omega), hzero]
    simp

/-- Behind the last byte of the length nothing is written. -/
theorem overlayLength_of_le (lengthInBits : UInt64) {shift : Int} (h : shift ≤ 0)
    (padding : List UInt8) : overlayLength lengthInBits shift padding = padding := by
  induction padding generalizing shift with
  | nil => rfl
  | cons byte padding ih =>
    rw [overlayLength, if_neg (by omega), ih (by omega)]

theorem overlayLength_replicate (lengthInBits : UInt64) (m : Nat) (later : List UInt8) :
    overlayLength lengthInBits (m * 8) (List.replicate m 0 ++ later) =
      toBeBytes m lengthInBits.toNat ++ later := by
  induction m with
  | zero => exact overlayLength_of_le _ (by simp) _
  | succ m ih =>
    rw [List.replicate_succ, List.cons_append, overlayLength_cons, ih, toBeBytes_succ,
      UInt8.zero_or, List.cons_append]

/-- A length that fits into `n` bytes stands behind the mark and its zeros. -/
theorem overlayLength_marked {lengthInBits : UInt64} {n : Nat}
    (h : lengthInBits.toNat < 256 ^ n) (m : Nat) (later : List UInt8) :
    overlayLength lengthInBits ((m + n + 1 : Nat) * 8)
        (0x80 :: (List.replicate (m + n) 0 ++ later)) =
      0x80 :: (List.replicate m 0 ++ toBeBytes n lengthInBits.toNat ++ later) := by
  have hzero : lengthInBits.toNat / 256 ^ (m + n) = 0 :=
    Nat.div_eq_of_lt (h.trans_le (Nat.pow_le_pow_right (by decide) (by omega)))
  rw [overlayLength_cons, overlayLength_replicate, toBeBytes_add_of_lt m h, hzero]
  rfl

def zeroBytes (message : List UInt8) : Nat :=
  zeroBits (message.length * 8) ((suffix (message.length * 8)).length * 8) / 8

/- The padding of the long format as it is: six bytes of which the last one is zero. -/
def shifted (message : List UInt8) : List UInt8 :=
  message ++ 0x80 :: List.replicate (zeroBytes message + 1) 0 ++
    toBeBytes 4 (message.length * 8) ++ [0]

section Results
variable {mmo : MMOHash} {message : List UInt8}

theorem Absorbed.lengthInBits (h : Absorbed cipher mmo message)
    (hlt : message.length * 8 < 2 ^ 32) : (mmo.length * 8).toNat = message.length * 8 := by
  have height : (8 : UInt64).toNat = 8 := rfl
  rw [h.length, UInt64.toNat_mul, len, UInt64.toNat_ofNat', height]
  omega

/-- Whole blocks after the padding: no assertion fails. -/
theorem Absorbed.result (h : Absorbed cipher mmo message) {padding : List UInt8}
    (hwhole : (message ++ padding).length % 16 = 0) :
    (if (MMOHash.input cipher mmo padding).filled = unfilled then
      some (MMOHash.input cipher mmo padding).hash else none) =
      some (chain cipher (message ++ padding)) := by
  have hinput := h.input padding
  have hfilled : (MMOHash.input cipher mmo padding).filled = unfilled :=
    Fin.ext (hinput.filled.trans hwhole)
  rw [if_pos hfilled, hinput.hash]

theorem shiftRight_eq_zero_iff (x : UInt64) {n : Nat} (hn : n < 64) :
    x >>> UInt64.ofNat n = 0 ↔ x.toNat < 2 ^ n := by
  have hmod : n % 2 ^ 64 % 64 = n := by omega
  rw [← UInt64.toNat_inj, UInt64.toNat_shiftRight, UInt64.toNat_ofNat', hmod,
    Nat.shiftRight_eq_div_pow]
  exact Nat.div_eq_zero_iff_lt (Nat.two_pow_pos n)

/-- Below 2^16 bits the padding is the documented one. -/
theorem fixedResult_short (h : Absorbed cipher mmo message) (hlt : message.length * 8 < 2 ^ 16) :
    fixedResult cipher mmo = some (chain cipher (padded message)) := by
  have hbits := h.lengthInBits (by omega)
  have hsmall : (mmo.length * 8) >>> 16 = 0 :=
    (shiftRight_eq_zero_iff (n := 16) _ (by decide)).mpr (by omega)
  have hbig : (mmo.length * 8) >>> 32 = 0 :=
    (shiftRight_eq_zero_iff (n := 32) _ (by decide)).mpr (by omega)
  have hsuffix : suffix (message.length * 8) = toBeBytes 2 (message.length * 8) := if_pos hlt
  have hzeros : zeroBytes message = (128 - (message.length * 8 + 1 + 16) % 128) % 128 / 8 := by
    rw [zeroBytes, hsuffix, toBeBytes_length, zeroBits]
  have hfilled := h.filled
  have hbytes : (if 16 - mmo.filled.val < (1 + 16 + 7) / 8 then 16 - mmo.filled.val + 16
      else 16 - mmo.filled.val) = zeroBytes message + 2 + 1 := by
    split <;> omega
  have htake : (0x80 :: List.replicate 31 (0 : UInt8)).take (zeroBytes message + 2 + 1) =
      0x80 :: (List.replicate (zeroBytes message + 2) 0 ++ []) := by
    rw [List.take_succ_cons, List.take_replicate, List.append_nil, Nat.min_eq_left (by omega)]
  have hpadded : message ++ (0x80 :: (List.replicate (zeroBytes message) 0 ++
      toBeBytes 2 (mmo.length * 8).toNat ++ [])) = padded message := by
    rw [padded, hsuffix, hbits]
    simp [zeroBytes, hsuffix]
  simp only [fixedResult, hsmall, hbig, not_true, if_false, if_true, hbytes, htake]
  rw [overlayLength_marked (n := 2) (by omega) (zeroBytes message) [],
    h.result (by rw [hpadded, length_padded_mod]), hpadded]

/-- Above, the code's own padding takes its place. -/
theorem fixedResult_long (h : Absorbed cipher mmo message) (hle : 2 ^ 16 ≤ message.length * 8)
    (hlt : message.length * 8 < 2 ^ 32) :
    fixedResult cipher mmo = some (chain cipher (shifted message)) := by
  have hbits := h.lengthInBits hlt
  have hsmall : (mmo.length * 8) >>> 16 ≠ 0 :=
    mt (shiftRight_eq_zero_iff (n := 16) _ (by decide)).mp (by omega)
  have hbig : (mmo.length * 8) >>> 32 = 0 :=
    (shiftRight_eq_zero_iff (n := 32) _ (by decide)).mpr (by omega)
  have hsuffix : (suffix (message.length * 8)).length = 6 := by
    rw [suffix, if_neg (by omega), List.length_append, toBeBytes_length]
    rfl
  have hzeros : zeroBytes message = (128 - (message.length * 8 + 1 + 48) % 128) % 128 / 8 := by
    rw [zeroBytes, hsuffix, zeroBits]
  have hfilled := h.filled
  have hbytes : (if 16 - mmo.filled.val < (1 + 16 * 3 + 7) / 8 then 16 - mmo.filled.val + 16
      else 16 - mmo.filled.val) = zeroBytes message + 7 := by
    split <;> omega
  have hshift : ((zeroBytes message + 7 : Nat) * 8 : Int) - 8 =
      ((zeroBytes message + 1) + 4 + 1 : Nat) * 8 := by omega
  have htake : (0x80 :: List.replicate 31 (0 : UInt8)).take (zeroBytes message + 7) =
      0x80 :: (List.replicate (zeroBytes message + 1 + 4) 0 ++ [0]) := by
    rw [List.take_succ_cons, List.take_replicate, Nat.min_eq_left (by omega),
      ← List.replicate_succ']
  have hshifted : message ++ (0x80 :: (List.replicate (zeroBytes message + 1) 0 ++
      toBeBytes 4 (mmo.length * 8).toNat ++ [0])) = shifted message := by
    rw [shifted, hbits]
    simp
  have hwhole : (shifted message).length % 16 = 0 := by
    simp only [shifted, List.length_append, List.length_cons, List.length_replicate,
      toBeBytes_length, List.length_nil]
    omega
  simp only [fixedResult, hsmall, hbig, not_true, if_false, hbytes, htake, hshift]
  rw [overlayLength_marked (n := 4) (by omega) (zeroBytes message + 1) [0],
    h.result (by rw [hshifted, hwhole]), hshifted]

end Results
/-! That the two long paddings differ is seen through a cipher that mirrors the block and adds
the key: its chain has the last block still in it. -/

def mirror (key block : Block) : Block := Vector.ofFn fun i : Fin 16 => key[i] ^^^ block[i.rev]

theorem getElem_mirror (key block : Block) (i : Fin 16) :
    (mirror key block)[i] = key[i] ^^^ block[i.rev] := by
  simp [mirror]

theorem block_ext {block block' : Block} (h : ∀ i : Fin 16, block[i] = block'[i]) :
    block = block' :=
  Vector.ext fun i hi => h ⟨i, hi⟩

theorem mirror_bijective (key : Block) : Function.Bijective (mirror key) := by
  constructor
  · intro block block' h
    refine block_ext fun i => ?_
    have hi := congrArg (fun b : Block => b[i.rev]) h
    simp only [getElem_mirror, Fin.rev_rev] at hi
    exact (UInt8.xor_right_inj _).mp hi
  · intro block
    refine ⟨Vector.ofFn fun i : Fin 16 => key[i.rev] ^^^ block[i.rev], block_ext fun i => ?_⟩
    have hget (b : Fin 16 → UInt8) : (Vector.ofFn b)[i.rev] = b i.rev :=
      Vector.getElem_ofFn i.rev.isLt
    simp only [getElem_mirror, hget, Fin.rev_rev, ← UInt8.xor_assoc, UInt8.xor_self,
      UInt8.zero_xor]

/-- Blocks with the same first half are told apart. -/
theorem compress_mirror_inj {hash block block' : Block}
    (h : compress mirror hash block = compress mirror hash block')
    (hfirst : ∀ i : Fin 16, i.val < 8 → block[i] = block'[i]) : block = block' := by
  refine block_ext fun i => ?_
  by_cases hi : i.val < 8
  · exact hfirst i hi
  · have hrev : block[i.rev] = block'[i.rev] := hfirst i.rev (by rw [Fin.val_rev]; omega)
    have hcompressed := congrArg (fun b : Block => b[i]) h
    have hget (b : Block) : (compress mirror hash b)[i] = hash[i] ^^^ b[i.rev] ^^^ b[i] := by
      rw [← getElem_mirror]
      simp [compress]
    simp only [hget, hrev] at hcompressed
    exact (UInt8.xor_right_inj _).mp hcompressed

theorem chain_append {front last : List UInt8} {q : Nat} (hfront : front.length = 16 * q)
    (hlast : last.length = 16) :
    chain cipher (front ++ last) = compress cipher (chain cipher front) (blockAt 16 0 last 0) := by
  rw [chain, blocks_append hfront (by decide), List.foldl_append]
  simp [chain, blocks, hlast]

/-- Messages of whole blocks that differ in the second half of the last block only. -/
theorem chain_mirror_inj {front tail tail' : List UInt8} (hmod : front.length % 16 = 10)
    (htail : tail.length = 6) (htail' : tail'.length = 6)
    (h : chain mirror (front ++ tail) = chain mirror (front ++ tail')) : tail = tail' := by
  obtain ⟨whole, rest, rfl, hwhole, hrest⟩ : ∃ whole rest, front = whole ++ rest ∧
      whole.length = 16 * (front.length / 16) ∧ rest.length = 10 := by
    refine ⟨_, _, (List.take_append_drop (16 * (front.length / 16)) front).symm, ?_, ?_⟩
    · rw [List.length_take]
      omega
    · rw [List.length_drop]
      omega
  rw [List.append_assoc, List.append_assoc, chain_append hwhole (by simp [hrest, htail]),
    chain_append hwhole (by simp [hrest, htail'])] at h
  have hget (later : List UInt8) (i : Fin 16) :
      (blockAt 16 0 (rest ++ later) 0)[i] = (rest ++ later).getD i 0 := by
    simp [blockAt]
  have hblock := compress_mirror_inj h fun i hi => by
    rw [hget, hget, List.getD_append _ _ _ _ (by omega), List.getD_append _ _ _ _ (by omega)]
  refine List.ext_getElem (htail.trans htail'.symm) fun j hj hj' => ?_
  have hlast := congrArg (fun b : Block => b[(⟨10 + j, by omega⟩ : Fin 16)]) hblock
  simp only [hget] at hlast
  rw [List.getD_append_right _ _ _ _ (by rw [hrest]; exact Nat.le_add_right 10 j),
    List.getD_append_right _ _ _ _ (by rw [hrest]; exact Nat.le_add_right 10 j)] at hlast
  simpa [hrest, hj, hj'] using hlast

/-- In the long format both paddings end in six bytes that fill the last block. -/
theorem long_tails {message : List UInt8} (hle : 2 ^ 16 ≤ message.length * 8) :
    ∃ front, front.length % 16 = 10 ∧
      padded message = front ++ (toBeBytes 4 (message.length * 8) ++ [0, 0]) ∧
      shifted message = front ++ (0 :: (toBeBytes 4 (message.length * 8) ++ [0])) := by
  have hsuffix : suffix (message.length * 8) = toBeBytes 4 (message.length * 8) ++ [0, 0] :=
    if_neg (by omega)
  have hpadded : padded message = (message ++ 0x80 :: List.replicate (zeroBytes message) 0) ++
      (toBeBytes 4 (message.length * 8) ++ [0, 0]) := by
    rw [padded, zeroBytes, hsuffix]
  refine ⟨_, ?_, hpadded, ?_⟩
  · have hwhole := length_padded_mod message
    rw [hpadded, List.length_append] at hwhole
    simp only [List.length_append, toBeBytes_length, List.length_cons, List.length_nil] at hwhole ⊢
    omega
  · rw [shifted, List.replicate_succ']
    simp

theorem chain_shifted_ne {message : List UInt8} (hle : 2 ^ 16 ≤ message.length * 8)
    (hlt : message.length * 8 < 2 ^ 32) :
    chain mirror (shifted message) ≠ chain mirror (padded message) := by
  intro h
  obtain ⟨front, hmod, hpadded, hshifted⟩ := long_tails hle
  rw [hpadded, hshifted] at h
  have htails := chain_mirror_inj hmod (by simp) (by simp) h
  have hlength : ofBeBytes (toBeBytes 4 (message.length * 8)) = message.length * 8 :=
    ofBeBytes_toBeBytes 4 _ (by omega)
  obtain ⟨a, b, c, d, hbytes⟩ : ∃ a b c d, toBeBytes 4 (message.length * 8) = [a, b, c, d] :=
    ⟨_, _, _, _, rfl⟩
  rw [hbytes] at htails hlength
  -- every byte of the length is the one before it, and the first is zero
  simp only [List.cons_append, List.nil_append, List.cons.injEq] at htails
  obtain ⟨rfl, rfl, rfl, rfl, -⟩ := htails
  have hzero : ofBeBytes [0, 0, 0, 0] = 0 := rfl
  omega

/-- The assertions hold for every message below 2^32 bits. The hash is the documented one, for
all functions and for all block ciphers alike, if the message is below 2^16 bits and only then. -/
theorem fixedResult_documented_iff (calls : List (List UInt8))
    (hlt : calls.flatten.length * 8 < 2 ^ 32) :
    (∀ cipher, (fixedResult cipher (calls.foldl (MMOHash.input cipher) new)).isSome) ∧
    ((∀ cipher, fixedResult cipher (calls.foldl (MMOHash.input cipher) new) =
      some (chain cipher (padded calls.flatten))) ↔ calls.flatten.length * 8 < 2 ^ 16) ∧
    ((∀ cipher : Block → Block → Block, (∀ key, Function.Bijective (cipher key)) →
      fixedResult cipher (calls.foldl (MMOHash.input cipher) new) =
        some (chain cipher (padded calls.flatten))) ↔ calls.flatten.length * 8 < 2 ^ 16) := by
  have hshort (hshort : calls.flatten.length * 8 < 2 ^ 16) (cipher : Block → Block → Block) :
      fixedResult cipher (calls.foldl (MMOHash.input cipher) new) =
        some (chain cipher (padded calls.flatten)) :=
    fixedResult_short (absorbed_calls calls) hshort
  have hlong (hle : 2 ^ 16 ≤ calls.flatten.length * 8) (cipher : Block → Block → Block) :
      fixedResult cipher (calls.foldl (MMOHash.input cipher) new) =
        some (chain cipher (shifted calls.flatten)) :=
    fixedResult_long (absorbed_calls calls) hle hlt
  have hiff (hmirror : fixedResult mirror (calls.foldl (MMOHash.input mirror) new) =
      some (chain mirror (padded calls.flatten))) : calls.flatten.length * 8 < 2 ^ 16 := by
    by_contra hle
    rw [hlong (by omega)] at hmirror
    exact chain_shifted_ne (by omega) hlt (Option.some.inj hmirror)
  refine ⟨fun cipher => ?_, ⟨fun h => hiff (h mirror), hshort⟩,
    ⟨fun h => hiff (h mirror mirror_bijective), fun h cipher _ => hshort h cipher⟩⟩
  by_cases h : calls.flatten.length * 8 < 2 ^ 16
  · rw [hshort h]
    rfl
  · rw [hlong (by omega)]
    rfl

def threeCalls : List (List UInt8) :=
  [[0, 1, 2, 3, 4, 5, 6, 7, 8, 9], [10, 11, 12, 13, 14, 15, 16, 17, 18, 19], [20]]

theorem fixedResult_documented_iff_threeCalls :
    (∀ cipher, (fixedResult cipher (threeCalls.foldl (MMOHash.input cipher) new)).isSome) ∧
    ((∀ cipher, fixedResult cipher (threeCalls.foldl (MMOHash.input cipher) new) =
      some (chain cipher (padded threeCalls.flatten))) ↔ 21 * 8 < 2 ^ 16) ∧
    ((∀ cipher : Block → Block → Block, (∀ key, Function.Bijective (cipher key)) →
      fixedResult cipher (threeCalls.foldl (MMOHash.input cipher) new) =
        some (chain cipher (padded threeCalls.flatten))) ↔ 21 * 8 < 2 ^ 16) :=
  fixedResult_documented_iff threeCalls (by decide)

theorem digest_long {message : List UInt8} (hle : 2 ^ 16 ≤ message.length * 8)
    (hlt : message.length * 8 < 2 ^ 32) :
    digest mirror message ≠ some (chain mirror (padded message)) := by
  intro h
  have hresult : digest mirror message = some (chain mirror (shifted message)) :=
    fixedResult_long (absorbed_new.input message) hle hlt
  exact chain_shifted_ne hle hlt (Option.some.inj (hresult.symm.trans h))

/-- The shortest messages of the long format have 8192 bytes. -/
theorem zeros_misplaced :
    (∀ key, Function.Bijective (mirror key)) ∧
      digest mirror (List.replicate 8192 0) ≠
        some (chain mirror (padded (List.replicate 8192 0))) :=
  ⟨mirror_bijective, digest_long (by rw [List.length_replicate]; omega)
    (by rw [List.length_replicate]; omega)⟩

end ZigbeeStack.Security.MMOHash
