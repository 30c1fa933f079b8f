import ZigbeeStack.Radio

/-! Radio parameter values that are set and read back, and their conversions to the types the
driver uses. -/
namespace ZigbeeStack
open Bits Radio

namespace RadioParamValue

def paramType : RadioParamValue → RadioParamType
  | .u16 _ => .u16
  | .u32 _ => .u32
  | .u64 _ => .u64

def tryIntoU16 : RadioParamValue → Except RadioError UInt16
  | .u16 x => .ok x
  | _ => .error .unexpectedResponseSize

def tryIntoU32 : RadioParamValue → Except RadioError UInt32
  | .u32 x => .ok x
  | _ => .error .unexpectedResponseSize

def tryIntoU64 : RadioParamValue → Except RadioError UInt64
  | .u64 x => .ok x
  | _ => .error .unexpectedResponseSize

/- The shift that is to leave the unused bits goes the wrong way. -/
def tryIntoRadioRxMode (self : RadioParamValue) : Except RadioError RadioRxMode := do
  let value ← self.tryIntoU16
  if value <<< 3 ≠ 0 then .error .unexpectedResponse
  else .ok ⟨value &&& 1 ≠ 0, (value >>> 1) &&& 1 ≠ 0, (value >>> 2) &&& 1 ≠ 0⟩

/-- The value comes back from the parser that asks for its type. -/
theorem tryFrom_valueBytes (v : RadioParamValue) :
    tryFrom v.paramType (valueBytes v) = .ok v := by
  cases v with
  | u16 x =>
    have hx : ofBeBytes (toBeBytes 2 x.toNat) = x.toNat := ofBeBytes_toBeBytes 2 _ x.toNat_lt
    simp [tryFrom, paramType, valueBytes, hx]
  | u32 x =>
    have hx : ofBeBytes (toBeBytes 4 x.toNat) = x.toNat := ofBeBytes_toBeBytes 4 _ x.toNat_lt
    simp [tryFrom, paramType, valueBytes, hx]
  | u64 x =>
    have hx : ofBeBytes (toBeBytes 8 x.toNat) = x.toNat := ofBeBytes_toBeBytes 8 _ x.toNat_lt
    simp [tryFrom, paramType, valueBytes, hx]

end RadioParamValue

theorem Radio.checkRetval_zero (data : List UInt8) : checkRetval 0 (0 :: 0 :: data) = .ok data := by
  unfold checkRetval
  rw [if_neg (by simp)]
  exact if_neg (not_not.mpr rfl)

def Radio.readBack (token : UniqueKey) (param : RadioParam) (value : RadioParamValue) :
    RadioResponse :=
  let bytes := (RadioRequest.setParam token param value).intoRaw.2.1
  (RadioRequest.getParam token param value.paramType).intoRaw.2.2 (.ok ([0, 0] ++ bytes.drop 2))

theorem Radio.readBack_eq (token : UniqueKey) (param : RadioParam) (value : RadioParamValue) :
    readBack token param value = .getParam token param (.ok value) := by
  have hbytes : (toBeBytes 2 param.number ++ valueBytes value).drop 2 = valueBytes value :=
    List.drop_left' (toBeBytes_length 2 _)
  have hparsed : unpackResultGetParam value.paramType (.ok ([0, 0] ++ valueBytes value)) =
      .ok value := by
    change (checkRetval 0 (0 :: 0 :: valueBytes value) >>= tryFrom value.paramType) = .ok value
    rw [checkRetval_zero]
    exact value.tryFrom_valueBytes
  unfold readBack
  dsimp only [RadioRequest.intoRaw]
  rw [hbytes, hparsed]

def Radio.ReadsBack {α : Type} (tryInto : RadioParamValue → Except RadioError α)
    (value : RadioParamValue) (x : α) : Prop :=
  ∀ token param, readBack token param value = .getParam token param (.ok value) ∧
    tryInto value = .ok x

theorem Radio.readsBack_iff {α : Type} {tryInto : RadioParamValue → Except RadioError α}
    {value : RadioParamValue} {x : α} : ReadsBack tryInto value x ↔ tryInto value = .ok x :=
  ⟨fun h => (h ⟨0⟩ .powerMode).2, fun h token param => ⟨readBack_eq token param value, h⟩⟩

namespace RadioRxMode

theorem mask_eq_zero_iff (w : UInt16) : w &&& 0x1FFF = 0 ↔ w.toNat % 8192 = 0 := by
  have hmask : (w &&& 0x1FFF).toNat = w.toNat % 8192 := by
    rw [UInt16.toNat_and]
    exact Nat.and_two_pow_sub_one_eq_mod w.toNat 13
  rw [← UInt16.toNat_inj, hmask]
  rfl

theorem shiftLeft_eq_zero_iff (w : UInt16) : w <<< 3 = 0 ↔ w &&& 0x1FFF = 0 := by
  have hshift : (w <<< 3).toNat = w.toNat * 8 % 65536 := by
    simp [Nat.shiftLeft_eq]
  rw [mask_eq_zero_iff, ← UInt16.toNat_inj, hshift]
  have hzero : (0 : UInt16).toNat = 0 := rfl
  omega

theorem shiftRight_eq_zero_iff (w : UInt16) : w >>> 3 = 0 ↔ w < 8 := by
  have hshift : (w >>> 3).toNat = w.toNat / 8 := by
    simp [Nat.shiftRight_eq_div_pow]
  rw [← UInt16.toNat_inj, hshift, UInt16.lt_iff_toNat_lt]
  have hzero : (0 : UInt16).toNat = 0 := rfl
  have height : (8 : UInt16).toNat = 8 := rfl
  omega

theorem lt_and_mask_iff (w : UInt16) : w < 8 ∧ w &&& 0x1FFF = 0 ↔ w = 0 := by
  rw [mask_eq_zero_iff, UInt16.lt_iff_toNat_lt, ← UInt16.toNat_inj]
  have hzero : (0 : UInt16).toNat = 0 := rfl
  have height : (8 : UInt16).toNat = 8 := rfl
  omega

/-- What the conversion does refuse: words with one of the low thirteen bits. -/
theorem tryInto_error_iff (value : RadioParamValue) :
    (∃ e, value.tryIntoRadioRxMode = .error e) ↔ ∀ w, value = .u16 w → w &&& 0x1FFF ≠ 0 := by
  cases value with
  | u16 w =>
    change (∃ e, (if w <<< 3 ≠ 0 then _ else _) = Except.error e) ↔ _
    rw [ite_not]
    by_cases hw : w <<< 3 = 0
    · rw [if_pos hw]
      have hmask := (shiftLeft_eq_zero_iff w).mp hw
      refine ⟨?_, fun h => absurd hmask (h w rfl)⟩
      rintro ⟨e, he⟩
      cases he
    · rw [if_neg hw]
      have hmask := mt (shiftLeft_eq_zero_iff w).mpr hw
      refine ⟨?_, fun _ => ⟨_, rfl⟩⟩
      rintro - w' h
      cases h
      exact hmask
  | u32 _ | u64 _ =>
    refine ⟨?_, fun _ => ⟨_, rfl⟩⟩
    rintro - w' h
    cases h

theorem tryInto_toValue_iff (mode : RadioRxMode) :
    mode.toValue.tryIntoRadioRxMode = .ok mode ↔ mode = ⟨false, false, false⟩ := by
  obtain ⟨addressFilter, autoack, pollMode⟩ := mode
  cases addressFilter <;> cases autoack <;> cases pollMode <;> decide

/-- Numbers survive. A receive mode survives only if it has no flag set, and the conversion
refuses exactly the words with more than the low three bits, except for the words other than zero
with bits of the low three only or of the high three only. -/
theorem values_survive_iff (x : UInt16) (y : UInt32) (z : UInt64) (mode : RadioRxMode)
    (value : RadioParamValue) :
    ReadsBack RadioParamValue.tryIntoU16 (.u16 x) x ∧
    ReadsBack RadioParamValue.tryIntoU32 (.u32 y) y ∧
    ReadsBack RadioParamValue.tryIntoU64 (.u64 z) z ∧
    (ReadsBack RadioParamValue.tryIntoRadioRxMode mode.toValue mode ↔
      mode = ⟨false, false, false⟩) ∧
    (((∃ e, value.tryIntoRadioRxMode = .error e) ↔ ¬ ∃ w, value = .u16 w ∧ w >>> 3 = 0) ↔
      ∀ w, value = .u16 w → w < 8 ∨ w &&& 0x1FFF = 0 → w = 0) := by
  refine ⟨readsBack_iff.mpr rfl, readsBack_iff.mpr rfl, readsBack_iff.mpr rfl,
    readsBack_iff.trans (tryInto_toValue_iff mode), ?_⟩
  rw [tryInto_error_iff]
  cases value with
  | u16 w =>
    simp only [RadioParamValue.u16.injEq, forall_eq', exists_eq_left', shiftRight_eq_zero_iff]
    rw [← lt_and_mask_iff w]
    tauto
  | u32 w => simp
  | u64 w => simp

theorem mode_refused :
    (RadioRxMode.mk true true false).toValue.tryIntoRadioRxMode = .error .unexpectedResponse ∧
      (RadioParamValue.u16 0x2000).tryIntoRadioRxMode = .ok ⟨false, false, false⟩ ∧
      ¬ ReadsBack RadioParamValue.tryIntoRadioRxMode (RadioRxMode.mk true true false).toValue
        ⟨true, true, false⟩ := by
  refine ⟨by decide, by decide, fun h => ?_⟩
  exact absurd (readsBack_iff.mp h) (by decide)

end RadioRxMode

namespace Radio

/-! What an answer looks like that a parser takes for a success. -/

theorem retval_eq_iff {a b : UInt8} {retval : UInt16} :
    UInt16.ofNat (ofBeBytes [a, b]) = retval ↔ toBeBytes 2 retval.toNat = [a, b] := by
  have hlt : ofBeBytes [a, b] < 65536 := by simpa using ofBeBytes_lt [a, b]
  constructor
  · rintro rfl
    rw [UInt16.toNat_ofNat_of_lt' hlt]
    exact toBeBytes_ofBeBytes rfl
  · intro h
    rw [← h, ofBeBytes_toBeBytes 2 _ retval.toNat_lt, UInt16.ofNat_toNat]

theorem checkRetval_eq_ok {expectedRetval : UInt16} {data rest : List UInt8} :
    checkRetval expectedRetval data = .ok rest ↔
      data = toBeBytes 2 expectedRetval.toNat ++ rest := by
  match data with
  | [] | [a] =>
    refine iff_of_false (by simp [checkRetval]) fun h => ?_
    have hlen := congrArg List.length h
    simp only [List.length_append, toBeBytes_length, List.length_cons, List.length_nil] at hlen
    omega
  | a :: b :: data =>
    have hcheck : checkRetval expectedRetval (a :: b :: data) =
        if UInt16.ofNat (ofBeBytes [a, b]) = expectedRetval then .ok data
        else .error (.unexpectedRetvalError (.ofNat (ofBeBytes [a, b])) data) := by
      rw [← ite_not]
      exact if_neg (by simp)
    rw [hcheck]
    split
    · rename_i hsame
      rw [retval_eq_iff.mp hsame, Except.ok.injEq]
      simp
    · rename_i hother
      refine iff_of_false (by simp) fun h => hother (retval_eq_iff.mpr ?_)
      have hfront := congrArg (List.take 2) h
      rw [List.take_left' (toBeBytes_length 2 _)] at hfront
      exact hfront.symm

theorem tryFrom_eq_ok {paramType : RadioParamType} {data : List UInt8} {value : RadioParamValue} :
    tryFrom paramType data = .ok value ↔ paramType = value.paramType ∧ data = valueBytes value := by
  constructor
  · intro h
    cases paramType
    all_goals
      simp only [tryFrom] at h
      split at h
      · rename_i hlen
        obtain rfl := Except.ok.inj h
        refine ⟨rfl, ?_⟩
        have hlt := ofBeBytes_lt data
        rw [hlen] at hlt
        simp only [valueBytes]
        first
        | rw [UInt16.toNat_ofNat_of_lt' hlt, toBeBytes_ofBeBytes hlen]
        | rw [UInt32.toNat_ofNat_of_lt' hlt, toBeBytes_ofBeBytes hlen]
        | rw [UInt64.toNat_ofNat_of_lt' hlt, toBeBytes_ofBeBytes hlen]
      · cases h
  · rintro ⟨rfl, rfl⟩
    exact value.tryFrom_valueBytes

/-- A get succeeds with a value exactly if the radio answers with a zero word and its bytes. -/
theorem unpackResultGetParam_eq_ok {paramType : RadioParamType} {answer : Answered}
    {value : RadioParamValue} : unpackResultGetParam paramType answer = .ok value ↔
      paramType = value.paramType ∧ answer = .ok ([0, 0] ++ valueBytes value) := by
  cases answer with
  | error e => exact iff_of_false nofun fun h => nomatch h.2
  | ok data =>
    change (checkRetval 0 data >>= tryFrom paramType) = .ok value ↔ _
    cases hc : checkRetval 0 data with
    | error e =>
      refine iff_of_false nofun ?_
      rintro ⟨-, hdata⟩
      rw [Except.ok.inj hdata] at hc
      exact nomatch hc.symm.trans (checkRetval_zero _)
    | ok rest =>
      rw [checkRetval_eq_ok] at hc
      subst hc
      change tryFrom paramType rest = .ok value ↔ _
      rw [tryFrom_eq_ok, Except.ok.injEq]
      exact and_congr_right' (List.append_right_inj _).symm

theorem unpackResultOnlyRetval_eq_ok {expectedRetval : UInt16} {answer : Answered} :
    unpackResultOnlyRetval expectedRetval answer = .ok () ↔
      answer = .ok (toBeBytes 2 expectedRetval.toNat) := by
  cases answer with
  | error e => exact iff_of_false nofun nofun
  | ok data =>
    change (checkRetval expectedRetval data >>= fun rest =>
      if rest.isEmpty then pure () else .error .unexpectedResponse) = .ok () ↔ _
    rw [Except.ok.injEq]
    cases hc : checkRetval expectedRetval data with
    | error e =>
      refine iff_of_false nofun ?_
      rintro rfl
      exact nomatch hc.symm.trans (checkRetval_eq_ok.mpr (List.append_nil _).symm)
    | ok rest =>
      rw [checkRetval_eq_ok] at hc
      subst hc
      cases rest with
      | nil => exact iff_of_true rfl (List.append_nil _)
      | cons b rest => exact iff_of_false nofun (by simp)

/-- A set succeeds exactly if the radio answers with a zero word alone, and gives back its value. -/
theorem unpackResultSetParam_eq_ok {setValue value : RadioParamValue} {answer : Answered} :
    unpackResultSetParam setValue answer = .ok value ↔ value = setValue ∧ answer = .ok [0, 0] := by
  have hunit : unpackResultSetParam setValue answer =
      (unpackResultOnlyRetval 0 answer).map fun _ => setValue := by
    cases answer with
    | error e => rfl
    | ok data =>
      change (checkRetval 0 data >>= _) = (checkRetval 0 data >>= _).map _
      cases checkRetval 0 data with
      | error e => rfl
      | ok rest => cases rest <;> rfl
  have hzero : (.ok [0, 0] : Answered) = .ok (toBeBytes 2 (0 : UInt16).toNat) := rfl
  rw [hunit, hzero, ← unpackResultOnlyRetval_eq_ok]
  cases unpackResultOnlyRetval 0 answer with
  | error e => simp [Except.map]
  | ok _ => simp [Except.map, eq_comm]

end Radio
end ZigbeeStack
