import Mathlib.Tactic.IntervalCases
import ZigbeeStack.OldServiceRuns
import ZigbeeStack.RadioBridge
import ZigbeeStack.RadioValues

/-! The typed calls of the first radio bridge: what they send, and what they make of an answer. -/
namespace ZigbeeStack.OldSrc.RadioBridge
open Bits

inductive RadioParam where
  | powerMode
  | channel
  | panId
  | shortAddress
  | rxMode
  | txMode
  | txPower
  | ccaThreshold
  | rssi
  | lastRssi
  | lastLinkQuality
  | longAddress
  | lastPacketTimestamp
  | channelMin
  | channelMax
  | txPowerMin
  | txPowerMax
deriving DecidableEq, Repr

def RadioParam.number : RadioParam → UInt16
  | powerMode => 0
  | channel => 1
  | panId => 2
  | shortAddress => 3
  | rxMode => 4
  | txMode => 5
  | txPower => 6
  | ccaThreshold => 7
  | rssi => 8
  | lastRssi => 9
  | lastLinkQuality => 10
  | longAddress => 11
  | lastPacketTimestamp => 12
  | channelMin => 13
  | channelMax => 14
  | txPowerMin => 15
  | txPowerMax => 16

inductive CallError where
  | rawError (error : Error)
  | unexpectedResponseSize
  | errorCode (code : Nat)
  | unsupported
deriving DecidableEq, Repr

class FromToRadioValue (T : Type) where
  toRadioValue : T → Except CallError UInt16
  fromRadioValue : UInt16 → Except CallError T

open FromToRadioValue

instance : FromToRadioValue UInt16 where
  toRadioValue value := .ok value
  fromRadioValue value := .ok value

instance : FromToRadioValue Bool where
  toRadioValue
    | true => .ok 1
    | false => .ok 0
  fromRadioValue value :=
    if value = 0 then .ok false else if value = 1 then .ok true else .error .unsupported

instance : FromToRadioValue RadioRxMode where
  toRadioValue mode := .ok (mode.addressFilter.toUInt16 <<< 0 ||| mode.autoack.toUInt16 <<< 1 |||
    mode.pollMode.toUInt16 <<< 2)
  fromRadioValue param :=
    if param >>> 3 ≠ 0 then .error .unsupported
    else .ok ⟨(param >>> 0) &&& 1 ≠ 0, (param >>> 1) &&& 1 ≠ 0, (param >>> 2) &&& 1 ≠ 0⟩

def getU16Be (data : List UInt8) : UInt16 := .ofNat (ofBeBytes (data.take 2))

/- The first word of an answer says whether the call succeeded. -/
def checkAnswer (expected : UInt16) : Outcome → Except CallError (List UInt8)
  | .error e => .error (.rawError e)
  | .ok data =>
    if data.length < 2 then .error .unexpectedResponseSize
    else if getU16Be data ≠ expected then .error (.errorCode (getU16Be data).toNat)
    else .ok (data.drop 2)

abbrev Typed (T : Type) := Request × (Outcome → Except CallError T)

def onlyChecked (expected : UInt16) (outcome : Outcome) : Except CallError Unit := do
  let _ ← checkAnswer expected outcome
  return ()

def getObject (radioParam : RadioParam) (expectedSize : Nat) : Typed (List UInt8) :=
  (⟨.radioGetObject, toBeBytes 2 radioParam.number.toNat ++ toBeBytes 2 expectedSize⟩,
    fun outcome => do
      let data ← checkAnswer 0 outcome
      if data.length < expectedSize then .error .unexpectedResponseSize else .ok data)

def getLongAddress : Typed UInt64 :=
  ((getObject .longAddress 8).1, fun outcome => do
    let data ← (getObject .longAddress 8).2 outcome
    return .ofNat (ofBeBytes (data.take 8)))

def getValue (T : Type) [FromToRadioValue T] (radioParam : RadioParam) : Typed T :=
  (⟨.radioGetValue, toBeBytes 2 radioParam.number.toNat⟩, fun outcome => do
    let data ← checkAnswer 0 outcome
    if data.length < 2 then .error .unexpectedResponseSize else fromRadioValue (getU16Be data))

def setValue {T : Type} [FromToRadioValue T] (radioParam : RadioParam) (value : T) :
    Except CallError (Typed Unit) := do
  let requestValue ← toRadioValue value
  return (⟨.radioSetValue,
    toBeBytes 2 radioParam.number.toNat ++ toBeBytes 2 requestValue.toNat⟩, onlyChecked 0)

def send (data : List UInt8) : Typed Unit := (⟨.radioSend, data⟩, onlyChecked 0)

def on : Typed Unit := (⟨.radioOn, []⟩, onlyChecked 1)

def initPendingDataTable : Typed Unit := (⟨.radioInitPendingTable, []⟩, onlyChecked 0)

def setPendingDataExt (index : Nat) (address : Option UInt64) : Typed Unit :=
  (⟨.radioSetPending, (0x80 ||| UInt8.ofNat index) ::
    (address.map fun address => toLeBytes 8 address.toNat).getD []⟩, onlyChecked 0)

def setPendingDataShort (index : Nat) (address : Option (UInt16 × UInt16)) : Typed Unit :=
  (⟨.radioSetPending, (0x7F &&& UInt8.ofNat index) ::
    (address.map fun address =>
      toLeBytes 2 address.1.toNat ++ toLeBytes 2 address.2.toNat).getD []⟩, onlyChecked 0)

def handleMruAddressSetAction : MRUAddressSetAction → Option (Typed Unit)
  | .none => none
  | .setShortSlot slot address =>
    some (setPendingDataShort slot (address.map fun a => (a.1.value, a.2.value)))
  | .setExtendedSlot slot address => some (setPendingDataExt slot (address.map fun a => a.value))

/-! A value that is set is read back. -/

class LawfulRadioValue (T : Type) [FromToRadioValue T] : Prop where
  inverse : ∀ (word : UInt16) (value : T),
    fromRadioValue word = .ok value ↔ toRadioValue value = .ok word

instance : LawfulRadioValue UInt16 where
  inverse word value := by
    change Except.ok word = Except.ok value ↔ Except.ok value = Except.ok word
    exact eq_comm

instance : LawfulRadioValue Bool where
  inverse word value := by
    change (if word = 0 then Except.ok false else if word = 1 then Except.ok true
      else Except.error CallError.unsupported) = _ ↔ _
    cases value with
    | false =>
      change _ ↔ Except.ok 0 = Except.ok word
      split_ifs with hzero hone <;> simp_all [eq_comm]
    | true =>
      change _ ↔ Except.ok 1 = Except.ok word
      split_ifs with hzero hone <;> simp_all [eq_comm]

theorem rxMode_of_word {word : UInt16} (h : word < 8) (value : RadioRxMode) :
    fromRadioValue word = .ok value ↔ toRadioValue value = .ok word := by
  obtain ⟨n, hn, rfl⟩ : ∃ n < 8, word = UInt16.ofNat n :=
    ⟨word.toNat, UInt16.lt_iff_toNat_lt.mp h, UInt16.ofNat_toNat.symm⟩
  obtain ⟨addressFilter, autoack, pollMode⟩ := value
  revert addressFilter autoack pollMode
  interval_cases n <;> decide

instance : LawfulRadioValue RadioRxMode where
  inverse word value := by
    by_cases h : word < 8
    · exact rxMode_of_word h value
    · have hshift : word >>> 3 ≠ 0 :=
        fun hzero => h ((RadioRxMode.shiftRight_eq_zero_iff word).mp hzero)
      have hrefused : (fromRadioValue word : Except CallError RadioRxMode) =
          .error .unsupported := if_pos hshift
      rw [hrefused]
      refine iff_of_false nofun fun hok => h ?_
      obtain rfl := Except.ok.inj hok
      obtain ⟨addressFilter, autoack, pollMode⟩ := value
      revert addressFilter autoack pollMode
      decide

theorem checkAnswer_eq_ok {expected : UInt16} {outcome : Outcome} {rest : List UInt8} :
    checkAnswer expected outcome = .ok rest ↔
      outcome = .ok (toBeBytes 2 expected.toNat ++ rest) := by
  cases outcome with
  | error e => exact iff_of_false nofun nofun
  | ok data =>
    rw [Except.ok.injEq, ← Radio.checkRetval_eq_ok, checkAnswer, Radio.checkRetval, getU16Be]
    split_ifs <;> simp_all

/-- A get succeeds with a value exactly if the radio answers with a zero word and the two bytes that
a set of the value puts behind the parameter's number; what follows them does not matter. -/
theorem getValue_eq_ok_iff {T : Type} [FromToRadioValue T] [LawfulRadioValue T]
    (radioParam : RadioParam) (outcome : Outcome) (value : T) :
    (getValue T radioParam).2 outcome = .ok value ↔ ∃ call bytes rest,
      setValue radioParam value = .ok call ∧ bytes.length = 2 ∧
        call.1.data = (getValue T radioParam).1.data ++ bytes ∧
        outcome = .ok ([0, 0] ++ bytes ++ rest) := by
  constructor
  · intro h
    obtain ⟨data, hdata, hvalue⟩ := exists_of_bind_ok h
    rw [checkAnswer_eq_ok] at hdata
    have hlen : ¬ data.length < 2 := by
      intro hshort
      rw [if_pos hshort] at hvalue
      cases hvalue
    rw [if_neg hlen] at hvalue
    have htwo : (data.take 2).length = 2 := by
      rw [List.length_take]
      omega
    have hset := (LawfulRadioValue.inverse _ _).mp hvalue
    refine ⟨(⟨.radioSetValue, toBeBytes 2 radioParam.number.toNat ++
      toBeBytes 2 (getU16Be data).toNat⟩, onlyChecked 0), data.take 2, data.drop 2, ?_, htwo,
        ?_, ?_⟩
    · rw [setValue, hset]
      rfl
    · change _ ++ toBeBytes 2 (getU16Be data).toNat = _ ++ data.take 2
      have hlt := ofBeBytes_lt (data.take 2)
      rw [htwo] at hlt
      rw [getU16Be, UInt16.toNat_ofNat_of_lt' hlt, toBeBytes_ofBeBytes htwo]
      rfl
    · rw [List.append_assoc, List.take_append_drop]
      exact hdata
  · rintro ⟨call, bytes, rest, hset, hlen, hdata, rfl⟩
    obtain ⟨word, hword, hcall⟩ := exists_of_bind_ok hset
    cases hcall
    have hbytes : toBeBytes 2 word.toNat = bytes := List.append_cancel_left hdata
    have hchecked : checkAnswer 0 (.ok ([0, 0] ++ bytes ++ rest)) = .ok (bytes ++ rest) := by
      rw [checkAnswer_eq_ok, List.append_assoc]
      rfl
    change (checkAnswer 0 _ >>= _) = _
    rw [hchecked]
    change (if (bytes ++ rest).length < 2 then _ else _) = _
    rw [if_neg (by rw [List.length_append]; omega), getU16Be, List.take_left' hlen, ← hbytes,
      ofBeBytes_toBeBytes 2 _ word.toNat_lt, UInt16.ofNat_toNat]
    exact (LawfulRadioValue.inverse _ _).mpr hword

theorem getValue_eq_ok_iff_rxMode :
    (getValue RadioRxMode .rxMode).2 (.ok [0, 0, 0, 3]) = .ok ⟨true, true, false⟩ ∧
      ∃ call bytes rest, setValue RadioParam.rxMode (RadioRxMode.mk true true false) = .ok call ∧
        bytes.length = 2 ∧
        call.1.data = (getValue RadioRxMode .rxMode).1.data ++ bytes ∧
        (.ok [0, 0, 0, 3] : Outcome) = .ok ([0, 0] ++ bytes ++ rest) := by
  have hget : (getValue RadioRxMode .rxMode).2 (.ok [0, 0, 0, 3]) = .ok ⟨true, true, false⟩ := by
    decide
  exact ⟨hget, (getValue_eq_ok_iff .rxMode _ _).mp hget⟩

/-! The start of the service, and the end of a frame. -/

theorem onlyChecked_eq_ok {expected : UInt16} {outcome : Outcome} :
    onlyChecked expected outcome = .ok () ↔
      ∃ rest, outcome = .ok (toBeBytes 2 expected.toNat ++ rest) := by
  constructor
  · intro h
    obtain ⟨rest, hrest, -⟩ := exists_of_bind_ok h
    exact ⟨rest, checkAnswer_eq_ok.mp hrest⟩
  · rintro ⟨rest, h⟩
    rw [onlyChecked, checkAnswer_eq_ok.mpr h]
    rfl

theorem getObject_eq_ok {radioParam : RadioParam} {size : Nat} {outcome : Outcome}
    {data : List UInt8} : (getObject radioParam size).2 outcome = .ok data ↔
      outcome = .ok ([0, 0] ++ data) ∧ size ≤ data.length := by
  constructor
  · intro h
    obtain ⟨rest, hrest, hdata⟩ := exists_of_bind_ok h
    split_ifs at hdata with hsize
    obtain rfl := Except.ok.inj hdata
    exact ⟨checkAnswer_eq_ok.mp hrest, Nat.le_of_not_lt hsize⟩
  · rintro ⟨h, hsize⟩
    have hchecked : checkAnswer 0 outcome = .ok data := checkAnswer_eq_ok.mpr h
    change (checkAnswer 0 outcome >>= _) = _
    rw [hchecked]
    exact if_neg (Nat.not_lt_of_le hsize)

/-- The address is in the eight bytes behind a zero word, the highest first. -/
theorem getLongAddress_eq_ok {outcome : Outcome} {address : UInt64} :
    getLongAddress.2 outcome = .ok address ↔
      ∃ rest, outcome = .ok ([0, 0] ++ (toBeBytes 8 address.toNat ++ rest)) := by
  constructor
  · intro h
    obtain ⟨data, hdata, haddress⟩ := exists_of_bind_ok h
    obtain ⟨houtcome, hsize⟩ := getObject_eq_ok.mp hdata
    have height : (data.take 8).length = 8 := by
      rw [List.length_take]
      exact Nat.min_eq_left hsize
    have hlt := ofBeBytes_lt (data.take 8)
    rw [height] at hlt
    have hvalue : address.toNat = ofBeBytes (data.take 8) := by
      rw [← Except.ok.inj haddress]
      exact UInt64.toNat_ofNat_of_lt' hlt
    refine ⟨data.drop 8, ?_⟩
    rw [hvalue, toBeBytes_ofBeBytes height, List.take_append_drop]
    exact houtcome
  · rintro ⟨rest, h⟩
    have hlen : (toBeBytes 8 address.toNat).length = 8 := toBeBytes_length 8 _
    have hdata : (getObject .longAddress 8).2 outcome = .ok _ :=
      getObject_eq_ok.mpr ⟨h, by rw [List.length_append]; omega⟩
    change ((getObject .longAddress 8).2 outcome >>= _) = _
    rw [hdata]
    change Except.ok (UInt64.ofNat (ofBeBytes (List.take 8 _))) = _
    rw [List.take_left' hlen, ofBeBytes_toBeBytes 8 _ address.toNat_lt, UInt64.ofNat_toNat]

def setUp (maxPower channel : UInt16) (shortAddress : ShortAddress) (panId : PANID) :
    List (Except CallError (Typed Unit)) :=
  [setValue .txPower maxPower, setValue .channel channel,
    setValue .shortAddress shortAddress.value, setValue .panId panId.value,
    setValue .rxMode (RadioRxMode.mk true true false), .ok initPendingDataTable]

def joined : List (Except CallError (Typed Unit)) → List Outcome → Bool
  | [], [] => true
  | .ok call :: calls, outcome :: outcomes => (call.2 outcome).isOk && joined calls outcomes
  | _, _ => false

structure StartAnswers where
  maxPower : Outcome
  setUp : List Outcome
  on : Outcome
  longAddress : Outcome

/- `Service::new` up to its last step; `none` for any of the errors. -/
def start (channel : UInt16) (shortAddress : ShortAddress) (panId : PANID)
    (answers : StartAnswers) : Option (Except Panic Mac.Service) := do
  let maxPower ← ((getValue UInt16 .txPowerMax).2 answers.maxPower).toOption
  if joined (setUp maxPower channel shortAddress panId) answers.setUp then
    let () ← (on.2 answers.on).toOption
    let extendedAddress ← (getLongAddress.2 answers.longAddress).toOption
    return Mac.Service.new ⟨extendedAddress⟩ shortAddress panId
  else none

theorem toOption_eq_some {ε α : Type} {x : Except ε α} {a : α} :
    x.toOption = some a ↔ x = .ok a := by
  cases x with
  | error e => exact iff_of_false nofun nofun
  | ok b => exact Option.some_inj.trans (Except.ok.injEq b a).symm.to_iff

def Accepted (outcome : Outcome) : Prop := ∃ rest, outcome = .ok ([0, 0] ++ rest)

theorem joined_iff {calls : List (Except CallError (Typed Unit))} {outcomes : List Outcome}
    (h : ∀ call ∈ calls, ∃ request, call = .ok (request, onlyChecked 0)) :
    joined calls outcomes = true ↔
      outcomes.length = calls.length ∧ ∀ outcome ∈ outcomes, Accepted outcome := by
  induction calls generalizing outcomes with
  | nil =>
    cases outcomes with
    | nil => simp [joined]
    | cons outcome outcomes => simp [joined]
  | cons call calls ih =>
    obtain ⟨⟨request, rfl⟩, hcalls⟩ := List.forall_mem_cons.mp h
    cases outcomes with
    | nil => simp [joined]
    | cons outcome outcomes =>
      have hok : (onlyChecked 0 outcome).isOk = true ↔ Accepted outcome := by
        have hchecked : onlyChecked 0 outcome = .ok () ↔ Accepted outcome := onlyChecked_eq_ok
        rw [← hchecked]
        cases onlyChecked 0 outcome with
        | error e => exact iff_of_false nofun nofun
        | ok u => exact iff_of_true rfl rfl
      rw [joined, Bool.and_eq_true, hok, ih hcalls, List.length_cons, List.length_cons,
        Nat.add_right_cancel_iff, List.forall_mem_cons]
      exact and_left_comm

/-- The service starts with the address that the radio tells, if there is a power to set, each of
the six calls that set the radio up is accepted and the radio says that it is on. -/
theorem start_eq_some_iff {channel : UInt16} {shortAddress : ShortAddress} {panId : PANID}
    {answers : StartAnswers} {service : Except Panic Mac.Service} :
    start channel shortAddress panId answers = some service ↔
      (∃ maxPower : UInt16, (getValue UInt16 .txPowerMax).2 answers.maxPower = .ok maxPower) ∧
      (answers.setUp.length = 6 ∧ ∀ outcome ∈ answers.setUp, Accepted outcome) ∧
      (∃ rest, answers.on = .ok ([0, 1] ++ rest)) ∧
      ∃ e rest, answers.longAddress = .ok ([0, 0] ++ (toBeBytes 8 e.toNat ++ rest)) ∧
        service = Mac.Service.new ⟨e⟩ shortAddress panId := by
  have hjoined (maxPower : UInt16) :
      joined (setUp maxPower channel shortAddress panId) answers.setUp = true ↔ _ :=
    joined_iff fun call hcall => by
      simp only [setUp, List.mem_cons, List.not_mem_nil, or_false] at hcall
      obtain rfl | rfl | rfl | rfl | rfl | rfl := hcall <;> exact ⟨_, rfl⟩
  have hon : on.2 answers.on = .ok () ↔ ∃ rest, answers.on = .ok ([0, 1] ++ rest) :=
    onlyChecked_eq_ok
  unfold start
  constructor
  · intro h
    obtain ⟨maxPower, hmax, h⟩ := Option.bind_eq_some_iff.mp h
    split_ifs at h with hset
    obtain ⟨⟨⟩, hok, h⟩ := Option.bind_eq_some_iff.mp h
    obtain ⟨e, haddress, h⟩ := Option.bind_eq_some_iff.mp h
    rw [toOption_eq_some] at hmax hok haddress
    obtain ⟨rest, hrest⟩ := getLongAddress_eq_ok.mp haddress
    exact ⟨⟨maxPower, hmax⟩, (hjoined maxPower).mp hset, hon.mp hok, e, rest, hrest,
      (Option.some.inj h).symm⟩
  · rintro ⟨⟨maxPower, hmax⟩, hset, hok, e, rest, hrest, rfl⟩
    rw [hmax, hon.mpr hok, getLongAddress_eq_ok.mpr ⟨rest, hrest⟩]
    change (if _ then _ else _) = _
    rw [if_pos ((hjoined maxPower).mpr hset)]
    rfl

def Inflight.result (future : Mac.Inflight) (outcome : Outcome) : Bool :=
  match future with
  | .failed _ => false
  | .sending packet => ((send packet).2 outcome).isOk

/-- A future is ready with what runs of the service take it to be ready with: a frame that could not
be written has failed, and the radio may answer either way for any other. -/
theorem mayYield_iff (future : Mac.Inflight) (success : Bool) :
    Mac.Service.mayYield (some future) success ↔
      ∃ outcome, Inflight.result future outcome = success := by
  cases future with
  | failed e => cases success <;> simp [Mac.Service.mayYield, Inflight.result]
  | sending packet =>
    refine iff_of_true rfl ?_
    cases success with
    | true => exact ⟨.ok [0, 0], rfl⟩
    | false => exact ⟨.error .oneshotError, rfl⟩

/-! No two changes of a slot are sent as the same bytes. -/

theorem optional_inj {T : Type} {f : T → List UInt8} (hf : Function.Injective f)
    (hne : ∀ x, f x ≠ []) {a b : Option T} (h : (a.map f).getD [] = (b.map f).getD []) : a = b := by
  cases a with
  | none =>
    cases b with
    | none => rfl
    | some y => exact absurd h.symm (hne y)
  | some x =>
    cases b with
    | none => exact absurd h (hne x)
    | some y => rw [hf h]

theorem extended_bytes_inj : Function.Injective fun x : UInt64 => toLeBytes 8 x.toNat := by
  intro x y h
  have hnat := congrArg ofLeBytes h
  simp only [ofLeBytes_toLeBytes 8 _ x.toNat_lt, ofLeBytes_toLeBytes 8 _ y.toNat_lt] at hnat
  exact UInt64.toNat_inj.mp hnat

theorem short_bytes_inj : Function.Injective fun x : UInt16 × UInt16 =>
    toLeBytes 2 x.1.toNat ++ toLeBytes 2 x.2.toNat := by
  intro x y h
  obtain ⟨hfirst, hsecond⟩ := List.append_inj h (by simp)
  have hnat := congrArg ofLeBytes hfirst
  have hnat' := congrArg ofLeBytes hsecond
  rw [ofLeBytes_toLeBytes 2 _ x.1.toNat_lt, ofLeBytes_toLeBytes 2 _ y.1.toNat_lt] at hnat
  rw [ofLeBytes_toLeBytes 2 _ x.2.toNat_lt, ofLeBytes_toLeBytes 2 _ y.2.toNat_lt] at hnat'
  exact Prod.ext (UInt16.toNat_inj.mp hnat) (UInt16.toNat_inj.mp hnat')

theorem slot_bytes : ∀ slot : Fin 128, (0x80 ||| UInt8.ofNat slot).toNat = 128 + slot ∧
    (0x7F &&& UInt8.ofNat slot).toNat = slot := by decide

section Slots
variable {slot slot' : Nat} (hslot : slot < 128) (hslot' : slot' < 128)
include hslot hslot'

theorem short_slot_inj {address address' : Option (UInt16 × UInt16)}
    (h : (setPendingDataShort slot address).1.data = (setPendingDataShort slot' address').1.data) :
    slot = slot' ∧ address = address' := by
  obtain ⟨hbyte, hrest⟩ := List.cons.inj h
  refine ⟨?_, optional_inj short_bytes_inj (by simp [toLeBytes]) hrest⟩
  have hnat := (slot_bytes ⟨slot, hslot⟩).2
  have hnat' := (slot_bytes ⟨slot', hslot'⟩).2
  exact hnat.symm.trans ((congrArg UInt8.toNat hbyte).trans hnat')

theorem extended_slot_inj {address address' : Option UInt64}
    (h : (setPendingDataExt slot address).1.data = (setPendingDataExt slot' address').1.data) :
    slot = slot' ∧ address = address' := by
  obtain ⟨hbyte, hrest⟩ := List.cons.inj h
  refine ⟨?_, optional_inj extended_bytes_inj (by simp [toLeBytes]) hrest⟩
  have hnat := (slot_bytes ⟨slot, hslot⟩).1
  have hnat' := (slot_bytes ⟨slot', hslot'⟩).1
  exact Nat.add_left_cancel (hnat.symm.trans ((congrArg UInt8.toNat hbyte).trans hnat'))

theorem short_ne_extended (address : Option (UInt16 × UInt16)) (address' : Option UInt64) :
    (setPendingDataShort slot address).1.data ≠ (setPendingDataExt slot' address').1.data := by
  intro h
  obtain ⟨hbyte, -⟩ := List.cons.inj h
  have hnat : _ = slot := (slot_bytes ⟨slot, hslot⟩).2
  have hnat' : _ = 128 + slot' := (slot_bytes ⟨slot', hslot'⟩).1
  have hsame := hnat.symm.trans ((congrArg UInt8.toNat hbyte).trans hnat')
  omega

end Slots

theorem short_value_inj :
    Function.Injective fun a : PANID × ShortAddress => (a.1.value, a.2.value) := by
  rintro ⟨⟨_⟩, ⟨_⟩⟩ ⟨⟨_⟩, ⟨_⟩⟩ heq
  cases heq
  rfl

theorem extended_value_inj : Function.Injective ExtendedAddress.value := by
  rintro ⟨_⟩ ⟨_⟩ heq
  cases heq
  rfl

def slotOf : MRUAddressSetAction → Nat
  | .none => 0
  | .setShortSlot slot _ => slot
  | .setExtendedSlot slot _ => slot

/-- Changes of the first 128 slots are sent as the same bytes only if they set the same slot of the
same table to the same address. -/
theorem slot_changes_distinct {a b : MRUAddressSetAction} (ha : slotOf a < 128)
    (hb : slotOf b < 128) : ((handleMruAddressSetAction a).map fun call => call.1.data) =
      ((handleMruAddressSetAction b).map fun call => call.1.data) ↔ a = b := by
  refine ⟨fun h => ?_, fun h => by rw [h]⟩
  cases a with
  | none =>
    cases b with
    | none => rfl
    | setShortSlot slot address => cases h
    | setExtendedSlot slot address => cases h
  | setShortSlot slot address =>
    cases b with
    | none => cases h
    | setShortSlot slot' address' =>
      have hsame : slot = slot' ∧ _ := short_slot_inj ha hb (Option.some.inj h)
      rw [hsame.1, Option.map_injective short_value_inj hsame.2]
    | setExtendedSlot slot' address' =>
      exact absurd (Option.some.inj h) (short_ne_extended ha hb _ _)
  | setExtendedSlot slot address =>
    cases b with
    | none => cases h
    | setShortSlot slot' address' =>
      exact absurd (Option.some.inj h).symm (short_ne_extended hb ha _ _)
    | setExtendedSlot slot' address' =>
      have hsame : slot = slot' ∧ _ := extended_slot_inj ha hb (Option.some.inj h)
      rw [hsame.1, Option.map_injective extended_value_inj hsame.2]

theorem slot_changes_distinct_slots :
    ¬ ((handleMruAddressSetAction (.setShortSlot 3 none)).map fun call => call.1.data) =
      ((handleMruAddressSetAction (.setExtendedSlot 3 none)).map fun call => call.1.data) := by
  rw [slot_changes_distinct (by decide) (by decide)]
  decide

end ZigbeeStack.OldSrc.RadioBridge
