import ZigbeeStack.MacRuns
import ZigbeeStack.PendingMirror
import ZigbeeStack.StartUp

/-! What the requests of the MAC are to the radio: the messages that they become, the registers and
tables that these change, and what an answer tells the MAC. -/
namespace ZigbeeStack
open Bits

def RadioParam.all : List RadioParam :=
  [.powerMode, .channel, .panId, .shortAddress, .rxMode, .txMode, .txPower, .ccaThreshold,
    .rssi, .lastRssi, .lastLinkQuality, .longAddress, .lastPacketTimestamp, .channelMin,
    .channelMax, .txPowerMin, .txPowerMax]

def RadioParam.ofNumber (n : Nat) : Option RadioParam :=
  RadioParam.all.find? fun param => decide (param.number = n)

theorem RadioParam.ofNumber_number (param : RadioParam) :
    RadioParam.ofNumber param.number = some param := by
  cases param <;> rfl

theorem RadioParam.number_lt (param : RadioParam) : param.number < 17 := by
  cases param <;> decide

inductive RadioCommand where
  | setParam (param : RadioParam) (value : RadioParamValue)
  | initTables
  | setShort (index : Fin 8) (value : Option (PANID × ShortAddress))
  | setExtended (index : Fin 8) (value : Option ExtendedAddress)
deriving DecidableEq, Repr

structure RadioState where
  params : RadioParam → RadioParamValue
  tables : RadioTables

/-- What a command does to the radio. One that fails leaves anything where it was to write. -/
def RadioState.run (self : RadioState) (success : Bool) (garbage : RadioState) :
    RadioCommand → RadioState
  | .setParam param value =>
    { self with
      params := Function.update self.params param
        (if success then value else garbage.params param) }
  | .initTables => { self with tables := if success then .empty else garbage.tables }
  | .setShort index value =>
    { self with
      tables := { self.tables with
        short := Function.update self.tables.short index
          (if success then value else garbage.tables.short index) } }
  | .setExtended index value =>
    { self with
      tables := { self.tables with
        extended := Function.update self.tables.extended index
          (if success then value else garbage.tables.extended index) } }

namespace Radio

def valueOf (bytes : List UInt8) : Option RadioParamValue :=
  match bytes.length with
  | 2 => (tryFrom .u16 bytes).toOption
  | 4 => (tryFrom .u32 bytes).toOption
  | 8 => (tryFrom .u64 bytes).toOption
  | _ => none

def indexOf (n : Nat) : Option (Fin 8) := if h : n < 8 then some ⟨n, h⟩ else none

def shortOf : List UInt8 → Option (Option (PANID × ShortAddress))
  | [] => some none
  | [a, b, c, d] => some (some (⟨.ofNat (ofLeBytes [a, b])⟩, ⟨.ofNat (ofLeBytes [c, d])⟩))
  | _ => none

def extendedOf (bytes : List UInt8) : Option (Option ExtendedAddress) :=
  match bytes.length with
  | 0 => some none
  | 8 => some (some ⟨.ofNat (ofLeBytes bytes)⟩)
  | _ => none

/-- What a message asks the radio to change. The top bit of the index of a slot says which of the
two tables it is in. -/
def commandOf (commandId : RawRadioCommand) (data : List UInt8) : Option RadioCommand :=
  match commandId with
  | .setValue | .setObject => do
    let param ← RadioParam.ofNumber (ofBeBytes (data.take 2))
    let value ← valueOf (data.drop 2)
    return .setParam param value
  | .initPendingTable => some .initTables
  | .setPending =>
    match data with
    | [] => none
    | flag :: bytes =>
      if flag < 0x80 then do
        let index ← indexOf flag.toNat
        let value ← shortOf bytes
        return .setShort index value
      else do
        let index ← indexOf (flag.toNat - 0x80)
        let value ← extendedOf bytes
        return .setExtended index value
  | _ => none

def RadioRequest.command (request : RadioRequest) : Option RadioCommand :=
  commandOf request.intoRaw.1 request.intoRaw.2.1

theorem valueOf_valueBytes (value : RadioParamValue) : valueOf (valueBytes value) = some value := by
  have htry := value.tryFrom_valueBytes
  cases value with
  | u16 x =>
    have hlen : (valueBytes (.u16 x)).length = 2 := toBeBytes_length 2 _
    simp only [valueOf, hlen]
    exact congrArg Except.toOption htry
  | u32 x =>
    have hlen : (valueBytes (.u32 x)).length = 4 := toBeBytes_length 4 _
    simp only [valueOf, hlen]
    exact congrArg Except.toOption htry
  | u64 x =>
    have hlen : (valueBytes (.u64 x)).length = 8 := toBeBytes_length 8 _
    simp only [valueOf, hlen]
    exact congrArg Except.toOption htry

theorem command_setParam (token : UniqueKey) (param : RadioParam) (value : RadioParamValue) :
    (RadioRequest.setParam token param value).command = some (.setParam param value) := by
  have hnumber : ofBeBytes ((toBeBytes 2 param.number ++ valueBytes value).take 2) =
      param.number := by
    rw [List.take_left' (toBeBytes_length 2 _), ofBeBytes_toBeBytes]
    exact param.number_lt.trans (by decide)
  have hvalue : (toBeBytes 2 param.number ++ valueBytes value).drop 2 = valueBytes value :=
    List.drop_left' (toBeBytes_length 2 _)
  have hdata : ∀ commandId, commandId = .setValue ∨ commandId = .setObject →
      commandOf commandId (toBeBytes 2 param.number ++ valueBytes value) =
        some (.setParam param value) := by
    rintro _ (rfl | rfl)
    all_goals
      simp only [commandOf, hnumber, hvalue, RadioParam.ofNumber_number, valueOf_valueBytes]
      rfl
  cases value with
  | u16 x => exact hdata .setValue (.inl rfl)
  | u32 x | u64 x => exact hdata .setObject (.inr rfl)

theorem flag_short (index : Fin 8) :
    (UInt8.ofNat index &&& 0x7F) < 0x80 ∧ (UInt8.ofNat index &&& 0x7F).toNat = index := by
  revert index
  decide

theorem flag_extended (index : Fin 8) :
    ¬ (UInt8.ofNat index ||| 0x80) < 0x80 ∧
      (UInt8.ofNat index ||| 0x80).toNat - 0x80 = index := by
  revert index
  decide

theorem indexOf_fin (index : Fin 8) : indexOf index = some index := by
  rw [indexOf, dif_pos index.isLt]

theorem toLeBytes_two (x : UInt16) : ∃ a b, toLeBytes 2 x.toNat = [a, b] ∧
    UInt16.ofNat (ofLeBytes [a, b]) = x := by
  refine ⟨_, _, rfl, ?_⟩
  change UInt16.ofNat (ofLeBytes (toLeBytes 2 x.toNat)) = x
  rw [ofLeBytes_toLeBytes 2 _ x.toNat_lt, UInt16.ofNat_toNat]

theorem commandOf_short (index : Fin 8) {bytes : List UInt8}
    {value : Option (PANID × ShortAddress)} (h : shortOf bytes = some value) :
    commandOf .setPending ((UInt8.ofNat index &&& 0x7F) :: bytes) =
      some (.setShort index value) := by
  obtain ⟨hflag, hindex⟩ := flag_short index
  simp only [commandOf, if_pos hflag, hindex, indexOf_fin, h]
  rfl

theorem commandOf_extended (index : Fin 8) {bytes : List UInt8} {value : Option ExtendedAddress}
    (h : extendedOf bytes = some value) :
    commandOf .setPending ((UInt8.ofNat index ||| 0x80) :: bytes) =
      some (.setExtended index value) := by
  obtain ⟨hflag, hindex⟩ := flag_extended index
  simp only [commandOf, if_neg hflag, hindex, indexOf_fin, h]
  rfl

theorem command_setPendingShort (token : UniqueKey) (index : Fin 8)
    (address : Option (UInt16 × UInt16)) :
    (RadioRequest.setPendingShort token index address).command =
      some (.setShort index (address.map fun a => (⟨a.1⟩, ⟨a.2⟩))) := by
  cases address with
  | none => exact commandOf_short index rfl
  | some address =>
    obtain ⟨panId, shortAddress⟩ := address
    obtain ⟨a, b, hpan, hpanId⟩ := toLeBytes_two panId
    obtain ⟨c, d, hshort, hshortAddress⟩ := toLeBytes_two shortAddress
    refine commandOf_short index ?_
    change shortOf (toLeBytes 2 panId.toNat ++ toLeBytes 2 shortAddress.toNat) = _
    rw [hpan, hshort]
    change some (some (_, _)) = _
    rw [hpanId, hshortAddress]
    rfl

theorem command_setPendingExtended (token : UniqueKey) (index : Fin 8)
    (address : Option UInt64) :
    (RadioRequest.setPendingExtended token index address).command =
      some (.setExtended index (address.map fun a => ⟨a⟩)) := by
  cases address with
  | none => exact commandOf_extended index rfl
  | some address =>
    have hlen : (toLeBytes 8 address.toNat).length = 8 := toLeBytes_length 8 _
    refine commandOf_extended index ?_
    simp only [extendedOf, hlen]
    rw [ofLeBytes_toLeBytes 8 _ address.toNat_lt, UInt64.ofNat_toNat]
    rfl

end Radio

def RadioRequest.toDriver : RadioRequest → Radio.RadioRequest
  | .setParam key param value => .setParam key param value
  | .initPendingDataTable key => .initPendingDataTable key
  | .sendPacket key data => .sendPacket key data
  | .setPendingShort key index value => .setPendingShort key index value
  | .setPendingExtended key index value => .setPendingExtended key index value

def Radio.RadioResponse.toMac : Radio.RadioResponse → ZigbeeStack.RadioResponse
  | .setParam key param result => .setParam key param result.toBool
  | .getParam key param result => .getParam key param result.toBool
  | .initPendingDataTable key result => .initPendingDataTable key result.toBool
  | .setPower key power result => .setPower key power result.toBool
  | .sendPacket key result => .sendPacket key result.toBool
  | .onPacket packet => .onPacket packet
  | .setPendingShort key result => .setPendingShort key result.toBool
  | .setPendingExtended key result => .setPendingExtended key result.toBool

structure RadioOrder where
  key : UniqueKey
  command : RadioCommand
deriving DecidableEq, Repr

namespace Radio.RadioRequest

def order (request : Radio.RadioRequest) : Option RadioOrder :=
  request.command.map fun command => ⟨request.token, command⟩

def completion (success : Bool) : Radio.RadioRequest → Option (CommandKind × UniqueKey × Bool)
  | .setParam token _ _ => some (.setParam, token, success)
  | .initPendingDataTable token => some (.initPendingTable, token, success)
  | .sendPacket token _ => some (.sendPacket, token, success)
  | .setPendingShort token _ _ | .setPendingExtended token _ _ =>
    some (.setPending, token, success)
  | .getParam _ _ _ | .setPower _ _ => none

end Radio.RadioRequest

namespace Radio

/- A good answer to a command is a zero word. -/
def Good (answer : Answered) : Prop := answer = .ok [0, 0]

instance (answer : Answered) : Decidable (Good answer) :=
  match answer with
  | .ok data => decidable_of_iff (data = [0, 0]) (by simp [Good])
  | .error _ => .isFalse nofun

theorem toBool_iff {ε α : Type} (result : Except ε α) :
    result.toBool = true ↔ ∃ a, result = .ok a := by
  cases result <;> simp [Except.toBool]

theorem unpackResultOnlyRetval_good (answer : Answered) :
    (unpackResultOnlyRetval 0 answer).toBool = decide (Good answer) := by
  have hiff : (unpackResultOnlyRetval 0 answer).toBool = true ↔ Good answer := by
    rw [toBool_iff]
    constructor
    · rintro ⟨⟨⟩, hok⟩
      exact unpackResultOnlyRetval_eq_ok.mp hok
    · intro hgood
      exact ⟨(), unpackResultOnlyRetval_eq_ok.mpr hgood⟩
  simpa using Bool.eq_iff_iff.mpr (hiff.trans (decide_eq_true_iff (p := Good answer)).symm)

theorem unpackResultSetParam_good (value : RadioParamValue) (answer : Answered) :
    (unpackResultSetParam value answer).toBool = decide (Good answer) := by
  have hiff : (unpackResultSetParam value answer).toBool = true ↔ Good answer := by
    rw [toBool_iff]
    constructor
    · rintro ⟨value', hok⟩
      exact (unpackResultSetParam_eq_ok.mp hok).2
    · intro hgood
      exact ⟨value, unpackResultSetParam_eq_ok.mpr ⟨rfl, hgood⟩⟩
  simpa using Bool.eq_iff_iff.mpr (hiff.trans (decide_eq_true_iff (p := Good answer)).symm)

/-- The parser of a request tells the MAC whether the answer to it was good. -/
theorem parser_completion (request : RadioRequest) (answer : Answered) :
    (request.intoRaw.2.2 answer).toMac.completion = request.completion (decide (Good answer)) := by
  cases request with
  | setParam token param value =>
    exact congrArg (fun b => some (CommandKind.setParam, token, b))
      (unpackResultSetParam_good value answer)
  | getParam _ _ _ | setPower _ _ => rfl
  | initPendingDataTable token =>
    exact congrArg (fun b => some (CommandKind.initPendingTable, token, b))
      (unpackResultOnlyRetval_good answer)
  | sendPacket token packet =>
    exact congrArg (fun b => some (CommandKind.sendPacket, token, b))
      (unpackResultOnlyRetval_good answer)
  | setPendingShort token _ _ | setPendingExtended token _ _ =>
    exact congrArg (fun b => some (CommandKind.setPending, token, b))
      (unpackResultOnlyRetval_good answer)

end Radio

namespace RadioRequest

def order : RadioRequest → Option RadioOrder
  | .setParam key param value => some ⟨key, .setParam param value⟩
  | .initPendingDataTable key => some ⟨key, .initTables⟩
  | .sendPacket _ _ => none
  | .setPendingShort key index value =>
    some ⟨key, .setShort index (value.map fun a => (⟨a.1⟩, ⟨a.2⟩))⟩
  | .setPendingExtended key index value => some ⟨key, .setExtended index (value.map fun a => ⟨a⟩)⟩

/-- The bytes that a request becomes mean what the MAC asked for. -/
theorem toDriver_order (request : RadioRequest) : request.toDriver.order = request.order := by
  cases request with
  | setParam key param value =>
    exact congrArg (Option.map (RadioOrder.mk key)) (Radio.command_setParam key param value)
  | initPendingDataTable key => rfl
  | sendPacket key data => rfl
  | setPendingShort key index value =>
    exact congrArg (Option.map (RadioOrder.mk key)) (Radio.command_setPendingShort key index value)
  | setPendingExtended key index value =>
    exact congrArg (Option.map (RadioOrder.mk key))
      (Radio.command_setPendingExtended key index value)

end RadioRequest
end ZigbeeStack
