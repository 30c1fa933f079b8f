import ZigbeeStack.MacService
import ZigbeeStack.RawRadio

/-! The radio driver: requests, the raw messages they become, and the parser that makes a response
of what the radio answers. -/
namespace ZigbeeStack

/- `RawRadioParam` numbers its variants from zero. -/
def RadioParam.number : RadioParam → Nat
  | .powerMode => 0
  | .channel => 1
  | .panId => 2
  | .shortAddress => 3
  | .rxMode => 4
  | .txMode => 5
  | .txPower => 6
  | .ccaThreshold => 7
  | .rssi => 8
  | .lastRssi => 9
  | .lastLinkQuality => 10
  | .longAddress => 11
  | .lastPacketTimestamp => 12
  | .channelMin => 13
  | .channelMax => 14
  | .txPowerMin => 15
  | .txPowerMax => 16

namespace Radio
open Bits

inductive RadioParamType where
  | u16 | u32 | u64
deriving DecidableEq, Repr

inductive RadioError where
  | rawError (data : List UInt8)
  | unexpectedRetvalError (retval : UInt16) (data : List UInt8)
  | unexpectedResponse
  | unexpectedResponseSize
deriving DecidableEq, Repr

def tryFrom (paramType : RadioParamType) (data : List UInt8) : Except RadioError RadioParamValue :=
  match paramType with
  | .u16 =>
    if data.length = 2 then .ok (.u16 (.ofNat (ofBeBytes data)))
    else .error .unexpectedResponseSize
  | .u32 =>
    if data.length = 4 then .ok (.u32 (.ofNat (ofBeBytes data)))
    else .error .unexpectedResponseSize
  | .u64 =>
    if data.length = 8 then .ok (.u64 (.ofNat (ofBeBytes data)))
    else .error .unexpectedResponseSize

inductive RadioRequest where
  | setParam (token : UniqueKey) (param : RadioParam) (value : RadioParamValue)
  | getParam (token : UniqueKey) (param : RadioParam) (paramType : RadioParamType)
  | initPendingDataTable (token : UniqueKey)
  | setPower (token : UniqueKey) (power : Bool)
  | sendPacket (token : UniqueKey) (packet : List UInt8)
  | setPendingShort (token : UniqueKey) (index : Nat) (address : Option (UInt16 × UInt16))
  | setPendingExtended (token : UniqueKey) (index : Nat) (address : Option UInt64)
deriving DecidableEq, Repr

inductive RadioResponse where
  | setParam (token : UniqueKey) (param : RadioParam) (result : Except RadioError RadioParamValue)
  | getParam (token : UniqueKey) (param : RadioParam) (result : Except RadioError RadioParamValue)
  | initPendingDataTable (token : UniqueKey) (result : Except RadioError Unit)
  | setPower (token : UniqueKey) (power : Bool) (result : Except RadioError Unit)
  | sendPacket (token : UniqueKey) (result : Except RadioError Unit)
  | onPacket (packet : RadioPacket)
  | setPendingShort (token : UniqueKey) (result : Except RadioError Unit)
  | setPendingExtended (token : UniqueKey) (result : Except RadioError Unit)

abbrev Answered := Except RadioError (List UInt8)

abbrev RadioResponseParser := Answered → RadioResponse

def checkRetval (expectedRetval : UInt16) (data : List UInt8) : Except RadioError (List UInt8) :=
  if data.length < 2 then .error .unexpectedResponseSize
  else
    let retval := UInt16.ofNat (ofBeBytes (data.take 2))
    if retval ≠ expectedRetval then .error (.unexpectedRetvalError retval (data.drop 2))
    else .ok (data.drop 2)

def unpackResultGetParam (paramType : RadioParamType) (response : Answered) :
    Except RadioError RadioParamValue := do
  let data ← response
  let data ← checkRetval 0 data
  tryFrom paramType data

def unpackResultSetParam (setValue : RadioParamValue) (response : Answered) :
    Except RadioError RadioParamValue := do
  let data ← response
  let data ← checkRetval 0 data
  if data.isEmpty then return setValue else .error .unexpectedResponse

def unpackResultOnlyRetval (expectedRetval : UInt16) (response : Answered) :
    Except RadioError Unit := do
  let data ← response
  let data ← checkRetval expectedRetval data
  if data.isEmpty then return () else .error .unexpectedResponse

def valueBytes : RadioParamValue → List UInt8
  | .u16 v => toBeBytes 2 v.toNat
  | .u32 v => toBeBytes 4 v.toNat
  | .u64 v => toBeBytes 8 v.toNat

/-- The command, its data, and the parser of the answer. -/
def RadioRequest.intoRaw : RadioRequest → RawRadioCommand × List UInt8 × RadioResponseParser
  | .setParam token param value =>
    (match value with
      | .u16 _ => .setValue
      | _ => .setObject,
      toBeBytes 2 param.number ++ valueBytes value,
      fun response => .setParam token param (unpackResultSetParam value response))
  | .getParam token param paramType =>
    (match paramType with
      | .u16 => .getValue
      | _ => .getObject,
      toBeBytes 2 param.number ++
        match paramType with
        | .u16 => []
        | .u32 => toBeBytes 2 4
        | .u64 => toBeBytes 2 8,
      fun response => .getParam token param (unpackResultGetParam paramType response))
  | .initPendingDataTable token =>
    (.initPendingTable, [],
      fun response => .initPendingDataTable token (unpackResultOnlyRetval 0 response))
  | .setPower token power =>
    (if power then .on else .off, [],
      fun response => .setPower token power (unpackResultOnlyRetval 1 response))
  | .sendPacket token packet =>
    (.send, packet, fun response => .sendPacket token (unpackResultOnlyRetval 0 response))
  | .setPendingShort token index address =>
    (.setPending,
      (UInt8.ofNat index &&& 0x7F) ::
        match address with
        | some (panId, shortAddress) => toLeBytes 2 panId.toNat ++ toLeBytes 2 shortAddress.toNat
        | none => [],
      fun response => .setPendingShort token (unpackResultOnlyRetval 0 response))
  | .setPendingExtended token index address =>
    (.setPending,
      (UInt8.ofNat index ||| 0x80) ::
        match address with
        | some address => toLeBytes 8 address.toNat
        | none => [],
      fun response => .setPendingExtended token (unpackResultOnlyRetval 0 response))

/-- A response that is for the request: of its variant and with its key. -/
def Answers : RadioRequest → RadioResponse → Prop
  | .setParam token _ _, .setParam token' _ _ => token' = token
  | .getParam token _ _, .getParam token' _ _ => token' = token
  | .initPendingDataTable token, .initPendingDataTable token' _ => token' = token
  | .setPower token _, .setPower token' _ _ => token' = token
  | .sendPacket token _, .sendPacket token' _ => token' = token
  | .setPendingShort token _ _, .setPendingShort token' _ => token' = token
  | .setPendingExtended token _ _, .setPendingExtended token' _ => token' = token
  | _, _ => False

theorem RadioRequest.parser_answers (request : RadioRequest) (answer : Answered) :
    Answers request (request.intoRaw.2.2 answer) := by
  cases request <;> rfl

end Radio
end ZigbeeStack
