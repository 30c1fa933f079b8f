import ZigbeeStack.Frame
import ZigbeeStack.Runtime

/-! The PIB: the MAC's attributes, their typed values, and the two sequence counters. -/
namespace ZigbeeStack

inductive ServiceError where
  | channelAccessFailure
  | frameTooLong
  | readOnly
  | unsupportedAttribute
  | invalidIndex
  | invalidParameter
  | invalidHandle
  | noShortAddress
  | transactionExpired
  | noAck
deriving DecidableEq, Repr

inductive PIBProperty where
  | macExtendedAddress
  | macAssociatedPanCoord
  | macAssociationPermit
  | macBeaconPayload
  | macBsn
  | macDsn
  | macPanId
  | macShortAddress
  | macBeaconAutoRespond
  | macTransactionPersistenceTime
  | macMaxFrameRetries
  | phyCurrentChannel
  | phyMaxTxPower
  | phyTxPower
deriving DecidableEq, Repr

inductive PIBValue where
  | bool (value : Bool)
  | u8 (value : UInt8)
  | u16 (value : UInt16)
  | blob (value : List UInt8)
  | duration (value : Duration)
  | shortAddress (value : ShortAddress)
  | extendedAddress (value : ExtendedAddress)
  | panId (value : PANID)
  | pair (first second : PIBValue)
  | empty
deriving DecidableEq, Repr

structure PIB where
  macExtendedAddress : ExtendedAddress
  macAssociatedPanCoord : Option (ExtendedAddress × ShortAddress)
  macAssociationPermit : Bool
  macBeaconPayload : List UInt8
  macBsn : UInt8
  macDsn : UInt8
  macPanId : PANID
  macShortAddress : ShortAddress
  macBeaconAutoRespond : Bool
  macTransactionPersistenceTime : Duration
  macMaxFrameRetries : UInt16
  phyCurrentChannel : UInt16
  phyMaxTxPower : UInt16
  phyTxPower : UInt16
deriving DecidableEq, Repr

namespace PIB

/-- `bsn` and `dsn` are the two random numbers that `new` draws. -/
def new (extendedAddress : ExtendedAddress) (phyCurrentChannel phyMaxTxPower : UInt16)
    (bsn dsn : UInt8) : PIB where
  macExtendedAddress := extendedAddress
  macAssociatedPanCoord := none
  macAssociationPermit := false
  macBeaconPayload := []
  macBsn := bsn
  macDsn := dsn
  macPanId := ⟨0xFFFF⟩
  macShortAddress := ⟨0xFFFF⟩
  macBeaconAutoRespond := false
  macTransactionPersistenceTime := Duration.fromSecs (5 * 60)
  macMaxFrameRetries := 3
  phyCurrentChannel := phyCurrentChannel
  phyMaxTxPower := phyMaxTxPower
  phyTxPower := phyMaxTxPower

def reset (self : PIB) (bsn dsn : UInt8) : PIB :=
  new self.macExtendedAddress self.phyCurrentChannel self.phyTxPower bsn dsn

def get (self : PIB) (param : PIBProperty) : Except Unit PIBValue :=
  match param with
  | .macExtendedAddress => .ok (.extendedAddress self.macExtendedAddress)
  | .macAssociatedPanCoord => .ok (match self.macAssociatedPanCoord with
    | some (extended, short) => .pair (.extendedAddress extended) (.shortAddress short)
    | none => .empty)
  | .macAssociationPermit => .ok (.bool self.macAssociationPermit)
  | .macBeaconPayload => .ok (.blob self.macBeaconPayload)
  | .macBsn => .ok (.u8 self.macBsn)
  | .macDsn => .ok (.u8 self.macDsn)
  | .macPanId => .ok (.panId self.macPanId)
  | .macShortAddress => .ok (.shortAddress self.macShortAddress)
  | .macBeaconAutoRespond => .ok (.bool self.macBeaconAutoRespond)
  | .macTransactionPersistenceTime => .ok (.duration self.macTransactionPersistenceTime)
  | .phyCurrentChannel => .ok (.u16 self.phyCurrentChannel)
  | .phyMaxTxPower => .ok (.u16 self.phyMaxTxPower)
  | .phyTxPower => .ok (.u16 self.phyTxPower)
  | .macMaxFrameRetries => .error ()

/- The value must have the attribute's own type; the attribute is untouched otherwise. -/
def set (self : PIB) (param : PIBProperty) (value : PIBValue) : PIB × Except ServiceError Unit :=
  match param, value with
  | .macExtendedAddress, _ => (self, .error .readOnly)
  | .macAssociationPermit, .bool x => ({ self with macAssociationPermit := x }, .ok ())
  | .macBeaconPayload, .blob x => ({ self with macBeaconPayload := x }, .ok ())
  | .macBsn, .u8 x => ({ self with macBsn := x }, .ok ())
  | .macDsn, .u8 x => ({ self with macDsn := x }, .ok ())
  | .macPanId, .panId x => ({ self with macPanId := x }, .ok ())
  | .macShortAddress, .shortAddress x => ({ self with macShortAddress := x }, .ok ())
  | .macBeaconAutoRespond, .bool x => ({ self with macBeaconAutoRespond := x }, .ok ())
  | .macTransactionPersistenceTime, .duration x =>
    ({ self with macTransactionPersistenceTime := x }, .ok ())
  | .phyCurrentChannel, .u16 x => ({ self with phyCurrentChannel := x }, .ok ())
  | .phyMaxTxPower, .u16 x => ({ self with phyMaxTxPower := x }, .ok ())
  | .phyTxPower, .u16 x => ({ self with phyTxPower := x }, .ok ())
  | .macAssociatedPanCoord, _ | .macMaxFrameRetries, _ => (self, .error .unsupportedAttribute)
  | _, _ => (self, .error .invalidParameter)

def nextBeaconSequenceNr (self : PIB) : UInt8 × PIB :=
  (self.macBsn, { self with macBsn := self.macBsn + 1 })

def nextDataSequenceNr (self : PIB) : UInt8 × PIB :=
  (self.macDsn, { self with macDsn := self.macDsn + 1 })

def getFullShortAddress (self : PIB) : FullAddress where
  panId := self.macPanId
  address :=
    if self.macShortAddress ≠ ShortAddress.noneAssigned then .short self.macShortAddress
    else .extended self.macExtendedAddress

def getFullExtendedAddress (self : PIB) : FullAddress :=
  ⟨self.macPanId, .extended self.macExtendedAddress⟩

end PIB
end ZigbeeStack
