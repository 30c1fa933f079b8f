import ZigbeeStack.Pib

/-! The messages between the MAC and the layer above it: MCPS for data, MLME for management. -/
namespace ZigbeeStack

structure MsduHandle where
  key : UniqueKey
deriving DecidableEq, Repr

namespace Mcps

structure DataRequest where
  sourceAddressingMode : AddressingMode
  destination : Option FullAddress
  msdu : List UInt8
  msduHandle : MsduHandle
  ackTx : Bool
  indirectTx : Bool
deriving DecidableEq, Repr

structure DataConfirm where
  msduHandle : MsduHandle
  ackPayload : Except ServiceError (List UInt8)
deriving DecidableEq, Repr

structure PurgeRequest where
  msduHandle : MsduHandle
deriving DecidableEq, Repr

structure PurgeConfirm where
  msduHandle : MsduHandle
  status : Except ServiceError Unit
deriving DecidableEq, Repr

inductive Request where
  | data (request : DataRequest)
  | purge (request : PurgeRequest)
deriving DecidableEq, Repr

inductive Confirm where
  | data (confirm : DataConfirm)
  | purge (confirm : PurgeConfirm)
deriving DecidableEq, Repr

/- The indications of received data are not among them: the MAC never gives one. -/
inductive Output where
  | confirm (confirm : Confirm)
deriving DecidableEq, Repr

end Mcps

namespace Mlme

inductive BeaconType where
  | beacon | enhancedBeacon
deriving DecidableEq, Repr

structure ResetRequest where
  setDefaultPib : Bool
deriving DecidableEq, Repr

structure StartRequest where
  panId : PANID
  channelNumber : UInt16
  channelPage : UInt16
  startTime : UInt32
  beaconOrder : UInt8
  superframeOrder : UInt8
  panCoordinator : Bool
  batteryLifeExtension : Bool
deriving DecidableEq, Repr

structure BeaconRequest where
  beaconType : BeaconType
  channel : UInt16
  channelPage : UInt16
  superframeOrder : Nat
  dstAddr : Option FullAddress
deriving DecidableEq, Repr

structure GetRequest where
  pibAttribute : PIBProperty
deriving DecidableEq, Repr

structure SetRequest where
  pibAttribute : PIBProperty
  value : PIBValue
deriving DecidableEq, Repr

inductive Request where
  | reset (request : ResetRequest)
  | start (request : StartRequest)
  | beacon (request : BeaconRequest)
  | get (request : GetRequest)
  | set (request : SetRequest)
deriving DecidableEq, Repr

inductive Confirm where
  | reset (result : Except ServiceError Unit)
  | start (result : Except ServiceError Unit)
  | beacon (result : Except ServiceError Unit)
  | get (pibAttribute : PIBProperty) (result : Except ServiceError PIBValue)
  | set (pibAttribute : PIBProperty) (result : Except ServiceError Unit)
deriving DecidableEq, Repr

inductive Indication where
  | beaconRequest (beaconType : BeaconType) (srcAddr : Option FullAddress) (dstPanId : PANID)
  | associate (deviceAddress : ExtendedAddress) (capabilityInformation : CapabilityInformation)
deriving DecidableEq, Repr

inductive Response where
  | associate (deviceAddress : ExtendedAddress) (fastAssociation : Bool)
      (status : Except AssociationError (Option ShortAddress))
deriving DecidableEq, Repr

inductive Output where
  | confirm (confirm : Confirm)
  | indication (indication : Indication)
deriving DecidableEq, Repr

end Mlme
end ZigbeeStack
