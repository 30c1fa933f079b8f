import ZigbeeStack.DataService

/-! The management service: MLME requests, the frames it answers, and the radio parameters it
keeps in step with the PIB. -/
namespace ZigbeeStack

inductive RadioParam where
  | powerMode | channel | panId | shortAddress | rxMode | txMode | txPower | ccaThreshold
  | rssi | lastRssi | lastLinkQuality | longAddress | lastPacketTimestamp
  | channelMin | channelMax | txPowerMin | txPowerMax
deriving DecidableEq, Repr

inductive RadioParamValue where
  | u16 (value : UInt16)
  | u32 (value : UInt32)
  | u64 (value : UInt64)
deriving DecidableEq, Repr

structure RadioRxMode where
  addressFilter : Bool
  autoack : Bool
  pollMode : Bool
deriving DecidableEq, Repr

def RadioRxMode.toValue (value : RadioRxMode) : RadioParamValue :=
  .u16 (value.addressFilter.toUInt16 ||| (value.autoack.toUInt16 <<< 1) |||
    (value.pollMode.toUInt16 <<< 2))

inductive ManagementServiceAction where
  | setParam (key : UniqueKey) (param : RadioParam) (value : RadioParamValue)
  | sendFrame (frame : Frame)
deriving DecidableEq, Repr

structure RadioParamInfo where
  requestedValue : RadioParamValue
  updating : Option UniqueKey
  dirty : Bool
deriving DecidableEq, Repr

structure ManagementService where
  outgoing : List Frame
  waker : WakerStore
  radioParams : HashMap.Map RadioParam RadioParamInfo

namespace ManagementService

def updateRadioParameter (self : ManagementService) (parameter : RadioParam)
    (value : RadioParamValue) : ManagementService :=
  match HashMap.get self.radioParams parameter with
  | some current =>
    if current.requestedValue ≠ value then
      { self with
        radioParams := HashMap.set self.radioParams parameter
          { current with requestedValue := value, dirty := true }
        waker := self.waker.wake }
    else self
  | none =>
    { self with
      radioParams := HashMap.set self.radioParams parameter ⟨value, none, true⟩
      waker := self.waker.wake }

def updateRadioParameters (self : ManagementService) (pib : PIB) : ManagementService :=
  let self := self.updateRadioParameter .channel (.u16 pib.phyCurrentChannel)
  let self := self.updateRadioParameter .panId (.u16 pib.macPanId.value)
  let self := self.updateRadioParameter .shortAddress (.u16 pib.macShortAddress.value)
  let self := self.updateRadioParameter .rxMode (RadioRxMode.mk true true false).toValue
  self.updateRadioParameter .txPower (.u16 pib.phyTxPower)

def new (pib : PIB) : ManagementService :=
  (ManagementService.mk [] .new ∅).updateRadioParameters pib

/- The parameters are asked in the order in which the hash map gives them. -/
def pollRadioParamUpdate (self : ManagementService) (key : UniqueKey) :
    List RadioParam → Poll ManagementServiceAction × ManagementService
  | [] => (.pending, self)
  | param :: rest =>
    match HashMap.get self.radioParams param with
    | some info =>
      if info.dirty && info.updating.isNone then
        (.ready (.setParam key param info.requestedValue),
          { self with
            radioParams := HashMap.set self.radioParams param
              { info with dirty := false, updating := some key } })
      else self.pollRadioParamUpdate key rest
    | none => self.pollRadioParamUpdate key rest

def processSetParamResult (self : ManagementService) (key : UniqueKey) (result : Bool) :
    ManagementService :=
  let shouldWake := self.radioParams.entries.any fun e =>
    decide (e.2.updating = some key) && (e.2.dirty || !result)
  { self with
    radioParams := HashMap.mapValues
      (fun info =>
        if info.updating = some key then
          { info with updating := none, dirty := info.dirty || !result }
        else info) self.radioParams
    waker := if shouldWake then self.waker.wake else self.waker }

def pollAction (self : ManagementService) (cx : Waker) (key : UniqueKey)
    (order : List RadioParam) : Poll ManagementServiceAction × ManagementService :=
  match self.pollRadioParamUpdate key order with
  | (.ready action, self) => (.ready action, self)
  | (.pending, self) =>
    match self.outgoing with
    | outgoing :: rest => (.ready (.sendFrame outgoing), { self with outgoing := rest })
    | [] => (.pending, { self with waker := self.waker.pend cx })

def processMlmeBeaconRequest (self : ManagementService) (pib : PIB)
    (request : Mlme.BeaconRequest) : Except ServiceError Unit × ManagementService × PIB :=
  if request.superframeOrder ≠ 15 ∨ request.channel ≠ pib.phyCurrentChannel ∨
      request.channelPage ≠ 0 then (.error .invalidParameter, self, pib)
  else
    let beacon : Beacon := {
      beaconOrder := 15
      superframeOrder := request.superframeOrder
      finalCapSlot := 15
      batteryLifeExtension := false
      panCoordinator :=
        pib.macAssociatedPanCoord = some (pib.macExtendedAddress, pib.macShortAddress)
      associationPermit := pib.macAssociationPermit
      payload := ⟨pib.macBeaconPayload⟩ }
    let (sequenceNr, pib) := pib.nextBeaconSequenceNr
    let frame : Frame := {
      framePending := false
      acknowledgeRequest := false
      sequenceNumber := some sequenceNr
      destination := none
      source := some pib.getFullShortAddress
      frameType := .beacon beacon }
    (.ok (), { self with outgoing := self.outgoing ++ [frame] }, pib)

/-- `bsn` and `dsn` are the random numbers of a reset PIB. -/
def processMlmeResetRequest {τ : Type} (pib : PIB) (bsn dsn : UInt8)
    (request : Mlme.ResetRequest) :
    Except ServiceError Unit × ManagementService × DataService τ × PIB :=
  let pib := if request.setDefaultPib then pib.reset bsn dsn else pib
  (.ok (), new pib, .new, pib)

def processMlmeGetRequest (pib : PIB) (request : Mlme.GetRequest) : Except ServiceError PIBValue :=
  (pib.get request.pibAttribute).mapError fun _ => .unsupportedAttribute

def processMlmeSetRequest (self : ManagementService) (pib : PIB) (request : Mlme.SetRequest) :
    Except ServiceError Unit × ManagementService × PIB :=
  let (pib, res) := pib.set request.pibAttribute request.value
  (res, self.updateRadioParameters pib, pib)

def processMlmeStartRequest (self : ManagementService) (pib : PIB)
    (request : Mlme.StartRequest) : Except ServiceError Unit × ManagementService × PIB :=
  if pib.macShortAddress = ⟨0xFFFF⟩ then (.error .noShortAddress, self, pib)
  else if request.channelPage ≠ 0 ∨ request.startTime ≠ 0 ∨ request.beaconOrder ≠ 15 ∨
      request.superframeOrder ≠ 15 ∨ !request.panCoordinator ∨ request.batteryLifeExtension then
    (.error .invalidParameter, self, pib)
  else
    let pib := { pib with
      phyCurrentChannel := request.channelNumber
      macPanId := request.panId
      macAssociatedPanCoord :=
        if request.panCoordinator then some (pib.macExtendedAddress, pib.macShortAddress)
        else pib.macAssociatedPanCoord }
    (.ok (), self.updateRadioParameters pib, pib)

def processMlmeRequest {τ : Type} (self : ManagementService) (pib : PIB) (data : DataService τ)
    (bsn dsn : UInt8) :
    Mlme.Request → Mlme.Confirm × ManagementService × DataService τ × PIB
  | .beacon request =>
    let (res, self, pib) := self.processMlmeBeaconRequest pib request
    (.beacon res, self, data, pib)
  | .reset request =>
    let (res, self, data, pib) := processMlmeResetRequest pib bsn dsn request
    (.reset res, self, data, pib)
  | .start request =>
    let (res, self, pib) := self.processMlmeStartRequest pib request
    (.start res, self, data, pib)
  | .get request =>
    (.get request.pibAttribute (processMlmeGetRequest pib request), self, data, pib)
  | .set request =>
    let (res, self, pib) := self.processMlmeSetRequest pib request
    (.set request.pibAttribute res, self, data, pib)

def associateResponse (pib : PIB) (key : UniqueKey) (deviceAddress : ExtendedAddress)
    (fastAssociation : Bool) (status : Except AssociationError (Option ShortAddress)) :
    DataRequest where
  key := key
  destination := some ⟨pib.macPanId, .extended deviceAddress⟩
  sourceMode := .extended
  acknowledgeRequest := true
  indirect := !fastAssociation
  content := .command (.associationResponse ⟨fastAssociation,
    status.map fun addr => addr.getD ShortAddress.noneAssigned⟩)

def processMlmeResponse {τ : Type} [Sleep τ] (data : DataService τ) (pib : PIB)
    (key : UniqueKey) : Mlme.Response → DataService τ
  | .associate deviceAddress fastAssociation status =>
    data.insert pib (associateResponse pib key deviceAddress fastAssociation status)

def processFrameBeaconRequest (self : ManagementService) (pib : PIB) (frame : Frame) :
    Option Mlme.Indication × ManagementService × PIB :=
  if pib.macBeaconAutoRespond then
    let request : Mlme.BeaconRequest := {
      beaconType := .beacon
      channel := pib.phyCurrentChannel
      channelPage := 0
      superframeOrder := 15
      dstAddr := frame.source }
    let (_, self, pib) := self.processMlmeBeaconRequest pib request
    (none, self, pib)
  else
    (some (.beaconRequest .beacon frame.source
      ((frame.destination.map (·.panId)).getD PANID.broadcast)), self, pib)

def processFrameAssociationRequest (pib : PIB) (frame : Frame)
    (capabilityInformation : CapabilityInformation) : Option Mlme.Indication :=
  if !pib.macAssociationPermit then none
  else if frame.destination ≠ some pib.getFullShortAddress then none
  else match frame.source with
    | some ⟨_, .extended deviceAddress⟩ => some (.associate deviceAddress capabilityInformation)
    | _ => none

def processFrame (self : ManagementService) (pib : PIB) (frame : Frame) :
    Option Mlme.Indication × ManagementService × PIB :=
  match frame.frameType with
  | .command .beaconRequest => self.processFrameBeaconRequest pib frame
  | .command (.associationRequest req) =>
    (processFrameAssociationRequest pib frame req, self, pib)
  | _ => (none, self, pib)

end ManagementService
end ZigbeeStack
