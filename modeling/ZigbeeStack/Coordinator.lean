import ZigbeeStack.MacCompletions

/-! The coordinator: the main loop above the MAC, which sets it up and answers the devices that
join, and the channels between the two. -/
namespace ZigbeeStack

/- The responses of `mcps::Input` have no values. -/
inductive Mlme.Input where
  | request (request : Mlme.Request)
  | response (response : Mlme.Response)
deriving DecidableEq, Repr

def Mlme.Input.arrival : Mlme.Input → Arrival
  | .request r => .mlmeRequest r
  | .response r => .mlmeResponse r

inductive MainloopInput where
  | mlme (output : Mlme.Output)
  | mcps (output : Mcps.Output)
deriving DecidableEq, Repr

inductive MainloopSend where
  | mlme (input : Mlme.Input)
  | mcps (request : Mcps.Request)
deriving DecidableEq, Repr

def sendRequest (request : Mlme.Request) : MainloopSend := .mlme (.request request)
def sendResponse (response : Mlme.Response) : MainloopSend := .mlme (.response response)
def sendMcpsRequest (request : Mcps.Request) : MainloopSend := .mcps request

inductive Mainloop where
  | running (todo : List MainloopSend)
  | ended
  | panicked (panic : Panic)
deriving DecidableEq, Repr

namespace Mainloop

def beaconPayload : List UInt8 :=
  [0x00, 0x22, 0x84, 0x15, 0x68, 0x89, 0x0e, 0x00, 0x4b, 0x12, 0x00, 0xFF, 0xFF, 0xFF, 0x00]

def startUp : List Mlme.Request :=
  [.reset ⟨true⟩,
    .set ⟨.phyCurrentChannel, .u16 25⟩,
    .set ⟨.macAssociationPermit, .bool true⟩,
    .set ⟨.macShortAddress, .shortAddress ⟨0x0000⟩⟩,
    .set ⟨.macBeaconPayload, .blob beaconPayload⟩,
    .set ⟨.macBeaconAutoRespond, .bool true⟩,
    .start {
      panId := ⟨0x1234⟩
      channelNumber := 25
      channelPage := 0
      startTime := 0
      beaconOrder := 15
      superframeOrder := 15
      panCoordinator := true
      batteryLifeExtension := false }]

def beaconRequest (beaconType : Mlme.BeaconType) : Mlme.BeaconRequest where
  beaconType := beaconType
  channel := 25
  channelPage := 0
  superframeOrder := 15
  dstAddr := none

def joinedAddress : ShortAddress := ⟨0x4567⟩

def associated (deviceAddress : ExtendedAddress)
    (capabilityInformation : CapabilityInformation) : Mlme.Response :=
  .associate deviceAddress capabilityInformation.fastAssociation (.ok (some joinedAddress))

def nwkHeader : List UInt8 :=
  [0x48, 0x00,
    0x67, 0x45,
    0x00, 0x00,
    0x1E,
    0x28]

def apsHeader : List UInt8 :=
  [0x21, 0x06, 0x10, 0x01, 0x00, 0x00, 0x00, 0xe3, 0xbd, 0x18, 0x74, 0x09, 0x2c,
    0x2c, 0xa3, 0x58, 0x1d, 0x8a, 0x23, 0xb9, 0x6c, 0x3b, 0x80, 0xf0, 0xad, 0x27,
    0x1c, 0x59, 0x8a, 0xdf, 0x27, 0xbc, 0x21, 0xc7, 0x47, 0xf0, 0x31, 0x74, 0x80,
    0xbc, 0x8c, 0x53, 0x88, 0x11, 0x8f, 0x02]

def transportKey (msduHandle : MsduHandle) : Mcps.DataRequest where
  sourceAddressingMode := .short
  destination := some ⟨⟨0x1234⟩, .short joinedAddress⟩
  msdu := nwkHeader ++ apsHeader
  msduHandle := msduHandle
  ackTx := true
  indirectTx := true

/-- The body of the loop. `msduHandle` is the handle that `MsduHandle::new` would give. -/
def react (msduHandle : MsduHandle) : MainloopInput → List MainloopSend
  | .mlme (.indication (.beaconRequest beaconType _ _)) =>
    [sendRequest (.beacon (beaconRequest beaconType))]
  | .mlme (.indication (.associate deviceAddress capabilityInformation)) =>
    [sendResponse (associated deviceAddress capabilityInformation),
      sendMcpsRequest (.data (transportKey msduHandle))]
  | _ => []

/- The main loop owns the sending ends of the MAC's inputs until it is over. -/
def isRunning : Mainloop → Bool
  | .running _ => true
  | _ => false

def todo : Mainloop → List MainloopSend
  | .running todo => todo
  | _ => []

end Mainloop

namespace MacTask
variable {τ : Type}

def isPanicked : MacTask τ → Bool
  | .panicked _ => true
  | _ => false

def mlmeSent (task : MacTask τ) : List Mlme.Output :=
  (task.mac.map (·.mlmeOutput.items)).getD []

def mcpsSent (task : MacTask τ) : List Mcps.Output :=
  (task.mac.map (·.mcpsOutput.items)).getD []

end MacTask

structure Coordinator (τ : Type) where
  mac : MacTask τ
  mainloop : Mainloop
  mlmeInput : List Mlme.Input
  mcpsInput : List Mcps.Request
  mlmeOutput : List Mlme.Output
  mcpsOutput : List Mcps.Output

namespace Coordinator
variable {τ : Type}

def start (pib : PIB) : Coordinator τ where
  mac := .polling (.new pib)
  mainloop := .running (Mainloop.startUp.map sendRequest)
  mlmeInput := []
  mcpsInput := []
  mlmeOutput := []
  mcpsOutput := []

/- The steps of the MAC, of which the poll finds `radio` in the stream of responses, the driver
   dropping its end, a send of the main loop, and what its `select!` takes. -/
inductive Event where
  | poll (cx : Waker) (key : UniqueKey) (params : List RadioParam)
      (rounds : List (List (Option FullAddress × Instant))) (radio : Poll (Option RadioResponse))
  | process (draws : Draws)
  | dropRadioRequests
  | send
  | takeMlme (msduHandle : MsduHandle)
  | takeMcps (msduHandle : MsduHandle)
deriving DecidableEq

/- The input streams in the order in which the MAC asks them. -/
def arrival (self : Coordinator τ) (radio : Poll (Option RadioResponse)) : Poll (Option Arrival) :=
  match radio with
  | .ready response => .ready (response.map .radio)
  | .pending =>
    match self.mlmeInput with
    | input :: _ => .ready (some input.arrival)
    | [] =>
      if self.mainloop.isRunning then
        match self.mcpsInput with
        | request :: _ => .ready (some (.mcpsRequest request))
        | [] => .pending
      else .ready none

def taken (mac : MacTask τ) (self : Coordinator τ) : Coordinator τ :=
  match mac with
  | .processing _ (.arrival (.mlmeRequest _)) | .processing _ (.arrival (.mlmeResponse _)) =>
    { self with mlmeInput := self.mlmeInput.tail }
  | .processing _ (.arrival (.mcpsRequest _)) => { self with mcpsInput := self.mcpsInput.tail }
  | _ => self

def send (self : Coordinator τ) (rest : List MainloopSend) (item : MainloopSend) : Coordinator τ :=
  if self.mac.isPanicked then { self with mainloop := .panicked .unwrap }
  else
    match item with
    | .mlme input =>
      { self with mainloop := .running rest, mlmeInput := self.mlmeInput ++ [input] }
    | .mcps request =>
      { self with mainloop := .running rest, mcpsInput := self.mcpsInput ++ [request] }

variable [Sleep τ]

/-- One step. The stream of an output of the MAC ends once the MAC has panicked and the items
before that are taken. -/
def step (self : Coordinator τ) : Event → Option (Coordinator τ × Unit)
  | .poll cx key params rounds radio =>
    match self.mac.step (.poll ⟨cx, key, params, rounds, self.arrival radio⟩) with
    | some (mac, _) => some ({ self.taken mac with mac := mac }, ())
    | none => none
  | .process draws =>
    match self.mac.step (.process draws) with
    | some (mac, _) =>
      some ({ self with
        mac := mac
        mlmeOutput := self.mlmeOutput ++ mac.mlmeSent.drop self.mac.mlmeSent.length
        mcpsOutput := self.mcpsOutput ++ mac.mcpsSent.drop self.mac.mcpsSent.length }, ())
    | none => none
  | .dropRadioRequests =>
    match self.mac.step .dropRadioRequests with
    | some (mac, _) => some ({ self with mac := mac }, ())
    | none => none
  | .send =>
    match self.mainloop with
    | .running (item :: rest) => some (self.send rest item, ())
    | _ => none
  | .takeMlme msduHandle =>
    match self.mainloop, self.mlmeOutput with
    | .running [], output :: rest =>
      some ({ self with
        mainloop := .running (Mainloop.react msduHandle (.mlme output)), mlmeOutput := rest }, ())
    | .running [], [] =>
      if self.mac.isPanicked then some ({ self with mainloop := .ended }, ()) else none
    | _, _ => none
  | .takeMcps msduHandle =>
    match self.mainloop, self.mcpsOutput with
    | .running [], output :: rest =>
      some ({ self with
        mainloop := .running (Mainloop.react msduHandle (.mcps output)), mcpsOutput := rest }, ())
    | .running [], [] =>
      if self.mac.isPanicked then some ({ self with mainloop := .ended }, ()) else none
    | _, _ => none

end Coordinator
end ZigbeeStack
