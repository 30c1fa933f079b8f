import ZigbeeStack.MruRuns
import ZigbeeStack.OldQueueRuns

/-! The first MAC: what it does with packets, with the frames that leave its queues and with what
the radio says of them, and the devices that it has given an address. -/
namespace ZigbeeStack.OldSrc

inductive MRUAddressSetAction where
  | none
  | setShortSlot (slot : Nat) (address : Option (PANID × ShortAddress))
  | setExtendedSlot (slot : Nat) (address : Option ExtendedAddress)
deriving DecidableEq, Repr

def MRUAddressSetAction.ofShort : MRUSetAction (PANID × ShortAddress) → MRUAddressSetAction
  | .none => .none
  | .setSlot slot address => .setShortSlot slot (some address)
  | .clearSlot slot => .setShortSlot slot Option.none

def MRUAddressSetAction.ofExtended : MRUSetAction ExtendedAddress → MRUAddressSetAction
  | .none => .none
  | .setSlot slot address => .setExtendedSlot slot (some address)
  | .clearSlot slot => .setExtendedSlot slot Option.none

structure MRUAddressSet where
  short : MRUSet (PANID × ShortAddress)
  extended : MRUSet ExtendedAddress

namespace MRUAddressSet

def new (numShortSlots numExtendedSlots : Nat) : Except Panic MRUAddressSet := do
  let short ← MRUSet.new numShortSlots
  let extended ← MRUSet.new numExtendedSlots
  return { short, extended }

def contains (self : MRUAddressSet) : AddressSpecification → Bool
  | .none => false
  | .short panid address => self.short.contains (panid, address)
  | .extended _ address => self.extended.contains address

def insert (self : MRUAddressSet) :
    AddressSpecification → Except Panic (MRUAddressSetAction × MRUAddressSet)
  | .none => .ok (.none, self)
  | .short panid address => do
    let (action, short) ← self.short.insert (panid, address)
    return (.ofShort action, { self with short := short })
  | .extended _ address => do
    let (action, extended) ← self.extended.insert address
    return (.ofExtended action, { self with extended := extended })

def remove (self : MRUAddressSet) :
    AddressSpecification → Except Panic (MRUAddressSetAction × MRUAddressSet)
  | .none => .ok (.none, self)
  | .short panid address => do
    let (action, short) ← self.short.remove (panid, address)
    return (.ofShort action, { self with short := short })
  | .extended _ address => do
    let (action, extended) ← self.extended.remove address
    return (.ofExtended action, { self with extended := extended })

end MRUAddressSet

namespace Mac

structure NodeInformation where
  receiverOnWhenIdle : Bool

inductive Inflight where
  | failed (error : SerializeError)
  | sending (packet : List UInt8)
deriving DecidableEq, Repr

inductive Event where
  | beaconRequest
  | associationRequest (source : ExtendedAddress) (receiveOnWhenIdle : Bool)
deriving DecidableEq, Repr

structure Service where
  sequenceNumber : UInt8
  panId : PANID
  shortAddress : ShortAddress
  extendedAddress : ExtendedAddress
  associations : BiMap ShortAddress ExtendedAddress
  nodeinfo : HashMap.Map ExtendedAddress NodeInformation
  queue : Queue
  inflight : HashMap.Map AddressSpecification Inflight
  pendingDataSet : MRUAddressSet

namespace Service

/- `extendedAddress` is what the radio says. -/
def new (extendedAddress : ExtendedAddress) (shortAddress : ShortAddress) (panId : PANID) :
    Except Panic Service := do
  let pendingDataSet ← MRUAddressSet.new 8 8
  return {
    sequenceNumber := 0
    panId, shortAddress, extendedAddress
    associations := TwoWayMap.insert TwoWayMap.empty shortAddress extendedAddress
    nodeinfo := ∅
    queue := .new
    inflight := ∅
    pendingDataSet }

/- Additions wrap, as where nothing checks for overflows. -/
def freshSequenceNumber (self : Service) : UInt8 × Service :=
  (self.sequenceNumber + 1, { self with sequenceNumber := self.sequenceNumber + 1 })

def sendFrameNoqueue (frame : Frame) : Inflight :=
  match frame.serializeTo [] with
  | .error e => .failed e
  | .ok serialized => .sending serialized

def setPendingData (self : Service) (address : AddressSpecification) (pendingFrames : Bool) :
    Except Panic (MRUAddressSetAction × Service) := do
  let (action, pendingDataSet) ←
    if pendingFrames then self.pendingDataSet.insert address
    else self.pendingDataSet.remove address
  return (action, { self with pendingDataSet := pendingDataSet })

/- What a call brings: a slot of the radio to set, what the senders are told, and an event. The
executor takes the task that sets the slot, and the writer of the radio bridge is there, so that
neither `spawn` nor `unbounded_send` fails. -/
structure Output where
  slot : MRUAddressSetAction
  resolutions : List Resolution
  event : Option Event

def Output.nothing : Output := ⟨.none, [], none⟩

/- The queues are visited in the order `order`. -/
def handleFrame (self : Service) (frame : Frame) (order : List AddressSpecification) :
    Except Panic (Service × Output) :=
  match frame.frameType with
  | .command .beaconRequest => .ok (self, ⟨.none, [], some .beaconRequest⟩)
  | .command .dataRequest => do
    let (pendingFrames, queue) ← self.queue.onDataRequest frame.source
    let (slot, self) ← { self with queue := queue }.setPendingData frame.source pendingFrames
    return (self, ⟨slot, [], none⟩)
  | .command (.associationRequest _ _ _ receiveOnWhenIdle _ _) =>
    match frame.source with
    | .extended _ source =>
      .ok (self, ⟨.none, [], some (.associationRequest source receiveOnWhenIdle)⟩)
    | _ => .ok (self, .nothing)
  | .ack =>
    match frame.sequenceNumber with
    | some sequenceNr => do
      let (queue, resolutions) ← self.queue.onAck sequenceNr order
      return ({ self with queue := queue }, ⟨.none, resolutions, none⟩)
    | none => .ok (self, .nothing)
  | _ => .ok (self, .nothing)

def handlePacket (self : Service) (packet : List UInt8) (order : List AddressSpecification) :
    Except Panic (Service × Output) :=
  match Frame.deserialize packet with
  | .error _ => .ok (self, .nothing)
  | .ok (_, frame) => self.handleFrame frame order

def sendBeacon (self : Service) (payload : List UInt8) : Inflight × Service :=
  let (sequenceNumber, self) := self.freshSequenceNumber
  let beacon : Frame := {
    framePending := false
    acknowledgeRequest := false
    sequenceNumber := some sequenceNumber
    destination := .none
    source := .short self.panId self.shortAddress
    frameType := .beacon 15 15 15 false true true
    payload := payload }
  (sendFrameNoqueue beacon, self)

/- The loop over the addresses, of which there are 65536; `none` if it never ends. -/
def findFree (associations : BiMap ShortAddress ExtendedAddress) :
    Nat → UInt16 → Option ShortAddress
  | 0, _ => none
  | n + 1, retval =>
    if (TwoWayMap.getByLeft associations ⟨retval⟩).isSome then findFree associations n (retval + 1)
    else some ⟨retval⟩

def findFreeShortAddress (self : Service) : Option ShortAddress :=
  findFree self.associations 65536 0

def associate (self : Service) (address : ExtendedAddress) (receiverOnWhenIdle : Bool) :
    Option (ShortAddress × Service) :=
  let self := { self with nodeinfo := HashMap.set self.nodeinfo address ⟨receiverOnWhenIdle⟩ }
  match TwoWayMap.getByRight self.associations address with
  | some left => some (left, self)
  | none => do
    let shortAddress ← self.findFreeShortAddress
    return (shortAddress,
      { self with associations := TwoWayMap.insert self.associations shortAddress address })

def getNodeinfoForAddrspec (self : Service) : AddressSpecification → Option NodeInformation
  | .none => none
  | .short panid address =>
    if panid = self.panId then
      (TwoWayMap.getByLeft self.associations address).bind fun extaddr =>
        HashMap.get self.nodeinfo extaddr
    else none
  | .extended _ address => HashMap.get self.nodeinfo address

def sendFrameQueued (self : Service) (frame : Frame) (callback : Nat) :
    Except Panic (Service × Output) := do
  let receiverOnWhenIdle :=
    ((self.getNodeinfoForAddrspec frame.destination).map (·.receiverOnWhenIdle)).getD true
  let (slot, self) ←
    if receiverOnWhenIdle then .ok (.none, self) else self.setPendingData frame.destination true
  let (queue, resolution) ← self.queue.enqueue frame receiverOnWhenIdle callback
  return ({ self with queue := queue }, ⟨slot, resolution.toList, none⟩)

def sendAssociationResponse (self : Service) (extendedAddress : ExtendedAddress)
    (callback : Nat) : Except Panic (Service × Output) :=
  match TwoWayMap.getByRight self.associations extendedAddress with
  | some shortAddress =>
    let (sequenceNumber, self) := self.freshSequenceNumber
    let frame : Frame := {
      framePending := false
      acknowledgeRequest := true
      sequenceNumber := some sequenceNumber
      destination := .extended self.panId extendedAddress
      source := .extended self.panId self.extendedAddress
      frameType := .command (.associationResponse shortAddress .associationSuccessful)
      payload := [] }
    self.sendFrameQueued frame callback
  | none => .ok (self, .nothing)

def pollQueue (self : Service) (cx : Waker) (due : List Nat) :
    Except Panic (Service × Output) := do
  let ((event, queue), resolutions) ← self.queue.pollNext cx due
  let self := { self with queue := queue }
  match event with
  | .ready (.outgoingFrame destination frame) =>
    return ({ self with
      inflight := HashMap.set self.inflight destination (sendFrameNoqueue frame) },
      ⟨.none, resolutions, none⟩)
  | .ready (.queueFlushed destination) => do
    let (slot, self) ← self.setPendingData destination false
    return (self, ⟨slot, resolutions, none⟩)
  | .pending => return (self, ⟨.none, resolutions, none⟩)

def reportResults (queue : Queue) :
    List (AddressSpecification × Bool) → Except Panic (Queue × List Resolution)
  | [] => .ok (queue, [])
  | (key, success) :: results => do
    let (queue, resolution) ← queue.onSendResult key success
    let (queue, resolutions) ← reportResults queue results
    return (queue, resolution.toList ++ resolutions)

/- `results` are those of the futures that are ready, in the order in which they are polled. -/
def pollInflight (self : Service) (results : List (AddressSpecification × Bool)) :
    Except Panic (Service × Output) := do
  let inflight := results.foldl (fun inflight result => HashMap.remove inflight result.1)
    self.inflight
  let (queue, resolutions) ← reportResults self.queue results
  return ({ self with inflight := inflight, queue := queue }, ⟨.none, resolutions, none⟩)

end Service
end Mac

end ZigbeeStack.OldSrc
