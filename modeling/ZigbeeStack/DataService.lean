import ZigbeeStack.Collections
import ZigbeeStack.CombinedPendingTable
import ZigbeeStack.DeviceQueue
import ZigbeeStack.Services

/-! The data service: one queue for each destination, the handles of the requests from above, and
the pending tables. -/
namespace ZigbeeStack

inductive DataServiceAction where
  | initPendingTable (key : UniqueKey)
  | setPendingShort (key : UniqueKey) (index : Fin 8) (value : Option (PANID × ShortAddress))
  | setPendingExtended (key : UniqueKey) (index : Fin 8) (value : Option ExtendedAddress)
  | sendFrame (key : UniqueKey) (frame : Frame)
  | confirm (confirm : Mcps.Confirm)
deriving DecidableEq, Repr

def DataServiceAction.ofCombined : CombinedPendingTableAction → DataServiceAction
  | .init key => .initPendingTable key
  | .updateShort key index value => .setPendingShort key index value
  | .updateExtended key index value => .setPendingExtended key index value

def DeviceQueueError.toService : DeviceQueueError → ServiceError
  | .transactionExpired => .transactionExpired
  | .sendFailure => .channelAccessFailure
  | .noAck => .noAck

structure DataService (τ : Type) where
  queues : HashMap.Map (Option FullAddress) (DeviceQueue τ)
  msduHandles : BiMap MsduHandle UniqueKey
  pendingTable : CombinedPendingTable
  waker : WakerStore

namespace DataService
variable {τ : Type}

def new : DataService τ := ⟨∅, TwoWayMap.empty, .new, .new⟩

def setQueue (self : DataService τ) (destination : Option FullAddress) (queue : DeviceQueue τ) :
    DataService τ :=
  { self with queues := HashMap.set self.queues destination queue }

def mapQueues (self : DataService τ) (f : DeviceQueue τ → DeviceQueue τ) : DataService τ :=
  { self with queues := HashMap.mapValues f self.queues }

/- The queues are asked in the order in which the hash map gives them, until one has removed an
   entry; those after it are not touched. -/
def removeFrom (key : UniqueKey) :
    List (Option FullAddress) → Bool → DataService τ → Bool × DataService τ
  | [], removed, self => (removed, self)
  | destination :: rest, removed, self =>
    match HashMap.get self.queues destination with
    | none => removeFrom key rest removed self
    | some queue =>
      if removed then removeFrom key rest removed self
      else
        let (removed, queue) := queue.remove key
        removeFrom key rest removed (self.setQueue destination queue)

def remove (self : DataService τ) (key : UniqueKey) (order : List (Option FullAddress)) :
    Bool × DataService τ :=
  removeFrom key order false self

inductive Round (τ : Type) where
  | done (action : Poll DataServiceAction) (self : DataService τ) (pib : PIB)
  | retry (self : DataService τ) (pib : PIB)

def processQueueAction (self : DataService τ) (pib : PIB) (destination : Option FullAddress) :
    DeviceQueueAction → Round τ
  | .empty => .retry { self with queues := HashMap.remove self.queues destination } pib
  | .setPending pending =>
    .retry { self with pendingTable := self.pendingTable.set destination pending } pib
  | .sendFrame key frame => .done (.ready (.sendFrame key frame)) self pib
  | .reportResult key result =>
    match TwoWayMap.removeByRight self.msduHandles key with
    | (some (handle, _), msduHandles) =>
      .done (.ready (.confirm (.data ⟨handle, result.mapError DeviceQueueError.toService⟩)))
        { self with msduHandles := msduHandles } pib
    | (none, msduHandles) => .retry { self with msduHandles := msduHandles } pib

variable [Sleep τ]

def insert (self : DataService τ) (pib : PIB) (entry : DataRequest) : DataService τ :=
  match HashMap.get self.queues entry.destination with
  | some existing => self.setQueue entry.destination (existing.insert pib entry).2
  | none =>
    { self.setQueue entry.destination (DeviceQueue.new.insert pib entry).2 with
      waker := self.waker.wake }

/- Polls the queues one by one, each at the instant at which its turn comes. -/
def pollQueues (self : DataService τ) (pib : PIB) (cx : Waker) (key : UniqueKey) :
    List (Option FullAddress × Instant) → Round τ
  | [] => .done .pending { self with waker := self.waker.pend cx } pib
  | (destination, now) :: rest =>
    match HashMap.get self.queues destination with
    | none => self.pollQueues pib cx key rest
    | some queue =>
      match queue.pollNextAction pib now cx key with
      | (.ready action, queue, pib) =>
        (self.setQueue destination queue).processQueueAction pib destination action
      | (.pending, queue, pib) => (self.setQueue destination queue).pollQueues pib cx key rest

def pollRound (self : DataService τ) (pib : PIB) (cx : Waker) (key : UniqueKey)
    (visits : List (Option FullAddress × Instant)) : Round τ :=
  match self.pendingTable.pollAction cx key with
  | (.ready action, pendingTable) =>
    .done (.ready (.ofCombined action)) { self with pendingTable := pendingTable } pib
  | (.pending, pendingTable) =>
    { self with pendingTable := pendingTable }.pollQueues pib cx key visits

/-- The `'retry` loop, with the visits of each of its rounds; there is no result when they run out
or are not the queues. `key` is the key that `UniqueKey::new` would give. One call draws at most
one, with the action that it returns. -/
def pollAction (self : DataService τ) (pib : PIB) (cx : Waker) (key : UniqueKey) :
    List (List (Option FullAddress × Instant)) →
      Option (Poll DataServiceAction × DataService τ × PIB)
  | [] => none
  | visits :: rounds =>
    if HashMap.Enumerates (visits.map Prod.fst) self.queues then
      match self.pollRound pib cx key visits with
      | .done action self pib => some (action, self, pib)
      | .retry self pib => self.pollAction pib cx key rounds
    else none

omit [Sleep τ] in
def processInitPendingTableResult (self : DataService τ) (key : UniqueKey) (success : Bool) :
    DataService τ :=
  { self with pendingTable := self.pendingTable.reportInitResult key success }

def processSetPendingResult (self : DataService τ) (key : UniqueKey) (success : Bool) :
    DataService τ :=
  { self with pendingTable := self.pendingTable.reportUpdateResult key success }

def processSendResult (self : DataService τ) (key : UniqueKey) (success : Bool) :
    DataService τ :=
  self.mapQueues fun queue => queue.processSendResult key success

def processFrameAck (self : DataService τ) (frame : Frame) (payload : Payload) :
    DataService τ :=
  self.mapQueues fun queue => queue.processAcknowledge frame.sequenceNumber payload.bytes

def processFrameDataRequest (self : DataService τ) (pib : PIB) (frame : Frame) : DataService τ :=
  if frame.destination = some pib.getFullShortAddress ∨
      frame.destination = some pib.getFullExtendedAddress then
    match HashMap.get self.queues frame.source with
    | some queue => self.setQueue frame.source queue.processDatarequest
    | none => self
  else self

def processFrame (self : DataService τ) (pib : PIB) (frame : Frame) : DataService τ :=
  match frame.frameType with
  | .ack payload => self.processFrameAck frame payload
  | .command .dataRequest => self.processFrameDataRequest pib frame
  | _ => self

def internalRequest (key : UniqueKey) (request : Mcps.DataRequest) : DataRequest where
  key := key
  destination := request.destination
  sourceMode := request.sourceAddressingMode
  acknowledgeRequest := request.ackTx
  indirect := request.indirectTx
  content := .data ⟨request.msdu⟩

/-- `key` is the request's own unique key. -/
def processMcpsDataRequest (self : DataService τ) (pib : PIB) (key : UniqueKey)
    (request : Mcps.DataRequest) : Option Mcps.Confirm × DataService τ :=
  let self := self.insert pib (internalRequest key request)
  (none, { self with msduHandles := TwoWayMap.insert self.msduHandles request.msduHandle key })

def processMcpsPurgeRequest (self : DataService τ) (order : List (Option FullAddress))
    (request : Mcps.PurgeRequest) : Mcps.Confirm × DataService τ :=
  match TwoWayMap.removeByLeft self.msduHandles request.msduHandle with
  | (some (handle, key), msduHandles) =>
    (.purge ⟨handle, .ok ()⟩, ({ self with msduHandles := msduHandles }.remove key order).2)
  | (none, _) => (.purge ⟨request.msduHandle, .error .invalidHandle⟩, self)

/-- A data request draws `key`, a purge request visits the queues in `order`. -/
def processMcpsRequest (self : DataService τ) (pib : PIB) (key : UniqueKey)
    (order : List (Option FullAddress)) :
    Mcps.Request → Option Mcps.Confirm × DataService τ
  | .data r => self.processMcpsDataRequest pib key r
  | .purge r =>
    let (confirm, self) := self.processMcpsPurgeRequest order r
    (some confirm, self)

end DataService
end ZigbeeStack
