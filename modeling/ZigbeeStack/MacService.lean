import ZigbeeStack.Management
import ZigbeeStack.Runs

/-! The MAC: its loop over the two services and its inputs, and which packets it survives. -/
namespace ZigbeeStack

inductive SendError where
  | disconnected
deriving DecidableEq, Repr

/-- The sending end of a channel, with what was sent. It is closed once the receiving end is
dropped. A send to a full channel waits for room, which is not modelled. -/
structure Sink (α : Type) where
  closed : Bool
  items : List α
deriving DecidableEq, Repr

namespace Sink
variable {α : Type}

def new : Sink α := ⟨false, []⟩
def close (self : Sink α) : Sink α := { self with closed := true }
def send (self : Sink α) (item : α) : Except SendError (Sink α) :=
  if self.closed then .error .disconnected else .ok { self with items := self.items ++ [item] }

end Sink

inductive RadioRequest where
  | setParam (key : UniqueKey) (param : RadioParam) (value : RadioParamValue)
  | initPendingDataTable (key : UniqueKey)
  | sendPacket (key : UniqueKey) (data : List UInt8)
  | setPendingShort (key : UniqueKey) (index : Fin 8) (value : Option (UInt16 × UInt16))
  | setPendingExtended (key : UniqueKey) (index : Fin 8) (value : Option UInt64)
deriving DecidableEq, Repr

structure RadioPacket where
  data : List UInt8
  rssi : UInt8
  linkQuality : UInt8
deriving DecidableEq, Repr

/- Of the results the MAC sees only whether they are good. -/
inductive RadioResponse where
  | setParam (key : UniqueKey) (param : RadioParam) (success : Bool)
  | getParam (key : UniqueKey) (param : RadioParam) (success : Bool)
  | initPendingDataTable (key : UniqueKey) (success : Bool)
  | setPower (key : UniqueKey) (power success : Bool)
  | sendPacket (key : UniqueKey) (success : Bool)
  | onPacket (packet : RadioPacket)
  | setPendingShort (key : UniqueKey) (success : Bool)
  | setPendingExtended (key : UniqueKey) (success : Bool)
deriving DecidableEq, Repr

def RadioPacket.unpack (packet : RadioPacket) : Except UnpackError (Frame × List UInt8) :=
  Pack.unpack packet.data

inductive Arrival where
  | radio (response : RadioResponse)
  | mlmeRequest (request : Mlme.Request)
  | mlmeResponse (response : Mlme.Response)
  | mcpsRequest (request : Mcps.Request)
deriving DecidableEq, Repr

inductive MacInput where
  | arrival (arrival : Arrival)
  | management (action : ManagementServiceAction)
  | data (action : DataServiceAction)
deriving DecidableEq, Repr

structure MacData (τ : Type) where
  pib : PIB
  radioRequests : Sink RadioRequest
  mlmeOutput : Sink Mlme.Output
  mcpsOutput : Sink Mcps.Output
  management : ManagementService
  data : DataService τ

/-- What a poll finds in its surroundings: the key that `UniqueKey::new` would give, the orders in
which the hash maps are visited, and what the input streams have ready, `none` being the end of
one. -/
structure Visit where
  cx : Waker
  key : UniqueKey
  params : List RadioParam
  rounds : List (List (Option FullAddress × Instant))
  arrival : Poll (Option Arrival)
deriving DecidableEq

/-- What the processing of an input may draw: a key, the order in which the queues are visited, and
the random numbers of a reset. -/
structure Draws where
  key : UniqueKey
  queues : List (Option FullAddress)
  bsn : UInt8
  dsn : UInt8
deriving DecidableEq

namespace MacData
variable {τ : Type}

def new (pib : PIB) : MacData τ := ⟨pib, .new, .new, .new, .new pib, .new⟩

def sendFrame (self : MacData τ) (key : UniqueKey) (frame : Frame) :
    Except Panic (MacData τ) := do
  let target ← unwrap (Pack.pack frame VecPackTarget.new)
  let radioRequests ← unwrap (self.radioRequests.send (.sendPacket key target.bytes))
  return { self with radioRequests := radioRequests }

def processManagement (self : MacData τ) (key : UniqueKey) :
    ManagementServiceAction → Except Panic (MacData τ)
  | .setParam k p v => do
    let radioRequests ← unwrap (self.radioRequests.send (.setParam k p v))
    return { self with radioRequests := radioRequests }
  | .sendFrame f => self.sendFrame key f

def processData (self : MacData τ) : DataServiceAction → Except Panic (MacData τ)
  | .initPendingTable key => do
    let radioRequests ← unwrap (self.radioRequests.send (.initPendingDataTable key))
    return { self with radioRequests := radioRequests }
  | .setPendingShort key index value => do
    let request := .setPendingShort key index (value.map fun v => (v.1.value, v.2.value))
    let radioRequests ← unwrap (self.radioRequests.send request)
    return { self with radioRequests := radioRequests }
  | .setPendingExtended key index value => do
    let request := .setPendingExtended key index (value.map (·.value))
    let radioRequests ← unwrap (self.radioRequests.send request)
    return { self with radioRequests := radioRequests }
  | .sendFrame key frame => self.sendFrame key frame
  | .confirm confirm => do
    let mcpsOutput ← unwrap (self.mcpsOutput.send (.confirm confirm))
    return { self with mcpsOutput := mcpsOutput }

def processMlmeRequest (self : MacData τ) (bsn dsn : UInt8) (request : Mlme.Request) :
    Except Panic (MacData τ) := do
  let (confirm, management, data, pib) :=
    self.management.processMlmeRequest self.pib self.data bsn dsn request
  let mlmeOutput ← unwrap (self.mlmeOutput.send (.confirm confirm))
  return { self with management := management, data := data, pib := pib, mlmeOutput := mlmeOutput }

def processRadioPacket (self : MacData τ) (packet : RadioPacket) : Except Panic (MacData τ) := do
  let (frame, _rest) ← unwrap packet.unpack
  let (indication, management, pib) := self.management.processFrame self.pib frame
  let mlmeOutput ← match indication with
    | some indication => unwrap (self.mlmeOutput.send (.indication indication))
    | none => .ok self.mlmeOutput
  return { self with
    mlmeOutput := mlmeOutput
    management := management
    pib := pib
    data := self.data.processFrame pib frame }

variable [Sleep τ]

def processMlmeResponse (self : MacData τ) (key : UniqueKey) (response : Mlme.Response) :
    MacData τ :=
  { self with data := ManagementService.processMlmeResponse self.data self.pib key response }

def processMcpsRequest (self : MacData τ) (key : UniqueKey) (order : List (Option FullAddress))
    (request : Mcps.Request) : Except Panic (MacData τ) := do
  let (confirm, data) := self.data.processMcpsRequest self.pib key order request
  let mcpsOutput ← match confirm with
    | some confirm => unwrap (self.mcpsOutput.send (.confirm confirm))
    | none => .ok self.mcpsOutput
  return { self with data := data, mcpsOutput := mcpsOutput }

def processRadioResponse (self : MacData τ) : RadioResponse → Except Panic (MacData τ)
  | .initPendingDataTable key success =>
    .ok { self with data := self.data.processInitPendingTableResult key success }
  | .setPendingShort key success =>
    .ok { self with data := self.data.processSetPendingResult key success }
  | .setPendingExtended key success =>
    .ok { self with data := self.data.processSetPendingResult key success }
  | .setParam key _ success =>
    .ok { self with management := self.management.processSetParamResult key success }
  | .onPacket packet => self.processRadioPacket packet
  | .sendPacket key success => .ok { self with data := self.data.processSendResult key success }
  | _ => .ok self

def processInput (self : MacData τ) (draws : Draws) : MacInput → Except Panic (MacData τ)
  | .management action => self.processManagement draws.key action
  | .data action => self.processData action
  | .arrival (.mlmeRequest request) => self.processMlmeRequest draws.bsn draws.dsn request
  | .arrival (.mlmeResponse response) => .ok (self.processMlmeResponse draws.key response)
  | .arrival (.radio response) => self.processRadioResponse response
  | .arrival (.mcpsRequest request) => self.processMcpsRequest draws.key draws.queues request

/- The management service comes first, then the data service, then the input streams. -/
def pollNextInput (self : MacData τ) (visit : Visit) :
    Option (Except Panic (Poll MacInput) × MacData τ) :=
  match self.management.pollAction visit.cx visit.key visit.params with
  | (.ready action, management) =>
    some (.ok (.ready (.management action)), { self with management := management })
  | (.pending, management) =>
    match self.data.pollAction self.pib visit.cx visit.key visit.rounds with
    | none => none
    | some (.ready action, data, pib) =>
      some (.ok (.ready (.data action)),
        { self with management := management, data := data, pib := pib })
    | some (.pending, data, pib) =>
      let self := { self with management := management, data := data, pib := pib }
      match visit.arrival with
      | .ready (some arrival) => some (.ok (.ready (.arrival arrival)), self)
      | .ready none => some (.error .unwrap, self)
      | .pending => some (.ok .pending, self)

end MacData

inductive MacTask (τ : Type) where
  | polling (mac : MacData τ)
  | processing (mac : MacData τ) (input : MacInput)
  | panicked (panic : Panic)

/- The two halves of the loop, and the owners of the other ends dropping theirs. -/
inductive MacEvent where
  | poll (visit : Visit)
  | process (draws : Draws)
  | dropRadioRequests
  | dropMlmeOutput
  | dropMcpsOutput
deriving DecidableEq

namespace MacTask
variable {τ : Type}

def mapMac (f : MacData τ → MacData τ) : MacTask τ → MacTask τ
  | .polling mac => .polling (f mac)
  | .processing mac input => .processing (f mac) input
  | .panicked panic => .panicked panic

variable [Sleep τ]

def step : MacTask τ → MacEvent → Option (MacTask τ × Unit)
  | .polling mac, .poll visit =>
    match mac.pollNextInput visit with
    | some (.ok (.ready input), mac) => some (.processing mac input, ())
    | some (.ok .pending, mac) => some (.polling mac, ())
    | some (.error panic, _) => some (.panicked panic, ())
    | none => none
  | .processing mac input, .process draws =>
    match mac.processInput draws input with
    | .ok mac => some (.polling mac, ())
    | .error panic => some (.panicked panic, ())
  | task, .dropRadioRequests =>
    some (task.mapMac fun mac => { mac with radioRequests := mac.radioRequests.close }, ())
  | task, .dropMlmeOutput =>
    some (task.mapMac fun mac => { mac with mlmeOutput := mac.mlmeOutput.close }, ())
  | task, .dropMcpsOutput =>
    some (task.mapMac fun mac => { mac with mcpsOutput := mac.mcpsOutput.close }, ())
  | _, _ => none

end MacTask

def Indicates (pib : PIB) (frame : Frame) : Prop :=
  match frame.frameType with
  | .command .beaconRequest => pib.macBeaconAutoRespond = false
  | .command (.associationRequest _) =>
    pib.macAssociationPermit = true ∧ frame.destination = some pib.getFullShortAddress ∧
      ∃ panId address, frame.source = some ⟨panId, .extended address⟩
  | _ => False

theorem associationRequest_reported_iff {pib : PIB} {frame : Frame} {c : CapabilityInformation} :
    (ManagementService.processFrameAssociationRequest pib frame c).isSome ↔
      pib.macAssociationPermit = true ∧ frame.destination = some pib.getFullShortAddress ∧
        ∃ panId address, frame.source = some ⟨panId, .extended address⟩ := by
  unfold ManagementService.processFrameAssociationRequest
  split
  · simp_all
  split
  · simp_all
  split
  · simp_all
  · rename_i hpermit hdestination hsource
    refine iff_of_false (by simp) ?_
    rintro ⟨-, -, panId, address, hs⟩
    exact hsource panId address hs

theorem beaconRequest_reported_iff {management : ManagementService} {pib : PIB} {frame : Frame} :
    (management.processFrameBeaconRequest pib frame).1.isSome ↔
      pib.macBeaconAutoRespond = false := by
  unfold ManagementService.processFrameBeaconRequest
  split
  · rename_i hrespond
    simp [hrespond]
  · rename_i hrespond
    simpa using hrespond

theorem indicates_iff (management : ManagementService) {pib : PIB} {frame : Frame} :
    (management.processFrame pib frame).1.isSome ↔ Indicates pib frame := by
  unfold ManagementService.processFrame Indicates
  cases frame.frameType with
  | command command =>
    cases command with
    | beaconRequest => exact beaconRequest_reported_iff
    | associationRequest c => exact associationRequest_reported_iff
    | _ => simp
  | _ => simp

instance (pib : PIB) (frame : Frame) : Decidable (Indicates pib frame) :=
  decidable_of_iff (((ManagementService.new pib).processFrame pib frame).1.isSome = true)
    (indicates_iff _)

namespace Sink
variable {α : Type}

theorem send_ok_iff {self : Sink α} (item : α) :
    (∃ self', self.send item = .ok self') ↔ self.closed = false := by
  unfold send
  split
  · rename_i hclosed
    simp [hclosed]
  · rename_i hopen
    simpa using hopen

end Sink

namespace MacData
variable {τ : Type}

def Unmoved (packet : RadioPacket) (self self' : MacData τ) : Prop :=
  ∀ e, packet.unpack = .error e →
    self'.pib = self.pib ∧ self'.management = self.management ∧ self'.data = self.data

def Takes (self : MacData τ) (packet : RadioPacket) : Prop :=
  ∃ frame rest, packet.unpack = .ok (frame, rest) ∧
    (Indicates self.pib frame → self.mlmeOutput.closed = false)

instance (self : MacData τ) (packet : RadioPacket) : Decidable (self.Takes packet) :=
  match h : packet.unpack with
  | .error e => .isFalse fun ⟨_, _, hu, _⟩ => nomatch h.symm.trans hu
  | .ok (frame, rest) =>
    decidable_of_iff (Indicates self.pib frame → self.mlmeOutput.closed = false)
      ⟨fun ht => ⟨frame, rest, h, ht⟩, fun ⟨_, _, hu, ht⟩ => by
        obtain ⟨rfl, rfl⟩ := Prod.mk.inj (Except.ok.inj (h.symm.trans hu))
        exact ht⟩

theorem processRadioPacket_rejected {self : MacData τ} {packet : RadioPacket} {e : UnpackError}
    (he : packet.unpack = .error e) : self.processRadioPacket packet = .error .unwrap := by
  unfold processRadioPacket
  rw [he]
  rfl

theorem processRadioPacket_accepted {self : MacData τ} {packet : RadioPacket} {frame : Frame}
    {rest : List UInt8} (hu : packet.unpack = .ok (frame, rest)) :
    (∃ self', self.processRadioPacket packet = .ok self') ↔
      (Indicates self.pib frame → self.mlmeOutput.closed = false) := by
  rw [← indicates_iff self.management]
  unfold processRadioPacket
  rw [hu]
  cases hi : (self.management.processFrame self.pib frame).1 with
  | none => simp [unwrap, hi, bind, Except.bind, pure, Except.pure]
  | some indication =>
    rw [← Sink.send_ok_iff (.indication indication)]
    cases hs : self.mlmeOutput.send (.indication indication) with
    | error e => simp [unwrap, hi, hs, bind, Except.bind]
    | ok sink => simp [unwrap, hi, hs, bind, Except.bind, pure, Except.pure]

/-- In every state the MAC survives the packets that it can take, and no others. -/
theorem survives_iff {self : MacData τ} {packet : RadioPacket} :
    (∃ self', self.processRadioPacket packet = .ok self' ∧ Unmoved packet self self') ↔
      self.Takes packet := by
  unfold Takes Unmoved
  cases hu : packet.unpack with
  | error e => simp [processRadioPacket_rejected hu]
  | ok r =>
    obtain ⟨frame, rest⟩ := r
    constructor
    · rintro ⟨self', hp, -⟩
      exact ⟨frame, rest, rfl, (processRadioPacket_accepted hu).mp ⟨self', hp⟩⟩
    · rintro ⟨frame', rest', heq, ht⟩
      obtain ⟨rfl, rfl⟩ := Prod.mk.inj (Except.ok.inj heq)
      obtain ⟨self', hp⟩ := (processRadioPacket_accepted hu).mpr ht
      exact ⟨self', hp, fun e he => nomatch he⟩

end MacData

namespace MacTask
open Runs
variable {τ : Type}

abbrev Step (τ : Type) := Transition (MacTask τ) MacEvent Unit

def received (t : Step τ) : Option (MacData τ × RadioPacket) :=
  match t.before, t.event with
  | .processing mac (.arrival (.radio (.onPacket packet))), .process _ => some (mac, packet)
  | _, _ => none

/-- The packet of the step, if any, brings about no panic, and if the decoder rejects it then it
changes neither the PIB nor the services. -/
def Survived (t : Step τ) : Prop :=
  ∀ r ∈ received t, ∃ mac', t.after = .polling mac' ∧ r.1.Unmoved r.2 mac'

variable [Sleep τ]

theorem received_after {t : Step τ} (hs : step t.before t.event = some (t.after, t.output))
    {mac : MacData τ} {packet : RadioPacket} (hr : (mac, packet) ∈ received t)
    (mac' : MacData τ) :
    t.after = .polling mac' ↔ mac.processRadioPacket packet = .ok mac' := by
  obtain ⟨before, event, output, after⟩ := t
  unfold received at hr
  split at hr
  · rename_i draws hbefore hevent
    obtain ⟨rfl, rfl⟩ := Prod.mk.inj (Option.some.inj hr)
    simp only at hbefore hevent hs ⊢
    subst hbefore hevent
    simp only [step, MacData.processInput, MacData.processRadioResponse] at hs
    split at hs
    · rename_i hp
      obtain ⟨rfl, -⟩ := Prod.mk.inj (Option.some.inj hs)
      simp [hp]
    · rename_i hp
      obtain ⟨rfl, -⟩ := Prod.mk.inj (Option.some.inj hs)
      simp [hp]
  · cases hr

theorem survived_iff {t : Step τ} (hs : step t.before t.event = some (t.after, t.output)) :
    Survived t ↔ ∀ r ∈ received t, r.1.Takes r.2 := by
  refine forall₂_congr fun r hr => ?_
  rw [← MacData.survives_iff]
  exact exists_congr fun mac' => and_congr_left' (received_after hs hr mac')

/-- A run survives all the packets that it receives exactly if it can take each of them when it
comes. -/
theorem packets_survived_iff
    {rely : History (MacTask τ) MacEvent Unit → MacTask τ → MacEvent → Prop}
    {pib : PIB} {h : History (MacTask τ) MacEvent Unit} {task : MacTask τ}
    (hr : Run step rely (.polling (.new pib)) h task) :
    (∀ t ∈ h, Survived t) ↔ ∀ t ∈ h, ∀ r ∈ received t, r.1.Takes r.2 :=
  forall₂_congr fun _ ht => survived_iff (hr.step_of_mem ht)

/- The MAC sends its parameters and initialises its pending table, then it receives a packet. -/
def receiving (packet : RadioPacket) : List MacEvent :=
  [(0, [.channel], .pending), (1, [.panId], .pending), (2, [.shortAddress], .pending),
    (3, [.rxMode], .pending), (4, [.txPower], .pending), (5, [], .pending),
    (6, [], .ready (some (.radio (.onPacket packet))))].flatMap
      fun (key, params, arrival) =>
        [.poll ⟨0, ⟨key⟩, params, [[]], arrival⟩, .process ⟨⟨0⟩, [], 0, 0⟩]

def anyTime (_ : History (MacTask SleepTimer) MacEvent Unit) (_ : MacTask SleepTimer)
    (_ : MacEvent) : Prop := True

instance (h : History (MacTask SleepTimer) MacEvent Unit) (task : MacTask SleepTimer)
    (e : MacEvent) : Decidable (anyTime h task e) :=
  inferInstanceAs (Decidable True)

def playedPacket (packet : RadioPacket) :
    History (MacTask SleepTimer) MacEvent Unit × MacTask SleepTimer :=
  replay step anyTime (.polling (.new (PIB.new ⟨1⟩ 11 0 0 0))) (receiving packet)

theorem playedPacket_run (packet : RadioPacket) :
    Run step anyTime (.polling (.new (PIB.new ⟨1⟩ 11 0 0 0))) (playedPacket packet).1
      (playedPacket packet).2 :=
  run_replay _

def beaconRequestPacket : RadioPacket := ⟨[0x03, 0x08, 1, 0xFF, 0xFF, 0xFF, 0xFF, 7], 0, 0⟩
def securedPacket : RadioPacket := ⟨[0x09, 0x08, 1, 0xFF, 0xFF, 0xFF, 0xFF], 0, 0⟩

theorem packets_survived_iff_beaconRequest :
    (∃ t ∈ (playedPacket beaconRequestPacket).1, (received t).isSome) ∧
      ∀ t ∈ (playedPacket beaconRequestPacket).1, Survived t :=
  ⟨by decide, (packets_survived_iff (playedPacket_run beaconRequestPacket)).mpr (by decide)⟩

/-- A frame that the decoder does not implement ends the task. -/
theorem secured_packet_panics : ¬ ∀ (h : History (MacTask SleepTimer) MacEvent Unit)
    (task : MacTask SleepTimer), Run step anyTime (.polling (.new (PIB.new ⟨1⟩ 11 0 0 0))) h task →
      ∀ t ∈ h, Survived t := by
  intro hall
  have hno : ∃ t ∈ (playedPacket securedPacket).1, ¬ ∀ r ∈ received t, r.1.Takes r.2 := by decide
  obtain ⟨t, ht, hno⟩ := hno
  have hrun := playedPacket_run securedPacket
  exact hno ((survived_iff (hrun.step_of_mem ht)).mp (hall _ _ hrun t ht))

end MacTask
end ZigbeeStack
