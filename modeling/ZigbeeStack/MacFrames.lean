import ZigbeeStack.FrameRoundTrip
import ZigbeeStack.MacRuns

/-! Every frame that the MAC decides to send can be packed, and what is sent unpacks to it. -/
namespace ZigbeeStack

def FrameType.Sendable : FrameType → Prop
  | .beacon b => b.beaconOrder ≤ 0xF ∧ b.superframeOrder ≤ 0xF ∧ b.finalCapSlot ≤ 0xF
  | .command c => ∀ capability, c ≠ .associationRequest capability
  | _ => True

theorem FrameType.Sendable.packs {frameType : FrameType} (h : frameType.Sendable)
    (v : List UInt8) :
    ∃ target, PackTagged.packData frameType (VecPackTarget.mk v) = .ok target := by
  cases frameType with
  | beacon b =>
    obtain ⟨header, hp, -⟩ := (roundTrips_field b.superframe).prod
      ((roundTrips_word (0 : UInt8)).prod (roundTrips_word (0 : UInt8)))
    refine ⟨⟨v ++ header ++ b.payload.bytes⟩, ?_⟩
    change (Pack.pack b (VecPackTarget.mk v) : Except (PackError VecPackError) _) = _
    simp only [Pack.pack]
    rw [if_neg (by simpa using h.1), if_neg (by simpa using h.2.1), if_neg (by simpa using h.2.2)]
    change (Pack.pack (b.superframe, (0 : UInt8), (0 : UInt8)) (VecPackTarget.mk v) >>= _) = _
    rw [hp, ok_bind]
    rfl
  | command c =>
    obtain ⟨bytes, hp, -⟩ := roundTrips_command c h
    exact ⟨_, hp v⟩
  | _ => exact ⟨_, rfl⟩

theorem Frame.wire_of_sendable {f : Frame} (h : f.frameType.Sendable) :
    ∃ target, Pack.pack f VecPackTarget.new = .ok target ∧
      (Pack.unpack target.bytes : Except UnpackError (Frame × List UInt8)) = .ok (f, []) := by
  obtain ⟨header, hp, -⟩ := f.unpack_header
  obtain ⟨target, ht⟩ := h.packs ([] ++ header)
  have hpack : Pack.pack f VecPackTarget.new = .ok target := (hp []).trans ht
  refine ⟨target, hpack, f.survivesWire_of_body (survives_frameType f.frameType ?_) target hpack⟩
  intro capability hf
  rw [hf] at h
  exact h capability rfl

namespace DataService
variable {τ : Type}

def Sendable (s : DataService τ) : Prop := ∀ d, ∀ r ∈ s.requestsAt d, r.content.Sendable

theorem sendable_new : Sendable (new : DataService τ) :=
  fun _ _ hr => absurd hr List.not_mem_nil

theorem sendable_of_submission {pib : PIB} {e : Event} {r : DataRequest}
    (h : submission pib e = some r) : r.content.Sendable := by
  unfold submission at h
  split at h
  · cases h
    trivial
  · cases h
    exact fun capability => by simp
  · cases h

theorem Sendable.keeps {s s' : DataService τ} (hi : Sendable s)
    (hk : ∀ d, Keeps (s.queueAt d) (s'.queueAt d)) : Sendable s' :=
  fun d r hr => hi d r ((hk d).requests r hr)

variable [Sleep τ]

theorem Sendable.quiet {s s' : DataService τ × PIB} {e : Event} (hi : Sendable s.1)
    (hq : Quiet e s s') : Sendable s'.1 := by
  intro d r hr
  rcases (hq.queues d).requests hr with hr | ⟨hsub, -⟩
  · exact hi d r hr
  · exact sendable_of_submission hsub

theorem Sendable.final {cx : Waker} {key : UniqueKey} {a : DataService τ × PIB}
    {b : Poll DataServiceAction × DataService τ × PIB} (hi : Sendable a.1)
    (hf : Final cx key a b) :
    Sendable b.2.1 ∧ ∀ k f, b.1 = .ready (.sendFrame k f) → f.frameType.Sendable := by
  rcases hf.cases with ⟨k, f, d, r, haction, hs⟩ | ⟨hno, -, hk⟩
  · refine ⟨?_, fun k' f' haction' => ?_⟩
    · unfold Sendable
      rw [hs.requestsAt]
      exact hi
    · rw [haction] at haction'
      cases haction'
      obtain ⟨morePending, rfl⟩ := hs.frame
      exact hi d r (List.mem_of_mem_head? hs.front)
  · exact ⟨hi.keeps hk, fun k f haction => absurd haction (hno k f)⟩

/-- A poll sends only what waited, so what it sends is sendable. -/
theorem Sendable.poll {s s' : DataService τ} {pib pib' : PIB} {cx : Waker} {key : UniqueKey}
    {rounds : List (List (Option FullAddress × Instant))} {action : Poll DataServiceAction}
    (hi : Sendable s) (h : s.pollAction pib cx key rounds = some (action, s', pib')) :
    Sendable s' ∧ ∀ k f, action = .ready (.sendFrame k f) → f.frameType.Sendable :=
  pollAction_rule (P := fun a => Sendable a.1)
    (Q := fun b => Sendable b.2.1 ∧
      ∀ k f, b.1 = .ready (.sendFrame k f) → f.frameType.Sendable)
    (fun _ _ hs hi => hi.keeps hs.keeps.2) (fun _ _ hf hi => hi.final hf) rounds hi h

end DataService

namespace ManagementService

def Sendable (self : ManagementService) : Prop := ∀ f ∈ self.outgoing, f.frameType.Sendable

@[simp] theorem updateRadioParameter_outgoing (self : ManagementService) (parameter : RadioParam)
    (value : RadioParamValue) :
    (self.updateRadioParameter parameter value).outgoing = self.outgoing := by
  unfold updateRadioParameter
  repeat' split
  all_goals rfl

@[simp] theorem updateRadioParameters_outgoing (self : ManagementService) (pib : PIB) :
    (self.updateRadioParameters pib).outgoing = self.outgoing := by
  simp [updateRadioParameters]

theorem sendable_new (pib : PIB) : Sendable (new pib) := by
  simp [Sendable, new]

theorem Sendable.beacon {self : ManagementService} (hi : Sendable self) (pib : PIB)
    (request : Mlme.BeaconRequest) :
    Sendable (self.processMlmeBeaconRequest pib request).2.1 := by
  unfold processMlmeBeaconRequest
  split
  · exact hi
  · rename_i hvalid
    intro f hf
    rcases List.mem_append.mp hf with hf | hf
    · exact hi f hf
    · obtain rfl := List.mem_singleton.mp hf
      have horder : request.superframeOrder = 15 := not_not.mp fun h => hvalid (.inl h)
      exact ⟨by simp, by simp [horder], by simp⟩

theorem Sendable.request {τ : Type} {self self' : ManagementService} (hi : Sendable self)
    {pib pib' : PIB} {data data' : DataService τ} {bsn dsn : UInt8} {request : Mlme.Request}
    {confirm : Mlme.Confirm}
    (h : self.processMlmeRequest pib data bsn dsn request = (confirm, self', data', pib')) :
    Sendable self' := by
  cases request with
  | beacon request =>
    cases h
    exact hi.beacon pib request
  | reset request =>
    cases h
    exact sendable_new _
  | start request =>
    simp only [processMlmeRequest, Prod.mk.injEq] at h
    obtain ⟨-, rfl, -, -⟩ := h
    unfold processMlmeStartRequest
    split
    · exact hi
    · split
      · exact hi
      · simpa [Sendable] using hi
  | get request =>
    cases h
    exact hi
  | set request =>
    cases h
    simpa [Sendable, processMlmeSetRequest] using hi

theorem Sendable.frame {self : ManagementService} (hi : Sendable self) (pib : PIB) (f : Frame) :
    Sendable (self.processFrame pib f).2.1 := by
  unfold processFrame
  split
  · unfold processFrameBeaconRequest
    split
    · exact hi.beacon pib _
    · exact hi
  · exact hi
  · exact hi

theorem pollRadioParamUpdate_outgoing (self : ManagementService) (key : UniqueKey)
    (order : List RadioParam) :
    (self.pollRadioParamUpdate key order).2.outgoing = self.outgoing ∧
      ∀ f, (self.pollRadioParamUpdate key order).1 ≠ .ready (.sendFrame f) := by
  induction order with
  | nil => exact ⟨rfl, by simp [pollRadioParamUpdate]⟩
  | cons param rest ih =>
    unfold pollRadioParamUpdate
    split
    · split
      · exact ⟨rfl, by simp⟩
      · exact ih
    · exact ih

theorem Sendable.poll {self self' : ManagementService} (hi : Sendable self) {cx : Waker}
    {key : UniqueKey} {order : List RadioParam} {action : Poll ManagementServiceAction}
    (h : self.pollAction cx key order = (action, self')) :
    Sendable self' ∧ ∀ f, action = .ready (.sendFrame f) → f.frameType.Sendable := by
  obtain ⟨hsame, hno⟩ := self.pollRadioParamUpdate_outgoing key order
  unfold pollAction at h
  cases hp : self.pollRadioParamUpdate key order with
  | mk update polled =>
    rw [hp] at h hsame hno
    replace hsame : polled.outgoing = self.outgoing := hsame
    replace hi : Sendable polled := by
      unfold Sendable
      rwa [hsame]
    cases update with
    | ready update =>
      cases h
      exact ⟨hi, fun f heq => absurd heq (hno f)⟩
    | pending =>
      dsimp only at h
      split at h
      · rename_i outgoing rest hout
        cases h
        unfold Sendable at hi
        rw [hout] at hi
        obtain ⟨hfirst, hrest⟩ := List.forall_mem_cons.mp hi
        refine ⟨hrest, fun f heq => ?_⟩
        cases heq
        exact hfirst
      · cases h
        exact ⟨hi, by simp⟩

end ManagementService

def MacInput.frame : MacInput → Option Frame
  | .management (.sendFrame f) => some f
  | .data (.sendFrame _ f) => some f
  | _ => none

namespace MacData
variable {τ : Type}

structure Sendable (mac : MacData τ) : Prop where
  management : mac.management.Sendable
  data : mac.data.Sendable

theorem sendable_new (pib : PIB) : Sendable (new pib : MacData τ) :=
  ⟨ManagementService.sendable_new pib, DataService.sendable_new⟩

variable [Sleep τ]

theorem Sendable.complete {self : MacData τ} (hi : Sendable self) (kind : CommandKind)
    (key : UniqueKey) (success : Bool) : Sendable (self.complete kind key success) := by
  cases kind with
  | setParam => exact ⟨hi.management, hi.data⟩
  | initPendingTable => exact ⟨hi.management, hi.data⟩
  | setPending => exact ⟨hi.management, hi.data⟩
  | sendPacket =>
    exact ⟨hi.management,
      hi.data.quiet (DataService.quiet_of_sendResult (self.data, self.pib) key success)⟩

theorem Sendable.processed {self self' : MacData τ} {draws : Draws} {input : MacInput}
    (hi : Sendable self) (h : Processed self draws input self') : Sendable self' := by
  cases h with
  | sends _ hm hd _ => exact ⟨hm ▸ hi.management, hd ▸ hi.data⟩
  | request hr =>
    refine ⟨hi.management.request hr, ?_⟩
    rcases ManagementService.processMlmeRequest_data hr with hd | ⟨-, hd⟩
    · rw [hd]
      exact hi.data
    · rw [hd]
      exact DataService.sendable_new
  | @response response =>
    exact ⟨hi.management,
      hi.data.quiet (DataService.quiet_of_mlmeResponse (self.data, self.pib) draws.key response)⟩
  | @mcps request self' hm _ hd =>
    refine ⟨hm ▸ hi.management, ?_⟩
    rw [hd]
    exact hi.data.quiet
      (DataService.quiet_of_mcpsRequest (self.data, self.pib) draws.key draws.queues request)
  | completes _ => exact hi.complete _ _ _
  | @packet packet frame indication self' hf hd =>
    refine ⟨?_, ?_⟩
    · have hm := hi.management.frame self.pib frame
      rwa [hf] at hm
    · rw [hd]
      exact hi.data.quiet (DataService.quiet_of_frame (self.data, self'.pib) frame)
  | ignores _ => exact hi

theorem Sendable.polled {self self' : MacData τ} {visit : Visit} {result : Poll MacInput}
    (hi : Sendable self) (h : Polled self visit result self') :
    Sendable self' ∧
      ∀ input f, result = .ready input → input.frame = some f → f.frameType.Sendable := by
  cases h with
  | @management action management hm =>
    obtain ⟨hm, hsent⟩ := hi.management.poll hm
    refine ⟨⟨hm, hi.data⟩, fun input f hinput hf => ?_⟩
    cases hinput
    cases action with
    | setParam _ _ _ => cases hf
    | sendFrame f' =>
      cases hf
      exact hsent f rfl
  | @data management action data pib hm hd =>
    obtain ⟨hd, hsent⟩ := hi.data.poll hd
    refine ⟨⟨(hi.management.poll hm).1, hd⟩, fun input f hinput hf => ?_⟩
    cases hinput
    cases action with
    | sendFrame k f' =>
      cases hf
      exact hsent k f rfl
    | _ => cases hf
  | passes hm hd harrival =>
    refine ⟨⟨(hi.management.poll hm).1, (hi.data.poll hd).1⟩, fun input f hinput hf => ?_⟩
    obtain ⟨arrival, rfl⟩ := harrival input hinput
    cases hf

end MacData

namespace MacTask
open Runs
variable {τ : Type}

def Sendable : MacTask τ → Prop
  | .polling mac => mac.Sendable
  | .processing mac input => mac.Sendable ∧ ∀ f, input.frame = some f → f.frameType.Sendable
  | .panicked _ => True

variable [Sleep τ]

theorem Sendable.step {task task' : MacTask τ} {e : MacEvent} {o : Unit} (hi : Sendable task)
    (h : step task e = some (task', o)) : Sendable task' := by
  cases moves h with
  | waits hp => exact (MacData.Sendable.polled hi hp).1
  | takes hp =>
    obtain ⟨hmac, hsent⟩ := MacData.Sendable.polled hi hp
    exact ⟨hmac, fun f hf => hsent _ f rfl hf⟩
  | processes hp => exact hi.1.processed hp
  | @closes _ _ f _ _ hrest =>
    have hsame : ∀ mac : MacData τ, mac.Sendable → (f mac).Sendable := by
      intro mac hmac
      obtain ⟨hm, hd, -⟩ := hrest mac
      exact ⟨hm ▸ hmac.management, hd ▸ hmac.data⟩
    cases task with
    | polling mac => exact hsame mac hi
    | processing mac input => exact ⟨hsame mac hi.1, hi.2⟩
    | panicked panic => trivial
  | panics => trivial

/-- Whatever the MAC is about to send is packed without an error, and its bytes unpack to it with
nothing left over. -/
theorem sent_frames_survive_wire
    {rely : History (MacTask τ) MacEvent Unit → MacTask τ → MacEvent → Prop} {pib : PIB}
    {h : History (MacTask τ) MacEvent Unit} {mac : MacData τ} {input : MacInput}
    (hr : Run step rely (.polling (.new pib)) h (.processing mac input)) {frame : Frame}
    (hf : input.frame = some frame) :
    ∃ target, Pack.pack frame VecPackTarget.new = .ok target ∧
      (Pack.unpack target.bytes : Except UnpackError (Frame × List UInt8)) = .ok (frame, []) := by
  have hstart : Sendable (.polling (.new pib) : MacTask τ) := MacData.sendable_new pib
  have hi : Sendable (.processing mac input) :=
    Run.invariant (P := fun _ task => Sendable task) hstart
      (fun _ _ _ _ _ _ hi _ hs => Sendable.step hi hs) hr
  exact Frame.wire_of_sendable (hi.2 frame hf)

def beaconAsked : List MacEvent :=
  (receiving beaconRequestPacket).take 12 ++
    [.poll ⟨0, ⟨6⟩, [], [[]], .ready (some (.mlmeRequest (.beacon ⟨.beacon, 11, 0, 15, none⟩)))⟩,
      .process ⟨⟨6⟩, [], 0, 0⟩, .poll ⟨0, ⟨6⟩, [], [[]], .pending⟩]

def playedBeacon : History (MacTask SleepTimer) MacEvent Unit × MacTask SleepTimer :=
  replay MacTask.step anyTime (.polling (.new (PIB.new ⟨1⟩ 11 0 0 0))) beaconAsked

theorem playedBeacon_run : Run MacTask.step anyTime (.polling (.new (PIB.new ⟨1⟩ 11 0 0 0)))
    playedBeacon.1 playedBeacon.2 :=
  run_replay beaconAsked

def firstBeacon : Frame where
  framePending := false
  acknowledgeRequest := false
  sequenceNumber := some 0
  destination := none
  source := some ⟨PANID.broadcast, .short .invalid⟩
  frameType := .beacon ⟨15, 15, 15, false, false, false, ⟨[]⟩⟩

theorem sent_frames_survive_wire_beacon :
    (∃ mac, playedBeacon.2 = .processing mac (.management (.sendFrame firstBeacon))) ∧
      ∃ target, Pack.pack firstBeacon VecPackTarget.new = .ok target ∧
        (Pack.unpack target.bytes : Except UnpackError (Frame × List UInt8)) =
          .ok (firstBeacon, []) := by
  have htask : ∃ mac,
      playedBeacon.2 = .processing mac (.management (.sendFrame firstBeacon)) := ⟨_, rfl⟩
  refine ⟨htask, ?_⟩
  obtain ⟨mac, hmac⟩ := htask
  exact sent_frames_survive_wire (hmac ▸ playedBeacon_run) rfl

end MacTask
end ZigbeeStack
