import Mathlib.Tactic.IntervalCases
import ZigbeeStack.CoordinatorRuns

/-! The settings of the coordinator: each request of its main loop is granted, and once it is set
up it stays so. -/
namespace ZigbeeStack
open Runs

namespace PIB

def settings (pib : PIB) : PIB := { pib with macBsn := 0, macDsn := 0 }

@[simp] theorem settings_settings (pib : PIB) : pib.settings.settings = pib.settings := rfl

@[simp] theorem settings_draw (pib : PIB) (bsn dsn : UInt8) :
    { pib with macBsn := bsn, macDsn := dsn }.settings = pib.settings := rfl

def configure (pib : PIB) : Mlme.Request → PIB
  | .reset request => if request.setDefaultPib then pib.reset 0 0 else pib
  | .start request =>
    { pib with
      phyCurrentChannel := request.channelNumber
      macPanId := request.panId
      macAssociatedPanCoord :=
        if request.panCoordinator then some (pib.macExtendedAddress, pib.macShortAddress)
        else pib.macAssociatedPanCoord }
  | .set request => (pib.set request.pibAttribute request.value).1.settings
  | .beacon _ | .get _ => pib

def Accepts (pib : PIB) : Mlme.Request → Prop
  | .reset _ => True
  | .start request => pib.macShortAddress ≠ ⟨0xFFFF⟩ ∧ request.channelPage = 0 ∧
    request.startTime = 0 ∧ request.beaconOrder = 15 ∧ request.superframeOrder = 15 ∧
    request.panCoordinator = true ∧ request.batteryLifeExtension = false
  | .set request => (pib.set request.pibAttribute request.value).2 = .ok ()
  | .get request => (pib.get request.pibAttribute).isOk = true
  | .beacon request => request.superframeOrder = 15 ∧ request.channel = pib.phyCurrentChannel ∧
    request.channelPage = 0

theorem set_settings (pib : PIB) (a : PIBProperty) (v : PIBValue) :
    (pib.settings.set a v).2 = (pib.set a v).2 ∧
      (pib.settings.set a v).1.settings = (pib.set a v).1.settings := by
  unfold set
  split <;> exact ⟨rfl, rfl⟩

end PIB

namespace Mlme

def Granted : Request → Confirm → Prop
  | .reset _, .reset result => result = .ok ()
  | .start _, .start result => result = .ok ()
  | .beacon _, .beacon result => result = .ok ()
  | .get request, .get answered result => answered = request.pibAttribute ∧ result.isOk = true
  | .set request, .set answered result => answered = request.pibAttribute ∧ result = .ok ()
  | _, _ => False

end Mlme

namespace ManagementService

theorem granted_of_accepts {τ : Type} {self : ManagementService} {pib : PIB} {data : DataService τ}
    {bsn dsn : UInt8} {request : Mlme.Request} (h : pib.settings.Accepts request) :
    Mlme.Granted request (self.processMlmeRequest pib data bsn dsn request).1 ∧
      (self.processMlmeRequest pib data bsn dsn request).2.2.2.settings =
        (pib.settings.configure request).settings := by
  cases request with
  | reset request =>
    refine ⟨rfl, ?_⟩
    simp only [processMlmeRequest, processMlmeResetRequest, PIB.configure]
    split <;> rfl
  | start request =>
    obtain ⟨hshort, hpage, htime, hbeacon, hsuperframe, hcoordinator, hbattery⟩ := h
    replace hshort : pib.macShortAddress ≠ ⟨0xFFFF⟩ := hshort
    have hvalid : ¬ (request.channelPage ≠ 0 ∨ request.startTime ≠ 0 ∨ request.beaconOrder ≠ 15 ∨
        request.superframeOrder ≠ 15 ∨ !request.panCoordinator ∨ request.batteryLifeExtension) := by
      simp [hpage, htime, hbeacon, hsuperframe, hcoordinator, hbattery]
    simp only [processMlmeRequest, processMlmeStartRequest, if_neg hshort, if_neg hvalid]
    exact ⟨rfl, rfl⟩
  | beacon request =>
    obtain ⟨hsuperframe, hchannel, hpage⟩ := h
    replace hchannel : request.channel = pib.phyCurrentChannel := hchannel
    have hvalid : ¬ (request.superframeOrder ≠ 15 ∨ request.channel ≠ pib.phyCurrentChannel ∨
        request.channelPage ≠ 0) := by
      simp [hsuperframe, hchannel, hpage]
    simp only [processMlmeRequest, processMlmeBeaconRequest, if_neg hvalid]
    exact ⟨rfl, rfl⟩
  | get request =>
    refine ⟨⟨rfl, ?_⟩, rfl⟩
    replace h : (pib.settings.get request.pibAttribute).isOk = true := h
    unfold processMlmeGetRequest
    generalize request.pibAttribute = asked at h ⊢
    cases asked <;> first | rfl | cases h
  | set request =>
    obtain ⟨hresult, hsettings⟩ := pib.set_settings request.pibAttribute request.value
    exact ⟨⟨rfl, hresult.symm.trans h⟩, hsettings.symm⟩

/-- The frames that come in leave the settings as they are. -/
theorem processFrame_settings (self : ManagementService) (pib : PIB) (frame : Frame) :
    (self.processFrame pib frame).2.2.settings = pib.settings := by
  unfold processFrame
  split
  · simp only [processFrameBeaconRequest, processMlmeBeaconRequest]
    split
    · split <;> rfl
    · rfl
  · rfl
  · rfl

end ManagementService

/-- A poll draws sequence numbers of data frames, and leaves the rest of the PIB as it is. -/
theorem DataService.pollAction_pib {τ : Type} [Sleep τ] {s s' : DataService τ}
    {pib pib' : PIB} {cx : Waker} {key : UniqueKey}
    {rounds : List (List (Option FullAddress × Instant))} {action : Poll DataServiceAction}
    (h : s.pollAction pib cx key rounds = some (action, s', pib')) :
    ∃ dsn, pib' = { pib with macDsn := dsn } := by
  refine pollAction_rule (P := fun a => ∃ dsn, a.2 = { pib with macDsn := dsn })
    (Q := fun b => ∃ dsn, b.2.2 = { pib with macDsn := dsn }) (fun a b hs ha => ?_)
    (fun a b hf ha => ?_) rounds ⟨pib.macDsn, rfl⟩ h
  · obtain ⟨hpib, -⟩ := hs.keeps
    rw [hpib]
    exact ha
  · obtain ⟨dsn, ha⟩ := ha
    rcases hf.cases with ⟨k, f, d, r, -, hsends⟩ | ⟨-, hpib, -⟩
    · exact ⟨dsn + 1, by rw [hsends.pib, ha]⟩
    · exact ⟨dsn, by rw [hpib, ha]⟩

namespace MacData
variable {τ : Type} [Sleep τ]

theorem Polled.pib {self self' : MacData τ} {visit : Visit} {result : Poll MacInput}
    (h : Polled self visit result self') : ∃ dsn, self'.pib = { self.pib with macDsn := dsn } := by
  cases h with
  | management _ => exact ⟨self.pib.macDsn, rfl⟩
  | data _ hd => exact DataService.pollAction_pib hd
  | passes _ hd _ => exact DataService.pollAction_pib hd

theorem Polled.settings {self self' : MacData τ} {visit : Visit} {result : Poll MacInput}
    (h : Polled self visit result self') : self'.pib.settings = self.pib.settings := by
  obtain ⟨dsn, hpib⟩ := h.pib
  rw [hpib]
  rfl

/-- What is processed leaves the settings as they are, requests of the MLME apart. -/
theorem processInput_settings {self self' : MacData τ} {draws : Draws} {input : MacInput}
    (h : self.processInput draws input = .ok self')
    (hinput : ∀ request, input ≠ .arrival (.mlmeRequest request)) :
    self'.pib.settings = self.pib.settings := by
  cases processed h with
  | sends _ _ _ hpib => rw [hpib]
  | request _ => exact absurd rfl (hinput _)
  | response => rfl
  | mcps _ hpib _ => rw [hpib]
  | @completes response kind key success _ => cases kind <;> rfl
  | packet hframe _ =>
    have hsame := self.management.processFrame_settings self.pib ‹Frame›
    rwa [hframe] at hsame
  | ignores _ => rfl

omit [Sleep τ] in
/-- A request fails only for want of somebody to confirm it to. -/
theorem processMlmeRequest_unclosed {self : MacData τ} (hclosed : self.mlmeOutput.closed = false)
    (bsn dsn : UInt8) (request : Mlme.Request) :
    ∃ self', self.processMlmeRequest bsn dsn request = .ok self' := by
  unfold processMlmeRequest
  simp only [Sink.send, hclosed]
  exact ⟨_, rfl⟩

end MacData

namespace Mainloop

def settings (pib : PIB) : PIB :=
  { PIB.new pib.macExtendedAddress 25 pib.phyTxPower 0 0 with
    macAssociatedPanCoord := some (pib.macExtendedAddress, ⟨0x0000⟩)
    macAssociationPermit := true
    macBeaconPayload := beaconPayload
    macPanId := ⟨0x1234⟩
    macShortAddress := ⟨0x0000⟩
    macBeaconAutoRespond := true }

def requests (beacons : List Mlme.BeaconType) : List Mlme.Request :=
  startUp ++ beacons.map fun beaconType => .beacon (beaconRequest beaconType)

def configured (pib : PIB) (requests : List Mlme.Request) : PIB :=
  requests.foldl (fun pib request => (pib.configure request).settings) pib.settings

theorem configured_startUp (pib : PIB) : configured pib startUp = settings pib := by
  simp [configured, startUp, PIB.configure, PIB.set, PIB.settings, PIB.reset, PIB.new, settings]

theorem configured_beacons (pib : PIB) (beacons : List Mlme.BeaconType) :
    configured pib (requests beacons) = settings pib := by
  have hstart : startUp.foldl (fun pib request => (pib.configure request).settings) pib.settings =
      settings pib := configured_startUp pib
  rw [requests, configured, List.foldl_append, hstart]
  induction beacons with
  | nil => rfl
  | cons _ _ ih => exact ih

/-- Each request of the main loop is acceptable when its turn comes. -/
theorem accepts_of_prefix {pib : PIB} {before : List Mlme.Request} {request : Mlme.Request}
    {beacons : List Mlme.BeaconType} (h : before ++ [request] <+: requests beacons) :
    (configured pib before).Accepts request := by
  have hbefore : before = (requests beacons).take before.length :=
    List.prefix_iff_eq_take.mp ((List.prefix_append before [request]).trans h)
  have hrequest : (requests beacons)[before.length]? = some request := by
    obtain ⟨later, h⟩ := h
    rw [← h]
    simp
  by_cases hlen : before.length < startUp.length
  · rw [requests, List.take_append_of_le_length hlen.le] at hbefore
    rw [requests, List.getElem?_append_left hlen] at hrequest
    rw [hbefore]
    generalize before.length = k at hlen hrequest ⊢
    change k < 7 at hlen
    interval_cases k <;> cases hrequest
    all_goals simp [startUp, configured, PIB.Accepts, PIB.configure, PIB.set, PIB.settings]
  · replace hlen := Nat.le_of_not_lt hlen
    have hearlier : before = requests (beacons.take (before.length - startUp.length)) := by
      rw [requests, List.take_append, List.take_of_length_le hlen, ← List.map_take] at hbefore
      exact hbefore
    rw [requests, List.getElem?_append_right hlen] at hrequest
    obtain ⟨beaconType, -, rfl⟩ := List.mem_map.mp (List.mem_of_getElem? hrequest)
    rw [hearlier, configured_beacons]
    exact ⟨rfl, rfl, rfl⟩

end Mainloop

namespace MainloopSend

def request? : MainloopSend → Option Mlme.Request
  | .mlme (.request r) => some r
  | _ => none

theorem oneService_request : OneService request? := ⟨.inl fun _ => rfl, fun _ => rfl⟩

end MainloopSend

namespace Mlme.Output

def confirm? : Mlme.Output → Option Mlme.Confirm
  | .confirm c => some c
  | .indication _ => none

def beaconType? : Mlme.Output → Option Mlme.BeaconType
  | .indication (.beaconRequest beaconType _ _) => some beaconType
  | _ => none

end Mlme.Output

namespace MacTask
variable {τ : Type}

theorem mem_mapMac {f : MacData τ → MacData τ} {task : MacTask τ} {mac' : MacData τ}
    (h : mac' ∈ (task.mapMac f).mac) : ∃ mac ∈ task.mac, f mac = mac' := by
  cases task with
  | panicked _ => cases h
  | _ => exact ⟨_, rfl, Option.some.inj h⟩

theorem eq_panicked {task : MacTask τ} (h : task.isPanicked = true) :
    ∃ panic, task = .panicked panic := by
  cases task with
  | panicked panic => exact ⟨panic, rfl⟩
  | _ => cases h

theorem isPanicked_mapMac (f : MacData τ → MacData τ) (task : MacTask τ) :
    (task.mapMac f).isPanicked = task.isPanicked := by
  cases task <;> rfl

end MacTask

namespace Coordinator
variable {τ : Type}

def requests (h : Past τ) : List Mlme.Request :=
  (flow processed h).filterMap MainloopSend.request?

def confirms (h : Past τ) : List Mlme.Confirm := (flow told h).filterMap Mlme.Output.confirm?

theorem request_answers (outputs : List Mlme.Output) :
    (outputs.flatMap answers).filterMap MainloopSend.request? =
      (outputs.filterMap Mlme.Output.beaconType?).map fun beaconType =>
        .beacon (Mainloop.beaconRequest beaconType) := by
  induction outputs with
  | nil => rfl
  | cons output rest ih =>
    rw [List.flatMap_cons, List.filterMap_append, ih]
    cases output with
    | confirm _ => rfl
    | indication i => cases i <;> rfl

structure SetUp (pib : PIB) (h : Past τ) (w : Coordinator τ) : Prop where
  granted : List.Forall₂ Mlme.Granted (requests h) (confirms h)
  settings : ∀ mac ∈ w.mac.mac, mac.pib.settings = Mainloop.configured pib (requests h)
  unclosed : ∀ mac ∈ w.mac.mac, mac.mlmeOutput.closed = false
  running : w.mac.isPanicked = false → w.mainloop.isRunning = true

theorem setUp_start (pib : PIB) : SetUp pib [] (start pib : Coordinator τ) where
  granted := .nil
  settings mac hmac := by
    cases hmac
    rfl
  unclosed mac hmac := by
    cases hmac
    rfl
  running _ := rfl

theorem SetUp.keeps {pib : PIB} {h : Past τ} {w w' : Coordinator τ} {t : Step τ}
    (hi : SetUp pib h w) (hrequest : (processed t).filterMap MainloopSend.request? = [])
    (hconfirm : (told t).filterMap Mlme.Output.confirm? = [])
    (hmac : ∀ mac' ∈ w'.mac.mac, ∃ mac ∈ w.mac.mac, mac'.pib.settings = mac.pib.settings ∧
      mac'.mlmeOutput.closed = mac.mlmeOutput.closed)
    (hrunning : w'.mac.isPanicked = false → w.mac.isPanicked = false ∧
      (w.mainloop.isRunning = true → w'.mainloop.isRunning = true)) : SetUp pib (t :: h) w' := by
  have hrequests : requests (t :: h) = requests h := by simp [requests, hrequest]
  have hconfirms : confirms (t :: h) = confirms h := by simp [confirms, hconfirm]
  refine ⟨?_, fun mac' hmac' => ?_, fun mac' hmac' => ?_, fun hpanic => ?_⟩
  · rw [hrequests, hconfirms]
    exact hi.granted
  · obtain ⟨mac, hmem, hsettings, -⟩ := hmac mac' hmac'
    rw [hrequests, hsettings, hi.settings mac hmem]
  · obtain ⟨mac, hmem, -, hclosed⟩ := hmac mac' hmac'
    rw [hclosed, hi.unclosed mac hmem]
  · obtain ⟨hbefore, hruns⟩ := hrunning hpanic
    exact hruns (hi.running hbefore)

theorem SetUp.grants {pib : PIB} {h : Past τ} {w w' : Coordinator τ} {t : Step τ}
    (hi : SetUp pib h w) {request : Mlme.Request} {confirm : Mlme.Confirm}
    (hrequest : (processed t).filterMap MainloopSend.request? = [request])
    (hconfirm : (told t).filterMap Mlme.Output.confirm? = [confirm])
    (hgranted : Mlme.Granted request confirm)
    (hmac : ∀ mac' ∈ w'.mac.mac, mac'.pib.settings =
      ((Mainloop.configured pib (requests h)).configure request).settings ∧
        mac'.mlmeOutput.closed = false)
    (hrunning : w'.mainloop.isRunning = true) : SetUp pib (t :: h) w' := by
  have hrequests : requests (t :: h) = requests h ++ [request] := by simp [requests, hrequest]
  have hconfirms : confirms (t :: h) = confirms h ++ [confirm] := by simp [confirms, hconfirm]
  refine ⟨?_, fun mac' hmac' => ?_, fun mac' hmac' => (hmac mac' hmac').2, fun _ => hrunning⟩
  · rw [hrequests, hconfirms]
    exact List.rel_append hi.granted (.cons hgranted .nil)
  · rw [hrequests, Mainloop.configured, List.foldl_append, (hmac mac' hmac').1]
    rfl

theorem request?_inHand {mac : MacData τ} {input : MacInput}
    (hinput : ∀ request, input ≠ .arrival (.mlmeRequest request)) (draws : Draws) :
    (MacTask.processing mac input).inHand.filterMap MainloopSend.request? = [] ∧
      (mac.tells draws input).toList.filterMap Mlme.Output.confirm? = [] := by
  match input, hinput with
  | .management _, _ | .data _, _ | .arrival (.mlmeResponse _), _ | .arrival (.mcpsRequest _), _ =>
    exact ⟨rfl, rfl⟩
  | .arrival (.mlmeRequest request), hinput => exact absurd rfl (hinput request)
  | .arrival (.radio response), _ =>
    cases response with
    | onPacket packet =>
      refine ⟨rfl, ?_⟩
      simp only [MacData.tells]
      split
      · rename_i frame _ _
        cases (mac.management.processFrame mac.pib frame).1 <;> rfl
      · rfl
    | _ => exact ⟨rfl, rfl⟩

variable [Sleep τ]

theorem requests_of_run {rely : Past τ → Coordinator τ → Event → Prop} {pib : PIB} {h : Past τ}
    {w : Coordinator τ} (hr : Run step rely (start pib) h w) (hw : w.mainloop.isRunning = true) :
    requests h ++ w.onTheWay.filterMap MainloopSend.request? =
      Mainloop.requests ((flow told h).filterMap Mlme.Output.beaconType?) := by
  have hflow := flow_of_run hr hw MainloopSend.oneService_request
  rw [List.filterMap_append, List.filterMap_append, request_answers] at hflow
  exact hflow

/-- The request in hand is the main loop's next. -/
theorem SetUp.next {rely : Past τ → Coordinator τ → Event → Prop} {pib : PIB} {h : Past τ}
    {w : Coordinator τ} (hr : Run step rely (start pib) h w) (hi : SetUp pib h w)
    {mac : MacData τ} {request : Mlme.Request}
    (hmac : w.mac = .processing mac (.arrival (.mlmeRequest request))) :
    requests h ++ [request] <+:
      Mainloop.requests ((flow told h).filterMap Mlme.Output.beaconType?) := by
  rw [← requests_of_run hr (hi.running (by rw [hmac]; rfl)), onTheWay, hmac]
  simp [MacTask.inHand, MainloopSend.request?]

theorem SetUp.accepts {rely : Past τ → Coordinator τ → Event → Prop} {pib : PIB} {h : Past τ}
    {w : Coordinator τ} (hr : Run step rely (start pib) h w) (hi : SetUp pib h w)
    {mac : MacData τ} {request : Mlme.Request}
    (hmac : w.mac = .processing mac (.arrival (.mlmeRequest request))) :
    mac.pib.settings.Accepts request := by
  rw [hi.settings mac (by rw [hmac]; rfl)]
  exact Mainloop.accepts_of_prefix (hi.next hr hmac)

theorem SetUp.step {rely : Past τ → Coordinator τ → Event → Prop} {pib : PIB} {h : Past τ}
    {w w' : Coordinator τ} {e : Event} {o : Unit} (hr : Run step rely (start pib) h w)
    (hi : SetUp pib h w) (hs : w.step e = some (w', o)) : SetUp pib (⟨w, e, o, w'⟩ :: h) w' := by
  cases moves hs with
  | @polls cx key params rounds radio mac task hmac htask =>
    refine hi.keeps rfl rfl (fun mac' hmac' => ?_) fun hpanic => ⟨by rw [hmac]; rfl, ?_⟩
    · refine ⟨mac, by rw [hmac]; rfl, ?_⟩
      cases MacTask.moves htask with
      | waits hp =>
        cases hmac'
        exact ⟨hp.settings, by rw [hp.mlmeOutput]⟩
      | takes hp =>
        cases hmac'
        exact ⟨hp.settings, by rw [hp.mlmeOutput]⟩
      | closes hno _ _ => exact absurd rfl (hno _)
      | panics => cases hmac'
    · unfold taken
      split <;> exact id
  | @processes draws mac input mac' hmac hp =>
    have hmem : mac ∈ w.mac.mac := by
      rw [hmac]
      rfl
    have hclosed := (MacData.processInput_mlmeOutput hp).2
    by_cases hinput : ∃ request, input = .arrival (.mlmeRequest request)
    · obtain ⟨request, rfl⟩ := hinput
      cases MacData.processed hp with
      | sends hno _ _ _ => exact absurd rfl (hno _)
      | request heq =>
        obtain ⟨hgranted, hsettings⟩ := ManagementService.granted_of_accepts (hi.accepts hr hmac)
        rw [heq] at hgranted hsettings
        refine hi.grants ?_ ?_ hgranted (fun mac₁ hmac₁ => ?_) (hi.running (by rw [hmac]; rfl))
        · simp [processed, hmac, MacTask.inHand, MainloopSend.request?]
        · simp [told, hmac, told_processInput hp, MacData.tells, Mlme.Output.confirm?, heq]
        · cases hmac₁
          rw [← hi.settings mac hmem, hclosed]
          exact ⟨hsettings, hi.unclosed mac hmem⟩
    · have hno : ∀ request, input ≠ .arrival (.mlmeRequest request) :=
        fun request heq => hinput ⟨request, heq⟩
      obtain ⟨hrequest, hconfirm⟩ := request?_inHand hno draws
      refine hi.keeps ?_ ?_ (fun mac₁ hmac₁ => ⟨mac, hmem, ?_⟩)
        fun hpanic => ⟨by rw [hmac]; rfl, id⟩
      · simpa only [processed, hmac] using hrequest
      · simpa only [told, hmac, told_processInput hp] using hconfirm
      · cases hmac₁
        exact ⟨MacData.processInput_settings hp hno, hclosed⟩
  | @fails draws mac input panic hmac hp =>
    have hmem : mac ∈ w.mac.mac := by
      rw [hmac]
      rfl
    have hno : ∀ request, input ≠ .arrival (.mlmeRequest request) := by
      rintro request rfl
      obtain ⟨self', hok⟩ := MacData.processMlmeRequest_unclosed (hi.unclosed mac hmem) draws.bsn
        draws.dsn request
      cases hok.symm.trans hp
    refine hi.keeps ?_ ?_ (fun mac₁ hmac₁ => ?_) fun hpanic => ?_
    · simpa only [processed, hmac] using (request?_inHand hno draws).1
    · simp [told, MacTask.mlmeSent, MacTask.mac]
    · cases hmac₁
    · cases hpanic
  | drops =>
    refine hi.keeps rfl rfl (fun mac' hmac' => ?_) fun hpanic => ⟨?_, id⟩
    · obtain ⟨mac, hmem, rfl⟩ := MacTask.mem_mapMac hmac'
      exact ⟨mac, hmem, rfl, rfl⟩
    · rwa [MacTask.isPanicked_mapMac] at hpanic
  | sendsMlme hmain _ | sendsMcps hmain _ | reads hmain _ =>
    exact hi.keeps rfl rfl (fun mac' hmac' => ⟨mac', hmac', rfl, rfl⟩) fun hpanic =>
      ⟨hpanic, fun _ => rfl⟩
  | skips hmain _ =>
    exact hi.keeps rfl rfl (fun mac' hmac' => ⟨mac', hmac', rfl, rfl⟩) fun hpanic => ⟨hpanic, id⟩
  | stops hover hpanic =>
    obtain ⟨panic, hmac⟩ := MacTask.eq_panicked hpanic
    refine hi.keeps ?_ ?_ (fun mac' hmac' => ⟨mac', hmac', rfl, rfl⟩) fun hpanic' => ?_
    · cases e <;> simp [processed, hmac, MacTask.inHand]
    · cases e <;> simp [told, hmac, MacTask.mlmeSent, MacTask.mac]
    · cases hpanic.symm.trans hpanic'

/-- The run lemma. -/
theorem setUp_of_run {rely : Past τ → Coordinator τ → Event → Prop} {pib : PIB} {h : Past τ}
    {w : Coordinator τ} (hr : Run Coordinator.step rely (start pib) h w) : SetUp pib h w :=
  hr.invariant (P := SetUp pib) (setUp_start pib) fun _ _ _ _ _ hr hi _ hs => hi.step hr hs

/-- Each request of the main loop is granted, in order; the requests are those of the start-up and
then one for a beacon each time; and as soon as the start-up has been confirmed, the MAC has the
settings of the coordinator, whatever else arrives. -/
theorem coordinator_stays_set_up {rely : Past τ → Coordinator τ → Event → Prop} {pib : PIB}
    {h : Past τ} {w : Coordinator τ} (hr : Run Coordinator.step rely (start pib) h w) :
    List.Forall₂ Mlme.Granted (requests h) (confirms h) ∧
      (∀ mac ∈ w.mac.mac, requests h <+:
        Mainloop.requests ((flow told h).filterMap Mlme.Output.beaconType?)) ∧
      ∀ mac ∈ w.mac.mac, Mainloop.startUp.length ≤ (confirms h).length →
        mac.pib.settings = Mainloop.settings pib := by
  have hi := setUp_of_run hr
  have hpre : ∀ mac ∈ w.mac.mac, requests h <+:
      Mainloop.requests ((flow told h).filterMap Mlme.Output.beaconType?) := by
    intro mac hmac
    have hrunning : w.mainloop.isRunning = true := hi.running (by
      cases hw : w.mac with
      | panicked _ =>
        rw [hw] at hmac
        cases hmac
      | _ => rfl)
    exact ⟨_, requests_of_run hr hrunning⟩
  refine ⟨hi.granted, hpre, fun mac hmac hlen => ?_⟩
  rw [← hi.granted.length_eq] at hlen
  have heq := List.prefix_iff_eq_take.mp (hpre mac hmac)
  rw [Mainloop.requests, List.take_append, List.take_of_length_le hlen, ← List.map_take] at heq
  rw [hi.settings mac hmac, heq]
  exact Mainloop.configured_beacons pib _

theorem joined_mac : ∃ mac, mac ∈ joined.2.mac.mac := by
  have hsome : joined.2.mac.mac.isSome = true := by decide
  obtain ⟨mac, hmac⟩ := Option.isSome_iff_exists.mp hsome
  exact ⟨mac, hmac⟩

theorem coordinator_stays_set_up_joined : (requests joined.1).length = 8 ∧
    ∃ mac ∈ joined.2.mac.mac, mac.pib.settings = Mainloop.settings (PIB.new ⟨1⟩ 11 0 0 0) := by
  refine ⟨by decide, ?_⟩
  obtain ⟨mac, hmac⟩ := joined_mac
  exact ⟨mac, hmac, (coordinator_stays_set_up joined_run).2.2 mac hmac (by decide)⟩

end Coordinator
end ZigbeeStack
