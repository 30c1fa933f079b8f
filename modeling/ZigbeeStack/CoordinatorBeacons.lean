import ZigbeeStack.CoordinatorSettings

/-! The beacons of the coordinator: one for each beacon request that it receives, whether the MAC
answers it or the main loop does, with consecutive sequence numbers. -/
namespace ZigbeeStack
open Runs

theorem PIB.set_macBsn {pib : PIB} {a : PIBProperty} {v : PIBValue} (h : a ≠ .macBsn) :
    (pib.set a v).1.macBsn = pib.macBsn := by
  unfold PIB.set
  split <;> first | rfl | exact absurd rfl h

namespace ManagementService

def frames : Poll ManagementServiceAction → List Frame
  | .ready (.sendFrame f) => [f]
  | _ => []

theorem pollAction_outgoing {self self' : ManagementService} {cx : Waker} {key : UniqueKey}
    {order : List RadioParam} {action : Poll ManagementServiceAction}
    (h : self.pollAction cx key order = (action, self')) :
    frames action ++ self'.outgoing = self.outgoing := by
  obtain ⟨hsame, hno⟩ := self.pollRadioParamUpdate_outgoing key order
  unfold pollAction at h
  cases hp : self.pollRadioParamUpdate key order with
  | mk update polled =>
    rw [hp] at h hsame hno
    replace hsame : polled.outgoing = self.outgoing := hsame
    cases update with
    | ready action =>
      cases h
      cases action with
      | setParam _ _ _ => exact hsame
      | sendFrame f => exact absurd rfl (hno f)
    | pending =>
      dsimp only at h
      split at h
      · rename_i hout
        cases h
        rw [← hsame, hout]
        rfl
      · rename_i hout
        cases h
        exact hsame

theorem processMlmeStartRequest_beacons (self : ManagementService) (pib : PIB)
    (request : Mlme.StartRequest) :
    (self.processMlmeStartRequest pib request).2.1.outgoing = self.outgoing ∧
      (self.processMlmeStartRequest pib request).2.2.macBsn = pib.macBsn := by
  unfold processMlmeStartRequest
  split
  · exact ⟨rfl, rfl⟩
  · split
    · exact ⟨rfl, rfl⟩
    · exact ⟨updateRadioParameters_outgoing _ _, rfl⟩

/-- What a beacon request that is accepted does. -/
theorem processMlmeBeaconRequest_accepted (self : ManagementService) {pib : PIB}
    {request : Mlme.BeaconRequest} (h : pib.settings.Accepts (.beacon request)) :
    ∃ f, (self.processMlmeBeaconRequest pib request).2.1.outgoing = self.outgoing ++ [f] ∧
      f.sequenceNumber = some pib.macBsn ∧
      (self.processMlmeBeaconRequest pib request).2.2 = { pib with macBsn := pib.macBsn + 1 } := by
  obtain ⟨hsuperframe, hchannel, hpage⟩ := h
  replace hchannel : request.channel = pib.phyCurrentChannel := hchannel
  have hvalid : ¬ (request.superframeOrder ≠ 15 ∨ request.channel ≠ pib.phyCurrentChannel ∨
      request.channelPage ≠ 0) := by
    simp [hsuperframe, hchannel, hpage]
  rw [processMlmeBeaconRequest, if_neg hvalid]
  exact ⟨_, rfl, rfl, rfl⟩

end ManagementService

def RadioPacket.beaconRequests (packet : RadioPacket) : List Frame :=
  match packet.unpack with
  | .ok (frame, _) => if frame.frameType = .command .beaconRequest then [frame] else []
  | .error _ => []

def MacInput.beacon : MacInput → List Frame
  | .management (.sendFrame f) => [f]
  | _ => []

def MacInput.beaconRequests : MacInput → List Frame
  | .arrival (.radio (.onPacket packet)) => packet.beaconRequests
  | _ => []

def MacTask.beacons {τ : Type} : MacTask τ → List Frame
  | .polling mac => mac.management.outgoing
  | .processing mac input => input.beacon ++ mac.management.outgoing
  | .panicked _ => []

def MainloopSend.beacon? : MainloopSend → Option Mlme.BeaconType
  | .mlme (.request (.beacon r)) => some r.beaconType
  | _ => none

theorem MainloopSend.oneService_beacon : OneService beacon? := ⟨.inl fun _ => rfl, fun _ => rfl⟩

namespace MacData
variable {τ : Type} [Sleep τ]

theorem Polled.beacons {self self' : MacData τ} {visit : Visit} {result : Poll MacInput}
    (h : Polled self visit result self') :
    (match result with
      | .ready input => input.beacon
      | .pending => []) ++ self'.management.outgoing = self.management.outgoing := by
  cases h with
  | @management action management hm =>
    rw [← ManagementService.pollAction_outgoing hm]
    cases action <;> rfl
  | @data management action data pib hm _ =>
    rw [← ManagementService.pollAction_outgoing hm]
    rfl
  | @passes management data pib result hm _ harrival =>
    rw [← ManagementService.pollAction_outgoing hm]
    cases result with
    | pending => rfl
    | ready input =>
      obtain ⟨a, rfl⟩ := harrival input rfl
      rfl

omit [Sleep τ] in
theorem processRadioPacket_ok {self self' : MacData τ} {packet : RadioPacket}
    (h : self.processRadioPacket packet = .ok self') : ∃ frame rest indication,
      packet.unpack = .ok (frame, rest) ∧ self.management.processFrame self.pib frame =
        (indication, self'.management, self'.pib) := by
  simp only [processRadioPacket, bind, Except.bind, pure, Except.pure] at h
  split at h
  · cases h
  · rename_i r hu
    refine ⟨r.1, r.2, (self.management.processFrame self.pib r.1).1, unwrap_ok hu, ?_⟩
    split at h
    · split at h
      · cases h
      · cases h
        rfl
    · cases h
      rfl

inductive Beacons (self : MacData τ) (draws : Draws) (input : MacInput) (self' : MacData τ) :
    Prop where
  | same : self'.management.outgoing = self.management.outgoing →
      self'.pib.macBsn = self.pib.macBsn → input.beaconRequests.length =
        ((self.tells draws input).toList.filterMap Mlme.Output.beaconType?).length →
      (MacTask.processing self input).inHand.filterMap MainloopSend.beacon? = [] →
      Beacons self draws input self'
  | makes {f} : self'.management.outgoing = self.management.outgoing ++ [f] →
      f.sequenceNumber = some self.pib.macBsn → self'.pib.macBsn = self.pib.macBsn + 1 →
      input.beaconRequests.length +
        ((MacTask.processing self input).inHand.filterMap MainloopSend.beacon?).length = 1 →
      (self.tells draws input).toList.filterMap Mlme.Output.beaconType? = [] →
      (self.pib.macBeaconAutoRespond = true ∨ ∃ r, input = .arrival (.mlmeRequest r)) →
      Beacons self draws input self'
  | resets {request} : input = .arrival (.mlmeRequest (.reset request)) →
      self'.management.outgoing = [] → Beacons self draws input self'

omit [Sleep τ] in
theorem beacons_of_packet {self self' : MacData τ} {draws : Draws} {packet : RadioPacket}
    {frame : Frame} {rest : List UInt8} {indication : Option Mlme.Indication}
    (hunpack : packet.unpack = .ok (frame, rest))
    (hframe : self.management.processFrame self.pib frame =
      (indication, self'.management, self'.pib)) :
    Beacons self draws (.arrival (.radio (.onPacket packet))) self' := by
  have hrequests : (MacInput.arrival (.radio (.onPacket packet))).beaconRequests =
      if frame.frameType = .command .beaconRequest then [frame] else [] := by
    simp [MacInput.beaconRequests, RadioPacket.beaconRequests, hunpack]
  have htells : self.tells draws (.arrival (.radio (.onPacket packet))) =
      indication.map .indication := by
    simp [tells, hunpack, hframe]
  by_cases hbeacon : frame.frameType = .command .beaconRequest
  · simp only [ManagementService.processFrame, hbeacon,
      ManagementService.processFrameBeaconRequest] at hframe
    rw [if_pos hbeacon] at hrequests
    split at hframe
    · have haccepts : self.pib.settings.Accepts (.beacon
          ⟨.beacon, self.pib.phyCurrentChannel, 0, 15, frame.source⟩) := ⟨rfl, rfl, rfl⟩
      obtain ⟨f, hout, hseq, hpib⟩ := self.management.processMlmeBeaconRequest_accepted haccepts
      obtain ⟨rfl, hmanagement, hpib'⟩ := by simpa only [Prod.mk.injEq] using hframe
      refine .makes (f := f) ?_ hseq ?_ ?_ ?_ (.inl ‹_›)
      · rw [← hmanagement, hout]
      · rw [← hpib', hpib]
      · rw [hrequests]
        rfl
      · rw [htells]
        rfl
    · obtain ⟨rfl, hmanagement, hpib⟩ := by simpa only [Prod.mk.injEq] using hframe
      refine .same ?_ ?_ ?_ rfl
      · rw [← hmanagement]
      · rw [← hpib]
      · rw [hrequests, htells]
        rfl
  · have hsame : self'.management = self.management ∧ self'.pib = self.pib ∧
        (indication.map Mlme.Output.indication).toList.filterMap Mlme.Output.beaconType? = [] := by
      unfold ManagementService.processFrame at hframe
      split at hframe
      · exact absurd ‹_› hbeacon
      · obtain ⟨hindication, hmanagement, hpib⟩ := by simpa only [Prod.mk.injEq] using hframe
        refine ⟨hmanagement.symm, hpib.symm, ?_⟩
        rw [← hindication]
        unfold ManagementService.processFrameAssociationRequest
        repeat' split
        all_goals rfl
      · obtain ⟨rfl, hmanagement, hpib⟩ := by simpa only [Prod.mk.injEq] using hframe
        exact ⟨hmanagement.symm, hpib.symm, rfl⟩
    obtain ⟨hmanagement, hpib, hnone⟩ := hsame
    refine .same (by rw [hmanagement]) (by rw [hpib]) ?_ rfl
    rw [hrequests, if_neg hbeacon, htells, hnone]
    rfl

omit [Sleep τ] in
theorem beacons_of_request {self self' : MacData τ} {draws : Draws} {request : Mlme.Request}
    {confirm : Mlme.Confirm} (haccepts : self.pib.settings.Accepts request)
    (hset : ∀ r, request = .set r → r.pibAttribute ≠ .macBsn)
    (heq : self.management.processMlmeRequest self.pib self.data draws.bsn draws.dsn request =
      (confirm, self'.management, self'.data, self'.pib)) :
    Beacons self draws (.arrival (.mlmeRequest request)) self' := by
  cases request with
  | reset request =>
    refine .resets rfl ?_
    have hmanagement := congrArg (fun out => out.2.1.outgoing) heq
    simpa [ManagementService.processMlmeRequest, ManagementService.processMlmeResetRequest,
      ManagementService.new] using hmanagement.symm
  | beacon request =>
    obtain ⟨f, hout, hseq, hpib⟩ := self.management.processMlmeBeaconRequest_accepted haccepts
    simp only [ManagementService.processMlmeRequest, Prod.mk.injEq] at heq
    obtain ⟨-, hmanagement, -, hpib'⟩ := heq
    refine .makes (f := f) ?_ hseq ?_ rfl rfl (.inr ⟨_, rfl⟩)
    · rw [← hmanagement, hout]
    · rw [← hpib', hpib]
  | start request =>
    obtain ⟨hout, hbsn⟩ := self.management.processMlmeStartRequest_beacons self.pib request
    simp only [ManagementService.processMlmeRequest, Prod.mk.injEq] at heq
    obtain ⟨-, hmanagement, -, hpib⟩ := heq
    exact .same (by rw [← hmanagement, hout]) (by rw [← hpib, hbsn]) rfl rfl
  | get request =>
    simp only [ManagementService.processMlmeRequest, Prod.mk.injEq] at heq
    obtain ⟨-, hmanagement, -, hpib⟩ := heq
    exact .same (by rw [← hmanagement]) (by rw [← hpib]) rfl rfl
  | set request =>
    simp only [ManagementService.processMlmeRequest, ManagementService.processMlmeSetRequest,
      Prod.mk.injEq] at heq
    obtain ⟨-, hmanagement, -, hpib⟩ := heq
    refine .same ?_ ?_ rfl rfl
    · rw [← hmanagement, ManagementService.updateRadioParameters_outgoing]
    · rw [← hpib, PIB.set_macBsn (hset request rfl)]

/-- The step lemma: it holds of whatever is processed. -/
theorem beacons_of_processInput {self self' : MacData τ} {draws : Draws} {input : MacInput}
    (h : self.processInput draws input = .ok self')
    (haccepts : ∀ request, input = .arrival (.mlmeRequest request) →
      self.pib.settings.Accepts request ∧ ∀ r, request = .set r → r.pibAttribute ≠ .macBsn) :
    Beacons self draws input self' := by
  match input, h with
  | .management action, h =>
    obtain ⟨hm, -, hpib⟩ := processManagement_rest h
    exact .same (by rw [hm]) (by rw [hpib]) rfl rfl
  | .data action, h =>
    obtain ⟨hm, -, hpib⟩ := processData_rest h
    exact .same (by rw [hm]) (by rw [hpib]) rfl rfl
  | .arrival (.mlmeRequest request), h =>
    cases processed h with
    | sends hno _ _ _ => exact absurd rfl (hno _)
    | request heq => exact beacons_of_request (haccepts request rfl).1 (haccepts request rfl).2 heq
  | .arrival (.mlmeResponse response), h =>
    cases h
    exact .same rfl rfl rfl rfl
  | .arrival (.mcpsRequest request), h =>
    cases processed h with
    | sends hno _ _ _ => exact absurd rfl (hno _)
    | mcps hm hpib _ => exact .same (by rw [hm]) (by rw [hpib]) rfl rfl
  | .arrival (.radio (.onPacket packet)), h =>
    obtain ⟨frame, rest, indication, hunpack, hframe⟩ := processRadioPacket_ok h
    exact beacons_of_packet hunpack hframe
  | .arrival (.radio (.setParam _ _ _)), h | .arrival (.radio (.getParam _ _ _)), h
  | .arrival (.radio (.initPendingDataTable _ _)), h | .arrival (.radio (.setPower _ _ _)), h
  | .arrival (.radio (.sendPacket _ _)), h | .arrival (.radio (.setPendingShort _ _)), h
  | .arrival (.radio (.setPendingExtended _ _)), h =>
    cases h
    exact .same rfl rfl rfl rfl

end MacData

namespace Mainloop

/-- Only the first request resets, and none sets the sequence number. -/
theorem request_of_prefix {before : List Mlme.Request} {request : Mlme.Request}
    {types : List Mlme.BeaconType} (h : before ++ [request] <+: requests types) :
    (∀ r, request = .reset r → before = []) ∧
      ∀ r, request = .set r → r.pibAttribute ≠ .macBsn := by
  have hrequest : (requests types)[before.length]? = some request := by
    obtain ⟨later, h⟩ := h
    rw [← h]
    simp
  by_cases hlen : before.length < startUp.length
  · rw [requests, List.getElem?_append_left hlen] at hrequest
    cases before with
    | nil =>
      cases hrequest
      exact ⟨fun _ _ => rfl, by simp⟩
    | cons first rest =>
      change rest.length + 1 < 7 at hlen
      replace hlen : rest.length < 6 := by omega
      rw [List.length_cons] at hrequest
      generalize rest.length = k at hlen hrequest
      interval_cases k <;> cases hrequest <;> simp
  · rw [requests, List.getElem?_append_right (Nat.le_of_not_lt hlen)] at hrequest
    obtain ⟨beaconType, -, rfl⟩ := List.mem_map.mp (List.mem_of_getElem? hrequest)
    simp

end Mainloop

namespace Coordinator
variable {τ : Type}

def sentBeacons (t : Step τ) : List Frame :=
  match t.before.mac, t.event with
  | .processing _ input, .process _ => input.beacon
  | _, _ => []

def beaconRequests (t : Step τ) : List Frame :=
  match t.before.mac, t.event with
  | .processing _ input, .process _ => input.beaconRequests
  | _, _ => []

def beacons (h : Past τ) (w : Coordinator τ) : List Frame := flow sentBeacons h ++ w.mac.beacons

def numbers (bsn : UInt8) (n : Nat) : List (Option UInt8) :=
  (List.range n).map fun i => some (bsn + UInt8.ofNat i)

theorem beacon_answers (outputs : List Mlme.Output) :
    (outputs.flatMap answers).filterMap MainloopSend.beacon? =
      outputs.filterMap Mlme.Output.beaconType? := by
  induction outputs with
  | nil => rfl
  | cons output rest ih =>
    rw [List.flatMap_cons, List.filterMap_append, ih]
    cases output with
    | confirm _ => rfl
    | indication i => cases i <;> rfl

structure Beaconing (h : Past τ) (w : Coordinator τ) : Prop where
  owed : (flow beaconRequests h).length =
    (beacons h w).length + (w.onTheWay.filterMap MainloopSend.beacon?).length
  numbered : ∀ mac ∈ w.mac.mac, ∃ bsn,
    (beacons h w).map (·.sequenceNumber) = numbers bsn (beacons h w).length ∧
      mac.pib.macBsn = bsn + UInt8.ofNat (beacons h w).length
  first : requests h = [] → beacons h w = []

theorem beaconing_start (pib : PIB) : Beaconing [] (start pib : Coordinator τ) where
  owed := rfl
  numbered mac hmac := by
    cases hmac
    exact ⟨pib.macBsn, rfl, by simp [beacons, start, MacData.new, MacTask.beacons,
      ManagementService.new]⟩
  first _ := by simp [beacons, start, MacData.new, MacTask.beacons, ManagementService.new]

theorem numbers_succ (bsn : UInt8) (n : Nat) :
    numbers bsn (n + 1) = numbers bsn n ++ [some (bsn + UInt8.ofNat n)] := by
  simp [numbers, List.range_succ]

inductive Advances (h : Past τ) (w : Coordinator τ) (mac : MacData τ) : List Frame → Prop where
  | same {before} : before ∈ w.mac.mac → mac.pib.macBsn = before.pib.macBsn → Advances h w mac []
  | one {before f} : before ∈ w.mac.mac → f.sequenceNumber = some before.pib.macBsn →
      mac.pib.macBsn = before.pib.macBsn + 1 → Advances h w mac [f]
  | anew : beacons h w = [] → Advances h w mac []

theorem Beaconing.advances {h : Past τ} {w w' : Coordinator τ} {t : Step τ} (hi : Beaconing h w)
    (made : List Frame)
    (hmade : flow sentBeacons h ++ (sentBeacons t ++ w'.mac.beacons) = beacons h w ++ made)
    (hchannel : (processed t).filterMap MainloopSend.beacon? ++
      w'.onTheWay.filterMap MainloopSend.beacon? = w.onTheWay.filterMap MainloopSend.beacon? ++
        (told t).filterMap Mlme.Output.beaconType?)
    (hcount : (beaconRequests t).length + ((processed t).filterMap MainloopSend.beacon?).length =
      made.length + ((told t).filterMap Mlme.Output.beaconType?).length)
    (hnumber : ∀ mac ∈ w'.mac.mac, Advances h w mac made)
    (hfirst : requests (t :: h) = [] → made = []) : Beaconing (t :: h) w' := by
  have hbeacons : beacons (t :: h) w' = beacons h w ++ made := by
    rw [← hmade, beacons, flow_cons, List.append_assoc]
  refine ⟨?_, fun mac hmac => ?_, fun hrequests => ?_⟩
  · have howed := hi.owed
    have hlength := congrArg List.length hchannel
    simp only [List.length_append] at hlength
    rw [hbeacons, flow_cons, List.length_append, List.length_append]
    omega
  · rw [hbeacons]
    cases hnumber mac hmac with
    | same hbefore hbsn =>
      obtain ⟨bsn, hnumbers, hnext⟩ := hi.numbered _ hbefore
      refine ⟨bsn, ?_, ?_⟩
      · rw [List.append_nil, hnumbers]
      · rw [List.append_nil, hbsn, hnext]
    | @one before f hbefore hseq hbsn =>
      obtain ⟨bsn, hnumbers, hnext⟩ := hi.numbered _ hbefore
      refine ⟨bsn, ?_, ?_⟩
      · rw [List.length_append, List.length_singleton, numbers_succ, List.map_append, hnumbers,
          List.map_singleton, hseq, hnext]
      · rw [hbsn, hnext, List.length_append, List.length_singleton, UInt8.ofNat_add]
        exact UInt8.add_assoc _ _ _
    | anew hnone =>
      refine ⟨mac.pib.macBsn, ?_, ?_⟩
      · rw [hnone]
        rfl
      · rw [hnone]
        simp
  · have hbefore : requests h = [] := by
      rw [requests, flow_cons, List.filterMap_append] at hrequests
      exact (List.append_eq_nil_iff.mp hrequests).1
    rw [hbeacons, hi.first hbefore, hfirst hrequests]
    rfl

variable [Sleep τ]

theorem Beaconing.quiet {h : Past τ} {w w' : Coordinator τ} {e : Event} {o : Unit}
    (hi : Beaconing h w) (hs : w.step e = some (w', o)) (hw : w'.mainloop.isRunning = true)
    (he : ∀ draws, e ≠ .process draws) (hbeacons : w'.mac.beacons = w.mac.beacons)
    (hmac : ∀ mac' ∈ w'.mac.mac, ∃ mac ∈ w.mac.mac, mac'.pib.macBsn = mac.pib.macBsn) :
    Beaconing (⟨w, e, o, w'⟩ :: h) w' := by
  have hsent : sentBeacons ⟨w, e, o, w'⟩ = [] ∧ beaconRequests ⟨w, e, o, w'⟩ = [] ∧
      processed ⟨w, e, o, w'⟩ = [] ∧ told ⟨w, e, o, w'⟩ = [] := by
    cases e with
    | process draws => exact absurd rfl (he draws)
    | _ => cases hmac : w.mac <;> simp [sentBeacons, beaconRequests, processed, told, hmac]
  obtain ⟨hsent, hrequests, hprocessed, htold⟩ := hsent
  have hchannel := channel_step MainloopSend.oneService_beacon w e w' o hs hw
  rw [beacon_answers] at hchannel
  refine hi.advances [] ?_ hchannel ?_ (fun mac' hmac' => ?_) fun _ => rfl
  · rw [hsent, hbeacons, List.append_nil]
    rfl
  · rw [hrequests, hprocessed, htold]
    rfl
  · obtain ⟨mac, hmem, hbsn⟩ := hmac mac' hmac'
    exact .same hmem hbsn

theorem Beaconing.processes {rely : Past τ → Coordinator τ → Event → Prop} {pib : PIB} {h : Past τ}
    {w w' : Coordinator τ} {draws : Draws} {o : Unit} {mac mac' : MacData τ} {input : MacInput}
    (hpib : pib.macBeaconAutoRespond = false) (hr : Run Coordinator.step rely (start pib) h w)
    (hi : Beaconing h w) (hs : w.step (.process draws) = some (w', o))
    (hw : w'.mainloop.isRunning = true) (hmac : w.mac = .processing mac input)
    (hmac' : w'.mac = .polling mac') (hp : mac.processInput draws input = .ok mac') :
    Beaconing (⟨w, .process draws, o, w'⟩ :: h) w' := by
  have hsetup := setUp_of_run hr
  have hmem : mac ∈ w.mac.mac := by
    rw [hmac]
    rfl
  have hmem' : ∀ mac₁ ∈ w'.mac.mac, mac₁ = mac' := by
    rw [hmac']
    exact fun _ h => (Option.some.inj h).symm
  have hbeacons : MacData.Beacons mac draws input mac' := by
    refine MacData.beacons_of_processInput hp fun request hinput => ?_
    subst hinput
    exact ⟨hsetup.accepts hr hmac, (Mainloop.request_of_prefix (hsetup.next hr hmac)).2⟩
  have hchannel := channel_step MainloopSend.oneService_beacon w (.process draws) w' o hs hw
  rw [beacon_answers] at hchannel
  have hsent : sentBeacons ⟨w, .process draws, o, w'⟩ = input.beacon := by
    simp only [sentBeacons, hmac]
  have hrequests : beaconRequests ⟨w, .process draws, o, w'⟩ = input.beaconRequests := by
    simp only [beaconRequests, hmac]
  have hprocessed : processed ⟨w, .process draws, o, w'⟩ =
      (MacTask.processing mac input).inHand := by
    simp only [processed, hmac]
  have htold : told ⟨w, .process draws, o, w'⟩ = (mac.tells draws input).toList := by
    simp only [told, hmac, hmac', told_processInput hp]
  have hwaits : beacons h w = flow sentBeacons h ++ (input.beacon ++ mac.management.outgoing) := by
    rw [beacons, hmac]
    rfl
  cases hbeacons with
  | same hout hbsn hcount hnone =>
    refine hi.advances [] ?_ hchannel ?_ (fun mac₁ hmac₁ => ?_) fun _ => rfl
    · rw [hsent, hmac', MacTask.beacons, hout, hwaits, List.append_nil]
    · rw [hrequests, hprocessed, htold, hcount, hnone]
      simp
    · rw [hmem' mac₁ hmac₁]
      exact .same hmem hbsn
  | @makes f hout hseq hbsn hcount hnone hwhy =>
    refine hi.advances [f] ?_ hchannel ?_ (fun mac₁ hmac₁ => ?_) fun hrequests => ?_
    · rw [hsent, hmac', MacTask.beacons, hout, hwaits]
      simp
    · rw [hrequests, hprocessed, htold, hcount, hnone]
      rfl
    · rw [hmem' mac₁ hmac₁]
      exact .one hmem hseq hbsn
    · -- before the first request the MAC answers no beacon request itself
      rw [requests, flow_cons, List.filterMap_append, hprocessed] at hrequests
      obtain ⟨hbefore, hnow⟩ := List.append_eq_nil_iff.mp hrequests
      rcases hwhy with hrespond | ⟨r, rfl⟩
      · have hsettings := hsetup.settings mac hmem
        rw [requests, hbefore] at hsettings
        have hauto := congrArg PIB.macBeaconAutoRespond hsettings
        exact absurd (hrespond.symm.trans (hauto.trans hpib)) (by simp)
      · cases hnow
  | @resets request hinput hout =>
    subst hinput
    have hbefore := (Mainloop.request_of_prefix (hsetup.next hr hmac)).1 request rfl
    have hnone := hi.first hbefore
    refine hi.advances [] ?_ hchannel ?_ (fun mac₁ _ => .anew hnone) fun _ => rfl
    · rw [hwaits] at hnone
      rw [hsent, hmac', MacTask.beacons, hout, hwaits, hnone, (List.append_eq_nil_iff.mp hnone).1]
      rfl
    · rw [hrequests, hprocessed, htold]
      rfl

theorem Beaconing.step {rely : Past τ → Coordinator τ → Event → Prop} {pib : PIB} {h : Past τ}
    {w w' : Coordinator τ} {e : Event} {o : Unit} (hpib : pib.macBeaconAutoRespond = false)
    (hr : Run Coordinator.step rely (start pib) h w)
    (hi : w.mac.isPanicked = false → Beaconing h w) (hs : w.step e = some (w', o))
    (halive : w'.mac.isPanicked = false) : Beaconing (⟨w, e, o, w'⟩ :: h) w' := by
  have hsetup := setUp_of_run hr
  have hw := (hsetup.step hr hs).running halive
  cases moves hs with
  | @polls cx key params rounds radio mac task hmac htask =>
    have hbeacons : task.beacons = w.mac.beacons ∧
        ∀ mac' ∈ task.mac, mac'.pib.macBsn = mac.pib.macBsn := by
      rw [hmac]
      cases MacTask.moves htask with
      | waits hp =>
        refine ⟨hp.beacons, fun mac' hmac' => ?_⟩
        cases hmac'
        obtain ⟨dsn, hpib⟩ := hp.pib
        rw [hpib]
      | takes hp =>
        refine ⟨hp.beacons, fun mac' hmac' => ?_⟩
        cases hmac'
        obtain ⟨dsn, hpib⟩ := hp.pib
        rw [hpib]
      | closes hno _ _ => exact absurd rfl (hno _)
      | panics => cases halive
    refine (hi (by rw [hmac]; rfl)).quiet hs hw (by simp) hbeacons.1 fun mac' hmac' => ?_
    exact ⟨mac, by rw [hmac]; rfl, hbeacons.2 mac' hmac'⟩
  | processes hmac hp => exact (hi (by rw [hmac]; rfl)).processes hpib hr hs hw hmac rfl hp
  | fails _ _ => cases halive
  | drops =>
    rw [MacTask.isPanicked_mapMac] at halive
    refine (hi halive).quiet hs hw (by simp) ?_ fun mac' hmac' => ?_
    · cases hmac : w.mac <;> rfl
    · obtain ⟨mac, hmem, rfl⟩ := MacTask.mem_mapMac hmac'
      exact ⟨mac, hmem, rfl⟩
  | sendsMlme _ _ | sendsMcps _ _ | reads _ _ | skips _ _ =>
    exact (hi halive).quiet hs hw (by simp) rfl fun mac' hmac' => ⟨mac', hmac', rfl⟩
  | stops _ hpanic => cases hpanic.symm.trans halive

/-- As long as the MAC runs: the beacon requests that it received are as many as the beacons that it
has made, sent or not, and the requests for one that are on their way from the main loop; and the
beacons have consecutive sequence numbers. -/
theorem beacon_requests_answered {rely : Past τ → Coordinator τ → Event → Prop} {pib : PIB}
    {h : Past τ} {w : Coordinator τ} (hpib : pib.macBeaconAutoRespond = false)
    (hr : Run Coordinator.step rely (start pib) h w) (halive : w.mac.isPanicked = false) :
    (flow beaconRequests h).length =
        (beacons h w).length + (w.onTheWay.filterMap MainloopSend.beacon?).length ∧
      ∃ bsn, (beacons h w).map (·.sequenceNumber) = numbers bsn (beacons h w).length := by
  have hi : Beaconing h w := by
    refine hr.invariant (P := fun h w => w.mac.isPanicked = false → Beaconing h w)
      (fun _ => beaconing_start pib) (fun h w e w' o hr hi _ hs halive => ?_) halive
    exact Beaconing.step hpib hr hi hs halive
  refine ⟨hi.owed, ?_⟩
  cases hmac : w.mac with
  | panicked _ =>
    rw [hmac] at halive
    cases halive
  | polling mac | processing mac _ =>
    obtain ⟨bsn, hnumbers, -⟩ := hi.numbered mac (by rw [hmac]; rfl)
    exact ⟨bsn, hnumbers⟩

theorem beacon_requests_answered_joined : (beacons joined.1 joined.2).length = 1 ∧
    (flow beaconRequests joined.1).length =
      (beacons joined.1 joined.2).length +
        (joined.2.onTheWay.filterMap MainloopSend.beacon?).length :=
  ⟨by decide, (beacon_requests_answered rfl joined_run (by decide)).1⟩

end Coordinator
end ZigbeeStack
