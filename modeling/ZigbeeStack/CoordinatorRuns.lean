import ZigbeeStack.Coordinator
import ZigbeeStack.MlmeRequests
import ZigbeeStack.MacFrames

/-! Runs of the coordinator: what the MAC and the main loop tell each other arrives once and in
order, the MAC stays as it was set up, and each beacon request is answered. -/
namespace ZigbeeStack
open Runs

namespace MacData
variable {τ : Type} [Sleep τ]

def tells (self : MacData τ) (draws : Draws) : MacInput → Option Mlme.Output
  | .arrival (.mlmeRequest r) =>
    some (.confirm (self.management.processMlmeRequest self.pib self.data draws.bsn draws.dsn r).1)
  | .arrival (.radio (.onPacket packet)) =>
    match packet.unpack with
    | .ok (frame, _) => (self.management.processFrame self.pib frame).1.map .indication
    | .error _ => none
  | _ => none

omit [Sleep τ] in
theorem sink_send {α : Type} {sink sink' : Sink α} {item : α} (h : sink.send item = .ok sink') :
    sink'.items = sink.items ++ [item] ∧ sink'.closed = sink.closed := by
  unfold Sink.send at h
  split at h
  · cases h
  · cases h
    exact ⟨rfl, rfl⟩

omit [Sleep τ] in
theorem unwrap_ok {ε α : Type} {x : Except ε α} {a : α} (h : unwrap x = .ok a) : x = .ok a := by
  cases x with
  | ok b =>
    cases h
    rfl
  | error e => cases h

omit [Sleep τ] in
theorem sendFrame_outputs {self self' : MacData τ} {key : UniqueKey} {frame : Frame}
    (h : self.sendFrame key frame = .ok self') :
    self'.mlmeOutput = self.mlmeOutput ∧ self'.mcpsOutput = self.mcpsOutput := by
  simp only [sendFrame, bind, Except.bind, pure, Except.pure] at h
  split at h
  · cases h
  · split at h
    · cases h
    · cases h
      exact ⟨rfl, rfl⟩

/-- The processing of an input tells the main loop no more than that. -/
theorem processInput_mlmeOutput {self self' : MacData τ} {draws : Draws} {input : MacInput}
    (h : self.processInput draws input = .ok self') :
    self'.mlmeOutput.items = self.mlmeOutput.items ++ (self.tells draws input).toList ∧
      self'.mlmeOutput.closed = self.mlmeOutput.closed := by
  match input, h with
  | .management (.setParam _ _ _), h =>
    simp only [processInput, processManagement, bind, Except.bind, pure, Except.pure] at h
    split at h
    · cases h
    · cases h
      simp [tells]
  | .management (.sendFrame _), h =>
    rw [(sendFrame_outputs h).1]
    simp [tells]
  | .data (.sendFrame _ _), h =>
    rw [(sendFrame_outputs h).1]
    simp [tells]
  | .data (.initPendingTable _), h | .data (.setPendingShort _ _ _), h
  | .data (.setPendingExtended _ _ _), h | .data (.confirm _), h =>
    simp only [processInput, processData, bind, Except.bind, pure, Except.pure] at h
    split at h
    · cases h
    · cases h
      simp [tells]
  | .arrival (.mlmeRequest request), h =>
    simp only [processInput, processMlmeRequest, bind, Except.bind, pure, Except.pure] at h
    split at h
    · cases h
    · rename_i sink hs
      cases h
      exact sink_send (unwrap_ok hs)
  | .arrival (.mlmeResponse _), h =>
    cases h
    simp [tells, processMlmeResponse]
  | .arrival (.mcpsRequest request), h =>
    simp only [processInput, processMcpsRequest, bind, Except.bind, pure, Except.pure] at h
    split at h
    · split at h
      · cases h
      · cases h
        simp [tells]
    · cases h
      simp [tells]
  | .arrival (.radio (.onPacket packet)), h =>
    replace h : self.processRadioPacket packet = .ok self' := h
    simp only [processRadioPacket, bind, Except.bind, pure, Except.pure] at h
    split at h
    · cases h
    · rename_i r hu
      obtain ⟨frame, rest⟩ := r
      have hunpack := unwrap_ok hu
      dsimp only at h
      split at h
      · rename_i indication hi
        split at h
        · cases h
        · rename_i sink hs
          cases h
          simpa [tells, hunpack, hi] using sink_send (unwrap_ok hs)
      · rename_i hi
        cases h
        simp [tells, hunpack, hi]
  | .arrival (.radio (.setParam _ _ _)), h | .arrival (.radio (.getParam _ _ _)), h
  | .arrival (.radio (.initPendingDataTable _ _)), h | .arrival (.radio (.setPower _ _ _)), h
  | .arrival (.radio (.sendPacket _ _)), h | .arrival (.radio (.setPendingShort _ _)), h
  | .arrival (.radio (.setPendingExtended _ _)), h =>
    cases h
    simp [tells]

/-- A poll tells it nothing. -/
theorem Polled.mlmeOutput {self self' : MacData τ} {visit : Visit} {result : Poll MacInput}
    (h : Polled self visit result self') : self'.mlmeOutput = self.mlmeOutput := by
  cases h <;> rfl

/-- An input from the streams is what the visit found there. -/
theorem pollNextInput_arrival {self self' : MacData τ} {visit : Visit} {a : Arrival}
    (h : self.pollNextInput visit = some (.ok (.ready (.arrival a)), self')) :
    visit.arrival = .ready (some a) := by
  unfold pollNextInput at h
  split at h
  · cases h
  · split at h
    · cases h
    · cases h
    · dsimp only at h
      split at h
      · rename_i ha
        cases h
        exact ha
      · cases h
      · cases h

end MacData

namespace MacTask
variable {τ : Type}

def inHand : MacTask τ → List MainloopSend
  | .processing _ (.arrival (.mlmeRequest r)) => [.mlme (.request r)]
  | .processing _ (.arrival (.mlmeResponse r)) => [.mlme (.response r)]
  | .processing _ (.arrival (.mcpsRequest r)) => [.mcps r]
  | _ => []

theorem inHand_mapMac (f : MacData τ → MacData τ) (task : MacTask τ) :
    (task.mapMac f).inHand = task.inHand := by
  cases task with
  | processing mac input =>
    cases input with
    | arrival a => cases a <;> rfl
    | _ => rfl
  | _ => rfl

end MacTask

namespace MainloopSend

def mlme? : MainloopSend → Option Mlme.Input
  | .mlme input => some input
  | .mcps _ => none

def mcps? : MainloopSend → Option Mcps.Request
  | .mcps (.data request) => some (.data { request with msduHandle := ⟨⟨0⟩⟩ })
  | .mcps request => some request
  | .mlme _ => none

structure OneService {α : Type} (part : MainloopSend → Option α) : Prop where
  one : (∀ request, part (.mcps request) = none) ∨ (∀ input, part (.mlme input) = none)
  handle : ∀ msduHandle, part (.mcps (.data (Mainloop.transportKey msduHandle))) =
    part (.mcps (.data (Mainloop.transportKey ⟨⟨0⟩⟩)))

theorem oneService_mlme : OneService mlme? := ⟨.inl fun _ => rfl, fun _ => rfl⟩
theorem oneService_mcps : OneService mcps? := ⟨.inr fun _ => rfl, fun _ => rfl⟩

end MainloopSend

namespace Coordinator
variable {τ α : Type}

abbrev Step (τ : Type) := Transition (Coordinator τ) Event Unit
abbrev Past (τ : Type) := History (Coordinator τ) Event Unit

def processed (t : Step τ) : List MainloopSend :=
  match t.event with
  | .process _ => t.before.mac.inHand
  | _ => []

def told (t : Step τ) : List Mlme.Output :=
  match t.event with
  | .process _ => t.after.mac.mlmeSent.drop t.before.mac.mlmeSent.length
  | _ => []

def answers (output : Mlme.Output) : List MainloopSend :=
  Mainloop.react ⟨⟨0⟩⟩ (.mlme output)

/- All that is on its way from the main loop to the MAC: what the MAC has in hand, what is in the
   channels, what the main loop is about to send, and its answers to what it has not yet read. -/
def onTheWay (self : Coordinator τ) : List MainloopSend :=
  self.mac.inHand ++ self.mlmeInput.map .mlme ++ self.mcpsInput.map .mcps ++ self.mainloop.todo ++
    self.mlmeOutput.flatMap answers

theorem filterMap_react {part : MainloopSend → Option α} (hpart : MainloopSend.OneService part)
    (msduHandle : MsduHandle) (output : Mlme.Output) :
    (Mainloop.react msduHandle (.mlme output)).filterMap part =
      (answers output).filterMap part := by
  cases output with
  | confirm _ => rfl
  | indication i =>
    cases i with
    | beaconRequest _ _ _ => rfl
    | associate _ _ =>
      simp only [answers, Mainloop.react, sendMcpsRequest, List.filterMap_cons,
        hpart.handle msduHandle]

theorem filterMap_channels {part : MainloopSend → Option α}
    (hpart : MainloopSend.OneService part) (mlmeInput : List Mlme.Input)
    (mcpsInput : List Mcps.Request) (input : Mlme.Input) (rest : List MainloopSend) :
    ((mlmeInput ++ [input]).map MainloopSend.mlme ++ mcpsInput.map MainloopSend.mcps ++
      rest).filterMap part =
      (mlmeInput.map MainloopSend.mlme ++ mcpsInput.map MainloopSend.mcps ++
        MainloopSend.mlme input :: rest).filterMap part := by
  rw [List.append_cons _ (MainloopSend.mlme input), List.map_append]
  simp only [List.filterMap_append]
  rcases hpart.one with hmcps | hmlme
  · have hnone : (mcpsInput.map MainloopSend.mcps).filterMap part = [] := by
      simp [List.filterMap_map, hmcps]
    rw [hnone, List.append_nil, List.append_nil, List.map_singleton]
  · have hnone : [MainloopSend.mlme input].filterMap part = [] := by simp [hmlme]
    rw [List.map_singleton, hnone, List.append_nil, List.append_nil]

variable [Sleep τ]

inductive Moves (self : Coordinator τ) : Event → Coordinator τ → Prop where
  | polls {cx key params rounds radio mac task} : self.mac = .polling mac →
      MacTask.step (.polling mac) (.poll ⟨cx, key, params, rounds, self.arrival radio⟩) =
        some (task, ()) →
      Moves self (.poll cx key params rounds radio) { self.taken task with mac := task }
  | processes {draws mac input mac'} : self.mac = .processing mac input →
      mac.processInput draws input = .ok mac' →
      Moves self (.process draws) { self with
        mac := .polling mac'
        mlmeOutput := self.mlmeOutput ++ (mac.tells draws input).toList
        mcpsOutput := self.mcpsOutput ++ mac'.mcpsOutput.items.drop mac.mcpsOutput.items.length }
  | fails {draws mac input panic} : self.mac = .processing mac input →
      mac.processInput draws input = .error panic →
      Moves self (.process draws) { self with mac := .panicked panic }
  | drops : Moves self .dropRadioRequests { self with
      mac := self.mac.mapMac fun mac => { mac with radioRequests := mac.radioRequests.close } }
  | sendsMlme {input rest} : self.mainloop = .running (.mlme input :: rest) →
      self.mac.isPanicked = false →
      Moves self .send
        { self with mainloop := .running rest, mlmeInput := self.mlmeInput ++ [input] }
  | sendsMcps {request rest} : self.mainloop = .running (.mcps request :: rest) →
      self.mac.isPanicked = false →
      Moves self .send
        { self with mainloop := .running rest, mcpsInput := self.mcpsInput ++ [request] }
  | reads {msduHandle output rest} : self.mainloop = .running [] →
      self.mlmeOutput = output :: rest →
      Moves self (.takeMlme msduHandle) { self with
        mainloop := .running (Mainloop.react msduHandle (.mlme output)), mlmeOutput := rest }
  | skips {msduHandle output rest} : self.mainloop = .running [] →
      self.mcpsOutput = output :: rest →
      Moves self (.takeMcps msduHandle) { self with mcpsOutput := rest }
  | stops {e mainloop} : mainloop.isRunning = false → self.mac.isPanicked = true →
      Moves self e { self with mainloop := mainloop }

theorem told_processInput {mac mac' : MacData τ} {draws : Draws} {input : MacInput}
    (h : mac.processInput draws input = .ok mac') :
    (MacTask.polling mac').mlmeSent.drop (MacTask.processing mac input).mlmeSent.length =
      (mac.tells draws input).toList := by
  simp [MacTask.mlmeSent, MacTask.mac, (MacData.processInput_mlmeOutput h).1]

theorem moves {self self' : Coordinator τ} {e : Event} {o : Unit}
    (hs : self.step e = some (self', o)) : self.Moves e self' := by
  cases e with
  | poll cx key params rounds radio =>
    simp only [step] at hs
    split at hs
    · rename_i mac _ hmac
      cases hs
      cases hbefore : self.mac with
      | polling before =>
        rw [hbefore] at hmac
        exact .polls hbefore hmac
      | _ =>
        rw [hbefore] at hmac
        cases hmac
    · cases hs
  | process draws =>
    simp only [step] at hs
    split at hs
    · rename_i task _ hmac
      cases hs
      cases hbefore : self.mac with
      | processing mac input =>
        rw [hbefore] at hmac
        simp only [MacTask.step] at hmac
        split at hmac
        · rename_i mac' hp
          cases hmac
          rw [told_processInput hp]
          exact .processes hbefore hp
        · rename_i panic hp
          cases hmac
          have hgone := Moves.fails hbefore hp
          simpa [MacTask.mlmeSent, MacTask.mcpsSent, MacTask.mac] using hgone
      | _ =>
        rw [hbefore] at hmac
        cases hmac
    · cases hs
  | dropRadioRequests =>
    have hdrop : self.mac.step .dropRadioRequests = some (self.mac.mapMac fun mac =>
        { mac with radioRequests := mac.radioRequests.close }, ()) := by
      cases self.mac <;> rfl
    simp only [step, hdrop] at hs
    cases hs
    exact .drops
  | send =>
    simp only [step] at hs
    split at hs
    · rename_i item rest hmain
      cases hs
      unfold send
      split
      · rename_i hpanic
        exact .stops rfl hpanic
      · rename_i hpanic
        replace hpanic := Bool.eq_false_iff.mpr hpanic
        cases item with
        | mlme input => exact .sendsMlme hmain hpanic
        | mcps request => exact .sendsMcps hmain hpanic
    · cases hs
  | takeMlme msduHandle =>
    simp only [step] at hs
    split at hs
    · rename_i output rest hmain houtput
      cases hs
      exact .reads hmain houtput
    · split at hs
      · rename_i hpanic
        cases hs
        exact .stops rfl hpanic
      · cases hs
    · cases hs
  | takeMcps msduHandle =>
    simp only [step] at hs
    split at hs
    · rename_i output rest hmain houtput
      cases hs
      have hskips : self.Moves (.takeMcps msduHandle) { self with mcpsOutput := rest } :=
        .skips hmain houtput
      rw [hmain] at hskips
      exact hskips
    · split at hs
      · rename_i hpanic
        cases hs
        exact .stops rfl hpanic
      · cases hs
    · cases hs

/-- What the MAC takes as a poll returns it is what was first in its channel. -/
theorem onTheWay_taken {self : Coordinator τ} {mac : MacData τ} {task : MacTask τ} {visit : Visit}
    {radio : Poll (Option RadioResponse)} {o : Unit} (hmac : self.mac = .polling mac)
    (hvisit : visit.arrival = self.arrival radio)
    (hs : MacTask.step (.polling mac) (.poll visit) = some (task, o)) :
    onTheWay { self.taken task with mac := task } = self.onTheWay := by
  simp only [MacTask.step] at hs
  split at hs
  · rename_i input mac' hp
    cases hs
    cases input with
    | arrival a =>
      have ha := MacData.pollNextInput_arrival hp
      rw [hvisit] at ha
      unfold arrival at ha
      split at ha
      · rename_i response
        cases response with
        | none => cases ha
        | some response =>
          cases ha
          simp [onTheWay, taken, MacTask.inHand, hmac]
      · split at ha
        · rename_i input rest hinput
          cases input with
          | request r =>
            cases ha
            simp [onTheWay, taken, MacTask.inHand, Mlme.Input.arrival, hmac, hinput]
          | response r =>
            cases ha
            simp [onTheWay, taken, MacTask.inHand, Mlme.Input.arrival, hmac, hinput]
        · rename_i hinput
          split at ha
          · split at ha
            · rename_i request rest hrequest
              cases ha
              simp [onTheWay, taken, MacTask.inHand, hmac, hinput, hrequest]
            · cases ha
          · cases ha
    | _ => simp [onTheWay, taken, MacTask.inHand, hmac]
  · cases hs
    simp [onTheWay, taken, MacTask.inHand, hmac]
  · cases hs
    simp [onTheWay, taken, MacTask.inHand, hmac]
  · cases hs

theorem works_of_step (self : Coordinator τ) (e : Event) (self' : Coordinator τ) (o : Unit)
    (hs : self.step e = some (self', o)) (hw : self'.mainloop.isRunning = true) :
    self.mainloop.isRunning = true := by
  cases moves hs with
  | polls hmac _ =>
    rw [← hw]
    unfold taken
    split <;> rfl
  | processes _ _ | fails _ _ | drops | skips _ _ => exact hw
  | sendsMlme hmain _ | sendsMcps hmain _ | reads hmain _ => rw [hmain]; rfl
  | stops hover _ => cases hover.symm.trans hw

theorem channel_step {part : MainloopSend → Option α} (hpart : MainloopSend.OneService part)
    (self : Coordinator τ) (e : Event) (self' : Coordinator τ) (o : Unit)
    (hs : self.step e = some (self', o)) (hw : self'.mainloop.isRunning = true) :
    (processed ⟨self, e, o, self'⟩).filterMap part ++ self'.onTheWay.filterMap part =
      self.onTheWay.filterMap part ++
        ((told ⟨self, e, o, self'⟩).flatMap answers).filterMap part := by
  cases moves hs with
  | polls hmac htask => simp [processed, told, onTheWay_taken hmac rfl htask]
  | processes hmac hp =>
    simp only [processed, told, onTheWay, hmac, told_processInput hp]
    simp [MacTask.inHand]
  | fails hmac _ =>
    simp [processed, told, onTheWay, hmac, MacTask.inHand, MacTask.mlmeSent, MacTask.mac]
  | drops => simp [processed, told, onTheWay, MacTask.inHand_mapMac]
  | @sendsMlme input rest hmain _ =>
    have hbefore : self.onTheWay = self.mac.inHand ++
        (self.mlmeInput.map .mlme ++ self.mcpsInput.map .mcps ++
          .mlme input :: (rest ++ self.mlmeOutput.flatMap answers)) := by
      simp [onTheWay, hmain, Mainloop.todo]
    have hafter : onTheWay { self with
          mainloop := .running rest, mlmeInput := self.mlmeInput ++ [input] } = self.mac.inHand ++
        ((self.mlmeInput ++ [input]).map .mlme ++ self.mcpsInput.map .mcps ++
          (rest ++ self.mlmeOutput.flatMap answers)) := by
      simp [onTheWay, Mainloop.todo]
    rw [hbefore, hafter, List.filterMap_append, filterMap_channels hpart, ← List.filterMap_append]
    simp [processed, told]
  | sendsMcps hmain _ => simp [processed, told, onTheWay, hmain, Mainloop.todo]
  | reads hmain houtput =>
    simp [processed, told, onTheWay, hmain, houtput, Mainloop.todo, filterMap_react hpart]
  | skips hmain houtput => simp [processed, told, onTheWay]
  | stops hover _ => cases hover.symm.trans hw

theorem flow_of_run {rely : Past τ → Coordinator τ → Event → Prop} {pib : PIB} {h : Past τ}
    {w : Coordinator τ} (hr : Run step rely (start pib) h w) (hw : w.mainloop.isRunning = true)
    {part : MainloopSend → Option α} (hpart : MainloopSend.OneService part) :
    (flow processed h ++ w.onTheWay).filterMap part =
      (Mainloop.startUp.map sendRequest ++ (flow told h).flatMap answers).filterMap part := by
  have hchannel := hr.channel (fun w => w.onTheWay.filterMap part)
    (fun t => ((told t).flatMap answers).filterMap part) (fun t => (processed t).filterMap part)
    works_of_step (fun _ s e s' o _ => channel_step hpart s e s' o) hw
  rw [List.filterMap_append, List.filterMap_append, filterMap_flow, flatMap_flow, filterMap_flow,
    hchannel]
  simp [onTheWay, start, MacTask.inHand, Mainloop.todo]

/-- As long as the main loop runs, what the MAC has processed and what is still on its way to it is
what the start-up sends and the answers to what the MAC told the main loop, each once and in order;
of each of the two services this holds by itself. -/
theorem told_and_answered {rely : Past τ → Coordinator τ → Event → Prop} {pib : PIB} {h : Past τ}
    {w : Coordinator τ} (hr : Run step rely (start pib) h w) (hw : w.mainloop.isRunning = true) :
    (flow processed h ++ w.onTheWay).filterMap MainloopSend.mlme? =
        (Mainloop.startUp.map sendRequest ++
          (flow told h).flatMap answers).filterMap MainloopSend.mlme? ∧
      (flow processed h ++ w.onTheWay).filterMap MainloopSend.mcps? =
        (Mainloop.startUp.map sendRequest ++
          (flow told h).flatMap answers).filterMap MainloopSend.mcps? :=
  ⟨flow_of_run hr hw MainloopSend.oneService_mlme, flow_of_run hr hw MainloopSend.oneService_mcps⟩

def unhindered (_ : Past τ) (_ : Coordinator τ) (_ : Event) : Prop := True

instance (h : Past τ) (w : Coordinator τ) (e : Event) : Decidable (unhindered h w e) :=
  inferInstanceAs (Decidable True)

def working (keys : List Nat) (radio : Poll (Option RadioResponse)) : List Event :=
  keys.flatMap fun key =>
    [.poll 0 ⟨key⟩ [.channel, .panId, .shortAddress, .rxMode, .txPower] [[]] radio,
      .process ⟨⟨key⟩, [], 4, 5⟩]

def beaconRequested : RadioPacket := ⟨[0x03, 0x08, 1, 0xFF, 0xFF, 0xFF, 0xFF, 7], 0, 0⟩
def joinRequested : RadioPacket :=
  ⟨[0x23, 0xC8, 2, 0x34, 0x12, 0, 0, 0xFF, 0xFF, 7, 0, 0, 0, 0, 0, 0, 0, 1, 0x80], 0, 0⟩

/- A beacon is asked for before the MAC is set up, and a device joins after that. -/
def joining : List Event :=
  working [0, 1, 2, 3, 4, 5] .pending ++ working [6] (.ready (some (.onPacket beaconRequested))) ++
    List.replicate 7 .send ++ working ((List.range 13).map (· + 7)) .pending ++
    working [20] (.ready (some (.onPacket joinRequested))) ++
    [.takeMlme ⟨⟨21⟩⟩, .send] ++ List.replicate 8 (.takeMlme ⟨⟨22⟩⟩) ++ [.send] ++
    working [23] .pending

def joined : Past SleepTimer × Coordinator SleepTimer :=
  replay step unhindered (start (PIB.new ⟨1⟩ 11 0 0 0)) joining

theorem joined_run : Run step unhindered (start (PIB.new ⟨1⟩ 11 0 0 0)) joined.1 joined.2 :=
  run_replay joining

theorem told_and_answered_joined : (flow told joined.1).length = 10 ∧
    (flow processed joined.1 ++ joined.2.onTheWay).filterMap MainloopSend.mlme? =
      (Mainloop.startUp.map sendRequest ++
        (flow told joined.1).flatMap answers).filterMap MainloopSend.mlme? :=
  ⟨by decide, (told_and_answered joined_run (by decide)).1⟩

end Coordinator
end ZigbeeStack
