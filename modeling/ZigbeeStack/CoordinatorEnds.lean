import ZigbeeStack.CoordinatorBeacons

/-! The end of the coordinator: neither of its two tasks ends unless the radio makes it. -/
namespace ZigbeeStack
open Runs

namespace MacData
variable {τ : Type} [Sleep τ]

/- The ends of the channels on the other side that are still there. -/
def Unclosed (self : MacData τ) : Prop :=
  self.radioRequests.closed = false ∧ self.mcpsOutput.closed = false ∧
    self.mlmeOutput.closed = false

omit [Sleep τ] in
theorem sendFrame_closed {self self' : MacData τ} {key : UniqueKey} {frame : Frame}
    (h : self.sendFrame key frame = .ok self') :
    self'.radioRequests.closed = self.radioRequests.closed ∧
      self'.mcpsOutput.closed = self.mcpsOutput.closed := by
  simp only [sendFrame, bind, Except.bind, pure, Except.pure] at h
  split at h
  · cases h
  · split at h
    · cases h
    · rename_i sink hs
      cases h
      exact ⟨(sink_send (unwrap_ok hs)).2, rfl⟩

/-- The processing of an input closes no channel. -/
theorem processInput_closed {self self' : MacData τ} {draws : Draws} {input : MacInput}
    (h : self.processInput draws input = .ok self') :
    self'.radioRequests.closed = self.radioRequests.closed ∧
      self'.mcpsOutput.closed = self.mcpsOutput.closed := by
  match input, h with
  | .management (.setParam _ _ _), h =>
    simp only [processInput, processManagement, bind, Except.bind, pure, Except.pure] at h
    split at h
    · cases h
    · rename_i sink hs
      cases h
      exact ⟨(sink_send (unwrap_ok hs)).2, rfl⟩
  | .management (.sendFrame _), h | .data (.sendFrame _ _), h => exact sendFrame_closed h
  | .data (.initPendingTable _), h | .data (.setPendingShort _ _ _), h
  | .data (.setPendingExtended _ _ _), h =>
    simp only [processInput, processData, bind, Except.bind, pure, Except.pure] at h
    split at h
    · cases h
    · rename_i sink hs
      cases h
      exact ⟨(sink_send (unwrap_ok hs)).2, rfl⟩
  | .data (.confirm _), h =>
    simp only [processInput, processData, bind, Except.bind, pure, Except.pure] at h
    split at h
    · cases h
    · rename_i sink hs
      cases h
      exact ⟨rfl, (sink_send (unwrap_ok hs)).2⟩
  | .arrival (.mlmeRequest request), h =>
    simp only [processInput, processMlmeRequest, bind, Except.bind, pure, Except.pure] at h
    split at h
    · cases h
    · cases h
      exact ⟨rfl, rfl⟩
  | .arrival (.mcpsRequest request), h =>
    simp only [processInput, processMcpsRequest, bind, Except.bind, pure, Except.pure] at h
    split at h
    · split at h
      · cases h
      · rename_i sink hs
        cases h
        exact ⟨rfl, (sink_send (unwrap_ok hs)).2⟩
    · cases h
      exact ⟨rfl, rfl⟩
  | .arrival (.radio (.onPacket packet)), h =>
    replace h : self.processRadioPacket packet = .ok self' := h
    simp only [processRadioPacket, bind, Except.bind, pure, Except.pure] at h
    split at h
    · cases h
    · split at h
      · split at h
        · cases h
        · cases h
          exact ⟨rfl, rfl⟩
      · cases h
        exact ⟨rfl, rfl⟩
  | .arrival (.mlmeResponse _), h
  | .arrival (.radio (.setParam _ _ _)), h | .arrival (.radio (.getParam _ _ _)), h
  | .arrival (.radio (.initPendingDataTable _ _)), h | .arrival (.radio (.setPower _ _ _)), h
  | .arrival (.radio (.sendPacket _ _)), h | .arrival (.radio (.setPendingShort _ _)), h
  | .arrival (.radio (.setPendingExtended _ _)), h =>
    cases h
    exact ⟨rfl, rfl⟩

omit [Sleep τ] in
theorem sink_unclosed {α : Type} {sink : Sink α} (h : sink.closed = false) (item : α) :
    sink.send item = .ok { sink with items := sink.items ++ [item] } := by
  simp [Sink.send, h]

omit [Sleep τ] in
theorem sendFrame_unclosed {self : MacData τ} (h : self.radioRequests.closed = false)
    (key : UniqueKey) {frame : Frame} (hsendable : frame.frameType.Sendable) :
    ∃ self', self.sendFrame key frame = .ok self' := by
  obtain ⟨target, hpack, -⟩ := Frame.wire_of_sendable hsendable
  simp [sendFrame, hpack, unwrap, sink_unclosed h, bind, Except.bind, pure, Except.pure]

/-- With all channels open, what can be sent is sent, and what comes in is processed unless it is a
packet that the decoder rejects. -/
theorem processInput_unclosed {self : MacData τ} (h : self.Unclosed) (draws : Draws)
    {input : MacInput} (hsendable : ∀ f, input.frame = some f → f.frameType.Sendable) :
    (∃ self', self.processInput draws input = .ok self') ∨
      ∃ packet e, input = .arrival (.radio (.onPacket packet)) ∧ packet.unpack = .error e := by
  obtain ⟨hradio, hmcps, hmlme⟩ := h
  match input, hsendable with
  | .management (.setParam _ _ _), _ | .data (.initPendingTable _), _
  | .data (.setPendingShort _ _ _), _ | .data (.setPendingExtended _ _ _), _ =>
    refine .inl ?_
    simp [processInput, processManagement, processData, unwrap, sink_unclosed hradio, bind,
      Except.bind, pure, Except.pure]
  | .management (.sendFrame f), hsendable | .data (.sendFrame _ f), hsendable =>
    exact .inl (sendFrame_unclosed hradio _ (hsendable f rfl))
  | .data (.confirm _), _ =>
    refine .inl ?_
    simp [processInput, processData, unwrap, sink_unclosed hmcps, bind, Except.bind, pure,
      Except.pure]
  | .arrival (.mlmeRequest request), _ =>
    exact .inl (processMlmeRequest_unclosed hmlme draws.bsn draws.dsn request)
  | .arrival (.mcpsRequest request), _ =>
    refine .inl ?_
    simp only [processInput, processMcpsRequest]
    cases (self.data.processMcpsRequest self.pib draws.key draws.queues request).1 with
    | none => simp [bind, Except.bind, pure, Except.pure]
    | some confirm =>
      simp [unwrap, sink_unclosed hmcps, bind, Except.bind, pure, Except.pure]
  | .arrival (.radio (.onPacket packet)), _ =>
    cases hunpack : packet.unpack with
    | error e => exact .inr ⟨packet, e, rfl, hunpack⟩
    | ok r => exact .inl ((processRadioPacket_accepted hunpack).mpr fun _ => hmlme)
  | .arrival (.mlmeResponse _), _
  | .arrival (.radio (.setParam _ _ _)), _ | .arrival (.radio (.getParam _ _ _)), _
  | .arrival (.radio (.initPendingDataTable _ _)), _ | .arrival (.radio (.setPower _ _ _)), _
  | .arrival (.radio (.sendPacket _ _)), _ | .arrival (.radio (.setPendingShort _ _)), _
  | .arrival (.radio (.setPendingExtended _ _)), _ => exact .inl ⟨_, rfl⟩

/-- A poll panics only at the end of a stream. -/
theorem pollNextInput_panics {self self' : MacData τ} {visit : Visit} {panic : Panic}
    (h : self.pollNextInput visit = some (.error panic, self')) : visit.arrival = .ready none := by
  unfold pollNextInput at h
  split at h
  · cases h
  · split at h
    · cases h
    · cases h
    · dsimp only at h
      split at h
      · cases h
      · assumption
      · cases h

theorem Polled.sinks {self self' : MacData τ} {visit : Visit} {result : Poll MacInput}
    (h : Polled self visit result self') :
    self'.radioRequests = self.radioRequests ∧ self'.mcpsOutput = self.mcpsOutput := by
  cases h <;> exact ⟨rfl, rfl⟩

end MacData

namespace Coordinator
variable {τ : Type} [Sleep τ]

def RadioFails (t : Step τ) : Prop :=
  t.event = .dropRadioRequests ∨
    (∃ cx key params rounds, t.event = .poll cx key params rounds (.ready none)) ∨
    ∃ mac packet e draws, t.before.mac = .processing mac (.arrival (.radio (.onPacket packet))) ∧
      t.event = .process draws ∧ packet.unpack = .error e

/-- The MAC sees only what the MAC would see with its neighbours left out. -/
theorem mac_of_step {w w' : Coordinator τ} {e : Event} {o : Unit}
    (hs : w.step e = some (w', o)) : w'.mac = w.mac ∨ ∃ e', w.mac.step e' = some (w'.mac, ()) := by
  cases moves hs with
  | polls hmac htask => exact .inr ⟨_, (congrArg (MacTask.step · _) hmac).trans htask⟩
  | @processes draws mac input mac' hmac hp =>
    refine .inr ⟨.process draws, ?_⟩
    rw [hmac]
    simp [MacTask.step, hp]
  | @fails draws mac input panic hmac hp =>
    refine .inr ⟨.process draws, ?_⟩
    rw [hmac]
    simp [MacTask.step, hp]
  | drops => exact .inr ⟨.dropRadioRequests, by cases w.mac <;> rfl⟩
  | sendsMlme _ _ | sendsMcps _ _ | reads _ _ | skips _ _ | stops _ _ => exact .inl rfl

structure Stands (h : Past τ) (w : Coordinator τ) : Prop where
  sendable : w.mac.Sendable
  mcps : ∀ mac ∈ w.mac.mac, mac.mcpsOutput.closed = false
  radio : ∀ mac ∈ w.mac.mac, mac.radioRequests.closed = true → ∃ t ∈ h, RadioFails t
  panicked : w.mac.isPanicked = true → ∃ t ∈ h, RadioFails t

omit [Sleep τ] in
theorem stands_start (pib : PIB) : Stands [] (start pib : Coordinator τ) where
  sendable := MacData.sendable_new pib
  mcps mac hmac := by
    cases hmac
    rfl
  radio mac hmac hclosed := by
    cases hmac
    cases hclosed
  panicked h := nomatch h

theorem radio_of_poll {pib : PIB} {h : Past τ} {w : Coordinator τ} (hsetup : SetUp pib h w)
    {mac : MacData τ} {task : MacTask τ} {visit : Visit} {radio : Poll (Option RadioResponse)}
    (hmac : w.mac = .polling mac) (hvisit : visit.arrival = w.arrival radio)
    (hs : MacTask.step (.polling mac) (.poll visit) = some (task, ()))
    (hpanic : task.isPanicked = true) : radio = .ready none := by
  have hend : visit.arrival = .ready none := by
    simp only [MacTask.step] at hs
    split at hs
    · cases hs
      cases hpanic
    · cases hs
      cases hpanic
    · rename_i hp
      exact MacData.pollNextInput_panics hp
    · cases hs
  have hrunning := hsetup.running (by rw [hmac]; rfl)
  rw [hvisit] at hend
  unfold arrival at hend
  split at hend
  · rename_i response
    cases response with
    | none => rfl
    | some response => cases hend
  · split at hend
    · cases hend
    · rw [if_pos hrunning] at hend
      split at hend <;> cases hend

theorem Stands.step {pib : PIB} {h : Past τ} {w w' : Coordinator τ} {e : Event} {o : Unit}
    (hsetup : SetUp pib h w) (hi : Stands h w) (hs : w.step e = some (w', o)) :
    Stands (⟨w, e, o, w'⟩ :: h) w' := by
  have hpast : (∃ t ∈ h, RadioFails t) → ∃ t ∈ ⟨w, e, o, w'⟩ :: h, RadioFails t := by
    rintro ⟨t, ht, hfails⟩
    exact ⟨t, List.mem_cons_of_mem _ ht, hfails⟩
  have hnow (hfails : RadioFails ⟨w, e, o, w'⟩) : ∃ t ∈ ⟨w, e, o, w'⟩ :: h, RadioFails t :=
    ⟨_, List.mem_cons_self, hfails⟩
  have hsendable : w'.mac.Sendable := by
    rcases mac_of_step hs with hsame | ⟨e', hmac⟩
    · rw [hsame]
      exact hi.sendable
    · exact hi.sendable.step hmac
  cases moves hs with
  | @polls cx key params rounds radio mac task hmac htask =>
    have hmem : mac ∈ w.mac.mac := by
      rw [hmac]
      rfl
    have hsinks : ∀ mac' ∈ task.mac, mac'.radioRequests = mac.radioRequests ∧
        mac'.mcpsOutput = mac.mcpsOutput := by
      intro mac' hmac'
      cases MacTask.moves htask with
      | waits hp | takes hp =>
        cases hmac'
        exact hp.sinks
      | closes hno _ _ => exact absurd rfl (hno _)
      | panics => cases hmac'
    refine ⟨hsendable, fun mac' hmac' => ?_, fun mac' hmac' hclosed => ?_, fun hpanic => ?_⟩
    · rw [(hsinks mac' hmac').2]
      exact hi.mcps mac hmem
    · rw [(hsinks mac' hmac').1] at hclosed
      exact hpast (hi.radio mac hmem hclosed)
    · obtain rfl := radio_of_poll hsetup hmac rfl htask hpanic
      exact hnow (.inr (.inl ⟨_, _, _, _, rfl⟩))
  | @processes draws mac input mac₁ hmac hp =>
    have hmem : mac ∈ w.mac.mac := by
      rw [hmac]
      rfl
    obtain ⟨hradio, hmcps⟩ := MacData.processInput_closed hp
    refine ⟨hsendable, fun mac' hmac' => ?_, fun mac' hmac' hclosed => ?_, fun hpanic => ?_⟩
    · cases hmac'
      rw [hmcps]
      exact hi.mcps mac hmem
    · cases hmac'
      exact hpast (hi.radio mac hmem (hradio ▸ hclosed))
    · cases hpanic
  | @fails draws mac input panic hmac hp =>
    have hmem : mac ∈ w.mac.mac := by
      rw [hmac]
      rfl
    have hwaiting := hi.sendable
    rw [hmac] at hwaiting
    refine ⟨hsendable, fun mac' hmac' => (nomatch hmac'), fun mac' hmac' => (nomatch hmac'),
      fun _ => ?_⟩
    cases hclosed : mac.radioRequests.closed with
    | true => exact hpast (hi.radio mac hmem hclosed)
    | false =>
      have hunclosed : mac.Unclosed := ⟨hclosed, hi.mcps mac hmem, hsetup.unclosed mac hmem⟩
      rcases MacData.processInput_unclosed hunclosed draws hwaiting.2 with
        ⟨mac', hok⟩ | ⟨packet, e, rfl, hunpack⟩
      · cases hok.symm.trans hp
      · exact hnow (.inr (.inr ⟨mac, packet, e, draws, hmac, rfl, hunpack⟩))
  | drops =>
    refine ⟨hsendable, fun mac' hmac' => ?_, fun _ _ _ => hnow (.inl rfl),
      fun _ => hnow (.inl rfl)⟩
    obtain ⟨mac, hmem, rfl⟩ := MacTask.mem_mapMac hmac'
    exact hi.mcps mac hmem
  | sendsMlme _ _ | sendsMcps _ _ | reads _ _ | skips _ _ | stops _ _ =>
    exact ⟨hsendable, hi.mcps, fun mac hmac hclosed => hpast (hi.radio mac hmac hclosed),
      fun hpanic => hpast (hi.panicked hpanic)⟩

/-- Neither task ends of itself. The MAC panics only after the driver is gone, or at the end of the
responses, or over a packet that the decoder rejects; and the main loop runs at least as long. -/
theorem ends_by_radio {rely : Past τ → Coordinator τ → Event → Prop} {pib : PIB} {h : Past τ}
    {w : Coordinator τ} (hr : Run Coordinator.step rely (start pib) h w)
    (hends : w.mac.isPanicked = true ∨ w.mainloop.isRunning = false) :
    w.mac.isPanicked = true ∧ ∃ t ∈ h, RadioFails t := by
  have hi : Stands h w := hr.invariant (P := Stands) (stands_start pib)
    fun _ _ _ _ _ hr hi _ hs => hi.step (setUp_of_run hr) hs
  have hpanic : w.mac.isPanicked = true := by
    rcases hends with hpanic | hstops
    · exact hpanic
    · cases hpanic : w.mac.isPanicked with
      | true => rfl
      | false => cases hstops.symm.trans ((setUp_of_run hr).running hpanic)
  exact ⟨hpanic, hi.panicked hpanic⟩

def ending : List Event :=
  working [0, 1, 2, 3, 4, 5] .pending ++ working [6] (.ready (some (.onPacket ⟨[1], 0, 0⟩))) ++
    [.send]

def ended : Past SleepTimer × Coordinator SleepTimer :=
  replay Coordinator.step unhindered (start (PIB.new ⟨1⟩ 11 0 0 0)) ending

theorem ended_run :
    Run Coordinator.step unhindered (start (PIB.new ⟨1⟩ 11 0 0 0)) ended.1 ended.2 :=
  run_replay ending

theorem ends_by_radio_ended : ended.2.mainloop = .panicked .unwrap ∧
    ended.2.mac.isPanicked = true ∧ ∃ t ∈ ended.1, RadioFails t := by
  have hmain : ended.2.mainloop = .panicked .unwrap := by decide
  exact ⟨hmain, ends_by_radio ended_run (.inr (by rw [hmain]; rfl))⟩

end Coordinator
end ZigbeeStack
