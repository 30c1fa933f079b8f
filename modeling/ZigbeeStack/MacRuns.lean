import ZigbeeStack.DataRuns
import ZigbeeStack.MacService

/-! What one step of the MAC does to its two services and the PIB. -/
namespace ZigbeeStack

inductive CommandKind where
  | setParam
  | initPendingTable
  | setPending
  | sendPacket
deriving DecidableEq, Repr

def RadioResponse.completion : RadioResponse → Option (CommandKind × UniqueKey × Bool)
  | .setParam key _ success => some (.setParam, key, success)
  | .initPendingDataTable key success => some (.initPendingTable, key, success)
  | .setPendingShort key success => some (.setPending, key, success)
  | .setPendingExtended key success => some (.setPending, key, success)
  | .sendPacket key success => some (.sendPacket, key, success)
  | .getParam _ _ _ | .setPower _ _ _ | .onPacket _ => none

namespace ManagementService

/-- A request leaves the data service alone unless it resets everything. -/
theorem processMlmeRequest_data {τ : Type} {self self' : ManagementService} {pib pib' : PIB}
    {data data' : DataService τ} {bsn dsn : UInt8} {request : Mlme.Request}
    {confirm : Mlme.Confirm}
    (h : self.processMlmeRequest pib data bsn dsn request = (confirm, self', data', pib')) :
    data' = data ∨ ((∃ r, request = .reset r) ∧ data' = .new) := by
  cases request with
  | reset request =>
    cases h
    exact .inr ⟨⟨request, rfl⟩, rfl⟩
  | _ =>
    cases h
    exact .inl rfl

end ManagementService

namespace MacData
variable {τ : Type} [Sleep τ]

def complete (self : MacData τ) (kind : CommandKind) (key : UniqueKey) (success : Bool) :
    MacData τ :=
  match kind with
  | .setParam => { self with management := self.management.processSetParamResult key success }
  | .initPendingTable => { self with data := self.data.processInitPendingTableResult key success }
  | .setPending => { self with data := self.data.processSetPendingResult key success }
  | .sendPacket => { self with data := self.data.processSendResult key success }

theorem processRadioResponse_completion (self : MacData τ) {response : RadioResponse}
    {kind : CommandKind} {key : UniqueKey} {success : Bool}
    (h : response.completion = some (kind, key, success)) :
    self.processRadioResponse response = .ok (self.complete kind key success) := by
  cases response with
  | getParam _ _ _ => cases h
  | setPower _ _ _ => cases h
  | onPacket _ => cases h
  | _ => cases h; rfl

inductive Processed (self : MacData τ) (draws : Draws) : MacInput → MacData τ → Prop where
  | sends {input self'} : (∀ arrival, input ≠ .arrival arrival) →
      self'.management = self.management → self'.data = self.data → self'.pib = self.pib →
      Processed self draws input self'
  | request {request confirm self'} :
      self.management.processMlmeRequest self.pib self.data draws.bsn draws.dsn request =
        (confirm, self'.management, self'.data, self'.pib) →
      Processed self draws (.arrival (.mlmeRequest request)) self'
  | response {response} : Processed self draws (.arrival (.mlmeResponse response))
      (self.processMlmeResponse draws.key response)
  | mcps {request self'} : self'.management = self.management → self'.pib = self.pib →
      self'.data = (self.data.processMcpsRequest self.pib draws.key draws.queues request).2 →
      Processed self draws (.arrival (.mcpsRequest request)) self'
  | completes {response kind key success} : response.completion = some (kind, key, success) →
      Processed self draws (.arrival (.radio response)) (self.complete kind key success)
  | packet {packet frame indication self'} :
      self.management.processFrame self.pib frame =
        (indication, self'.management, self'.pib) →
      self'.data = self.data.processFrame self'.pib frame →
      Processed self draws (.arrival (.radio (.onPacket packet))) self'
  | ignores {response} : response.completion = none →
      Processed self draws (.arrival (.radio response)) self

omit [Sleep τ] in
theorem sendFrame_rest {self self' : MacData τ} {key : UniqueKey} {frame : Frame}
    (h : self.sendFrame key frame = .ok self') :
    self'.management = self.management ∧ self'.data = self.data ∧ self'.pib = self.pib := by
  simp only [sendFrame, bind, Except.bind, pure, Except.pure] at h
  split at h
  · cases h
  · split at h
    · cases h
    · cases h
      exact ⟨rfl, rfl, rfl⟩

omit [Sleep τ] in
theorem processManagement_rest {self self' : MacData τ} {key : UniqueKey}
    {action : ManagementServiceAction} (h : self.processManagement key action = .ok self') :
    self'.management = self.management ∧ self'.data = self.data ∧ self'.pib = self.pib := by
  cases action with
  | setParam k p v =>
    simp only [processManagement, bind, Except.bind, pure, Except.pure] at h
    split at h
    · cases h
    · cases h
      exact ⟨rfl, rfl, rfl⟩
  | sendFrame f => exact sendFrame_rest h

omit [Sleep τ] in
theorem processData_rest {self self' : MacData τ} {action : DataServiceAction}
    (h : self.processData action = .ok self') :
    self'.management = self.management ∧ self'.data = self.data ∧ self'.pib = self.pib := by
  cases action with
  | sendFrame key frame => exact sendFrame_rest h
  | _ =>
    simp only [processData, bind, Except.bind, pure, Except.pure] at h
    split at h
    · cases h
    · cases h
      exact ⟨rfl, rfl, rfl⟩

theorem processed {self self' : MacData τ} {draws : Draws} {input : MacInput}
    (h : self.processInput draws input = .ok self') : Processed self draws input self' := by
  match input, h with
  | .management action, h =>
    obtain ⟨hm, hd, hp⟩ := processManagement_rest h
    exact .sends (by simp) hm hd hp
  | .data action, h =>
    obtain ⟨hm, hd, hp⟩ := processData_rest h
    exact .sends (by simp) hm hd hp
  | .arrival (.mlmeRequest request), h =>
    simp only [processInput, processMlmeRequest, bind, Except.bind, pure, Except.pure] at h
    split at h
    · cases h
    · cases h
      exact .request rfl
  | .arrival (.mlmeResponse response), h =>
    cases h
    exact .response
  | .arrival (.mcpsRequest request), h =>
    simp only [processInput, processMcpsRequest, bind, Except.bind, pure, Except.pure] at h
    split at h
    · split at h
      · cases h
      · cases h
        exact .mcps rfl rfl rfl
    · cases h
      exact .mcps rfl rfl rfl
  | .arrival (.radio response), h =>
    cases hc : response.completion with
    | some completion =>
      obtain ⟨kind, key, success⟩ := completion
      have hok : self.processInput draws (.arrival (.radio response)) =
          .ok (self.complete kind key success) := self.processRadioResponse_completion hc
      cases hok.symm.trans h
      exact .completes hc
    | none =>
      cases response with
      | onPacket packet =>
        replace h : self.processRadioPacket packet = .ok self' := h
        simp only [processRadioPacket, bind, Except.bind, pure, Except.pure] at h
        split at h
        · cases h
        · split at h
          · split at h
            · cases h
            · cases h
              exact .packet rfl rfl
          · cases h
            exact .packet rfl rfl
      | getParam _ _ _ => cases h; exact .ignores rfl
      | setPower _ _ _ => cases h; exact .ignores rfl
      | _ => cases hc

inductive Polled (self : MacData τ) (visit : Visit) : Poll MacInput → MacData τ → Prop where
  | management {action management} :
      self.management.pollAction visit.cx visit.key visit.params = (.ready action, management) →
      Polled self visit (.ready (.management action)) { self with management := management }
  | data {management action data pib} :
      self.management.pollAction visit.cx visit.key visit.params = (.pending, management) →
      self.data.pollAction self.pib visit.cx visit.key visit.rounds =
        some (.ready action, data, pib) →
      Polled self visit (.ready (.data action))
        { self with management := management, data := data, pib := pib }
  | passes {management data pib result} :
      self.management.pollAction visit.cx visit.key visit.params = (.pending, management) →
      self.data.pollAction self.pib visit.cx visit.key visit.rounds = some (.pending, data, pib) →
      (∀ input, result = .ready input → ∃ arrival, input = .arrival arrival) →
      Polled self visit result { self with management := management, data := data, pib := pib }

theorem polled {self self' : MacData τ} {visit : Visit} {result : Poll MacInput}
    (h : self.pollNextInput visit = some (.ok result, self')) : Polled self visit result self' := by
  unfold pollNextInput at h
  split at h
  · rename_i hm
    cases h
    exact .management hm
  · rename_i hm
    split at h
    · cases h
    · rename_i hd
      cases h
      exact .data hm hd
    · rename_i hd
      dsimp only at h
      split at h
      · cases h
        exact .passes hm hd (by simp)
      · cases h
      · cases h
        exact .passes hm hd (by simp)

end MacData

namespace MacTask
open MacData
variable {τ : Type} [Sleep τ]

inductive Moves : MacTask τ → MacEvent → MacTask τ → Prop where
  | waits {mac visit mac'} : Polled mac visit .pending mac' →
      Moves (.polling mac) (.poll visit) (.polling mac')
  | takes {mac visit input mac'} : Polled mac visit (.ready input) mac' →
      Moves (.polling mac) (.poll visit) (.processing mac' input)
  | processes {mac input draws mac'} : Processed mac draws input mac' →
      Moves (.processing mac input) (.process draws) (.polling mac')
  | closes {task e} {f : MacData τ → MacData τ} : (∀ visit, e ≠ .poll visit) →
      (∀ draws, e ≠ .process draws) →
      (∀ mac, (f mac).management = mac.management ∧ (f mac).data = mac.data ∧
        (f mac).pib = mac.pib) → Moves task e (task.mapMac f)
  | panics {task e panic} : Moves task e (.panicked panic)

theorem moves {task task' : MacTask τ} {e : MacEvent} {o : Unit}
    (h : step task e = some (task', o)) : Moves task e task' := by
  cases e with
  | poll visit =>
    cases task with
    | polling mac =>
      simp only [step] at h
      split at h
      · rename_i hp
        cases h
        exact .takes (polled hp)
      · rename_i hp
        cases h
        exact .waits (polled hp)
      · cases h
        exact .panics
      · cases h
    | _ => cases h
  | process draws =>
    cases task with
    | processing mac input =>
      simp only [step] at h
      split at h
      · rename_i hp
        cases h
        exact .processes (processed hp)
      · cases h
        exact .panics
    | _ => cases h
  | _ =>
    simp only [step] at h
    cases h
    exact .closes (by simp) (by simp) fun mac => ⟨rfl, rfl, rfl⟩

end MacTask
end ZigbeeStack
