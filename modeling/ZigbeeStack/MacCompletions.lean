import ZigbeeStack.HeldKeys

/-! Completions that come late, or twice, or for a request that is no more. -/
namespace ZigbeeStack

def MacInput.submitted (pib : PIB) (draws : Draws) : MacInput → Option DataRequest
  | .arrival (.mlmeResponse response) =>
    DataService.submission pib (.mlmeResponse draws.key response)
  | .arrival (.mcpsRequest request) =>
    DataService.submission pib (.mcpsRequest draws.key draws.queues request)
  | _ => none

def MacEvent.key : MacEvent → Option UniqueKey
  | .poll visit => some visit.key
  | .process draws => some draws.key
  | _ => none

namespace DataService
open DeviceQueue
variable {τ : Type} [Sleep τ]

theorem Touched.carries {pib : PIB} {e : Event} {d : Option FullAddress} {q q' : DeviceQueue τ}
    (h : Touched pib e d q q') : Carries q q' := by
  cases h with
  | same => exact .refl q
  | insert _ _ => exact q.insert_carries _ _
  | remove _ => exact q.remove_carries _
  | sendResult _ =>
    exact carries_of_advances (q.processSendResult_advances _ _) (q.processSendResult_requests _ _)
  | acknowledge _ _ =>
    exact carries_of_advances (q.processAcknowledge_advances _ _)
      (q.processAcknowledge_requests _ _)
  | dataRequest _ _ =>
    rcases q.processDatarequest_state with hidle | hsame
    · exact carries_of_idle hidle
    · exact carries_of_advances (by rw [hsame]; exact .refl _) rfl

end DataService

namespace MacData
open DeviceQueue
variable {τ : Type}

def held (self : MacData τ) : KeySlot → Option UniqueKey
  | .param param => self.management.held param
  | .table slot => self.data.pendingTable.held slot
  | .queue destination => (self.data.queueAt destination).held

structure Moved (mac mac' : MacData τ) (command : Option (CommandKind × UniqueKey))
    (request : Option DataRequest) : Prop where
  held : ∀ slot k, mac'.held slot = some k → mac.held slot = some k ∨ command = some (slot.kind, k)
  queues : (∀ d, Carries (mac.data.queueAt d) (mac'.data.queueAt d)) ∨
    ∃ d k r, command = some (.sendPacket, k) ∧ (mac'.data.queueAt d).held = some k ∧
      (mac'.data.requestsAt d).head? = some r ∧
      ∀ d', d' ≠ d → Carries (mac.data.queueAt d') (mac'.data.queueAt d')
  requests : ∀ d, ∀ r ∈ mac'.data.requestsAt d,
    r ∈ mac.data.requestsAt d ∨ (request = some r ∧ r.destination = d)

theorem Moved.of_holds {mac mac' : MacData τ}
    (hm : ∀ param k, mac'.management.held param = some k → mac.management.held param = some k)
    (hd : mac.data.Holds mac'.data) : Moved mac mac' none none where
  held slot k hk := by
    cases slot with
    | param param => exact .inl (hm param k hk)
    | table slot => exact .inl (hd.tables slot k hk)
    | queue d => exact .inl (hd.queues d k hk).1
  queues := .inl hd.queues
  requests d r hr := .inl (hd.requests d r hr)

theorem holds_new (s : DataService τ) : s.Holds .new where
  tables slot k hk := by cases slot <;> cases hk
  queues d := carries_of_idle rfl
  requests d r hr := absurd hr List.not_mem_nil

variable [Sleep τ]

theorem Moved.of_quiet {mac mac' : MacData τ} {pib pib' : PIB} {e : DataService.Event}
    (hm : mac'.management.held = mac.management.held)
    (hq : DataService.Quiet e (mac.data, pib) (mac'.data, pib'))
    (ht : mac'.data.pendingTable = mac.data.pendingTable) :
    Moved mac mac' none (DataService.submission pib e) where
  held slot k hk := by
    cases slot with
    | param param => exact .inl (by rwa [MacData.held, hm] at hk)
    | table slot => exact .inl (by rwa [MacData.held, ht] at hk)
    | queue d => exact .inl ((hq.queues d).carries k hk).1
  queues := .inl fun d => (hq.queues d).carries
  requests d r hr := (hq.queues d).requests hr

/-! A completion is taken where its key is held, which then holds it no more. -/

theorem complete_of_not_held {mac : MacData τ} {kind : CommandKind} {key : UniqueKey}
    (success : Bool) (h : ∀ slot : KeySlot, slot.kind = kind → mac.held slot ≠ some key) :
    mac.complete kind key success = mac := by
  cases kind with
  | setParam =>
    rw [complete, ManagementService.processSetParamResult_of_not_held success
      fun param => h (.param param) rfl]
  | initPendingTable =>
    rw [complete, DataService.processInitPendingTableResult,
      CombinedPendingTable.reportInitResult_of_not_held success (h (.table .init) rfl)]
  | setPending =>
    rw [complete, DataService.processSetPendingResult,
      CombinedPendingTable.reportUpdateResult_of_not_held success (h (.table .short) rfl)
        (h (.table .extended) rfl)]
  | sendPacket =>
    have hqueues : HashMap.mapValues (fun queue => queue.processSendResult key success)
        mac.data.queues = mac.data.queues := by
      refine HashMap.mapValues_eq_self fun d q hq => ?_
      have hk := h (.queue d) rfl
      rw [held, DataService.queueAt_of_get hq] at hk
      exact processSendResult_of_not_held success hk
    rw [complete, DataService.processSendResult, DataService.mapQueues, hqueues]

theorem complete_held {mac : MacData τ} {kind : CommandKind} {key : UniqueKey} {success : Bool}
    {slot : KeySlot} {k : UniqueKey} (h : (mac.complete kind key success).held slot = some k) :
    mac.held slot = some k ∧ (slot.kind, k) ≠ (kind, key) := by
  cases kind with
  | setParam =>
    cases slot with
    | param param =>
      obtain ⟨hk, hne⟩ := ManagementService.processSetParamResult_held h
      exact ⟨hk, by simpa using fun _ => hne⟩
    | table slot => exact ⟨h, by cases slot <;> simp [KeySlot.kind]⟩
    | queue d => exact ⟨h, by simp [KeySlot.kind]⟩
  | initPendingTable =>
    cases slot with
    | param param => exact ⟨h, by simp [KeySlot.kind]⟩
    | table slot =>
      obtain ⟨hk, hne⟩ := CombinedPendingTable.reportInitResult_held h
      exact ⟨hk, by cases slot <;> simp_all [KeySlot.kind]⟩
    | queue d => exact ⟨h, by simp [KeySlot.kind]⟩
  | setPending =>
    cases slot with
    | param param => exact ⟨h, by simp [KeySlot.kind]⟩
    | table slot =>
      obtain ⟨hk, hne⟩ := CombinedPendingTable.reportUpdateResult_held h
      exact ⟨hk, by cases slot <;> simp_all [KeySlot.kind]⟩
    | queue d => exact ⟨h, by simp [KeySlot.kind]⟩
  | sendPacket =>
    cases slot with
    | param param => exact ⟨h, by simp [KeySlot.kind]⟩
    | table slot => exact ⟨h, by cases slot <;> simp [KeySlot.kind]⟩
    | queue d =>
      have hq : ((mac.data.queueAt d).processSendResult key success).held = some k := by
        rw [← DataService.queueAt_processSendResult]
        exact h
      refine ⟨held_of_advances (processSendResult_advances _ _ _) hq, ?_⟩
      rintro heq
      obtain ⟨-, rfl⟩ := Prod.mk.inj heq
      exact processSendResult_not_held _ _ _ hq

theorem Moved.complete (mac : MacData τ) (kind : CommandKind) (key : UniqueKey) (success : Bool) :
    Moved mac (mac.complete kind key success) none none := by
  have hheld : ∀ slot k, (mac.complete kind key success).held slot = some k →
      mac.held slot = some k := fun slot k hk => (complete_held hk).1
  cases kind with
  | sendPacket =>
    exact .of_quiet (e := .sendResult key success) rfl
      (DataService.quiet_of_sendResult (mac.data, mac.pib) key success) rfl
  | _ =>
    refine .of_holds (fun param k hk => hheld (.param param) k hk)
      (.of_tables rfl fun slot k hk => ?_)
    exact hheld (.table slot) k hk

theorem Processed.moved {mac mac' : MacData τ} {draws : Draws} {input : MacInput}
    (h : Processed mac draws input mac') :
    Moved mac mac' none (input.submitted mac.pib draws) := by
  cases h with
  | sends hno hm hd _ =>
    have hsub : input.submitted mac.pib draws = none := by
      unfold MacInput.submitted
      split
      · exact absurd rfl (hno _)
      · exact absurd rfl (hno _)
      · rfl
    rw [hsub]
    exact .of_holds (by simp [hm]) (by rw [hd]; exact .refl _)
  | @request request confirm mac' hr =>
    refine .of_holds (fun param k hk => ManagementService.processMlmeRequest_held hr hk) ?_
    rcases ManagementService.processMlmeRequest_data hr with hd | ⟨-, hd⟩
    · rw [hd]
      exact .refl _
    · rw [hd]
      exact holds_new _
  | @response response =>
    have hm : (mac.processMlmeResponse draws.key response).management.held =
        mac.management.held := rfl
    have hq : DataService.Quiet (.mlmeResponse draws.key response) (mac.data, mac.pib)
        ((mac.processMlmeResponse draws.key response).data, mac.pib) :=
      DataService.quiet_of_mlmeResponse (mac.data, mac.pib) draws.key response
    have ht : (mac.processMlmeResponse draws.key response).data.pendingTable =
        mac.data.pendingTable := by
      cases response with
      | associate deviceAddress fastAssociation status => exact (mac.data.insert_rest _ _).2
    exact .of_quiet hm hq ht
  | @mcps request mac' hm _ hd =>
    have hq := DataService.quiet_of_mcpsRequest (mac.data, mac.pib) draws.key draws.queues request
    have ht := mac.data.processMcpsRequest_pendingTable mac.pib draws.key draws.queues request
    dsimp only at hq
    rw [← hd] at hq ht
    exact .of_quiet (by rw [hm]) hq ht
  | completes _ => exact .complete mac _ _ _
  | @packet packet frame indication mac' hf hd =>
    have hq := DataService.quiet_of_frame (mac.data, mac'.pib) frame
    have ht := (mac.data.processFrame_rest mac'.pib frame).2
    dsimp only at hq
    rw [← hd] at hq ht
    have hheld := mac.management.processFrame_held mac.pib frame
    rw [hf] at hheld
    exact .of_quiet (e := .frame frame) hheld hq ht
  | ignores _ => exact .of_holds (fun _ _ hk => hk) (.refl _)

def commandOf : Poll MacInput → Option (CommandKind × UniqueKey)
  | .ready input => input.command
  | .pending => none

theorem Polled.command_key {mac mac' : MacData τ} {visit : Visit} {result : Poll MacInput}
    (h : Polled mac visit result mac') {kind : CommandKind} {k : UniqueKey}
    (hk : commandOf result = some (kind, k)) : k = visit.key := by
  cases h with
  | management hm => exact ManagementService.pollAction_command_key hm hk
  | data _ hd => exact DataService.pollAction_command_key hd hk
  | passes _ _ harrival =>
    cases result with
    | pending => cases hk
    | ready input =>
      obtain ⟨arrival, rfl⟩ := harrival input rfl
      cases hk

omit [Sleep τ] in
/-- What a poll of the data service does to the keys of the whole MAC. -/
theorem Moved.of_polls {mac mac' : MacData τ} {action : Poll DataServiceAction}
    {command : Option (CommandKind × UniqueKey)}
    (hm : ∀ param k, mac'.management.held param = some k → mac.management.held param = some k)
    (hd : mac.data.Polls action mac'.data)
    (hcommand : ∀ a c, action = .ready a → (MacInput.data a).command = some c → command = some c) :
    Moved mac mac' command none where
  held slot k hk := by
    cases slot with
    | param param => exact .inl (hm param k hk)
    | table slot =>
      refine (hd.tables slot k hk).imp_right ?_
      rintro ⟨a, ha, hissue⟩
      exact hcommand a _ ha hissue
    | queue d =>
      rcases hd.queues with hcarry | ⟨d₀, k₀, f, r, haction, hheld, -, hothers⟩
      · exact .inl (hcarry d k hk).1
      · by_cases hd₀ : d = d₀
        · subst hd₀
          obtain rfl := Option.some.inj (hheld.symm.trans hk)
          exact .inr (hcommand _ _ haction rfl)
        · exact .inl (hothers d hd₀ k hk).1
  queues := hd.queues.imp_right fun ⟨d, k, _, r, haction, hheld, hfront, hothers⟩ =>
    ⟨d, k, r, hcommand _ _ haction rfl, hheld, hfront, hothers⟩
  requests d r hr := .inl (hd.requests d r hr)

theorem Polled.moved {mac mac' : MacData τ} {visit : Visit} {result : Poll MacInput}
    (h : Polled mac visit result mac') : Moved mac mac' (commandOf result) none := by
  cases h with
  | @management action management hm =>
    refine ⟨fun slot k hk => ?_, .inl fun d => .refl _, fun d r hr => .inl hr⟩
    cases slot with
    | param param =>
      refine (ManagementService.pollAction_held hm hk).imp_right ?_
      rintro ⟨a, ha, hissue⟩
      cases ha
      exact hissue
    | table slot => exact .inl hk
    | queue d => exact .inl hk
  | @data management action data pib hm hd =>
    refine .of_polls (fun param k hk => ?_) (DataService.pollAction_polls hd) ?_
    · exact (ManagementService.pollAction_held hm hk).resolve_right (by simp)
    · intro a c ha hissue
      cases ha
      exact hissue
  | @passes management data pib result hm hd harrival =>
    refine .of_polls (fun param k hk => ?_) (DataService.pollAction_polls hd) (by simp)
    exact (ManagementService.pollAction_held hm hk).resolve_right (by simp)

/-- A reset leaves no key anywhere. -/
theorem Processed.reset {mac mac' : MacData τ} {draws : Draws} {request : Mlme.ResetRequest}
    (h : Processed mac draws (.arrival (.mlmeRequest (.reset request))) mac') (slot : KeySlot) :
    mac'.held slot = none := by
  cases h with
  | sends hno _ _ _ => exact absurd rfl (hno _)
  | request hr =>
    simp only [ManagementService.processMlmeRequest, ManagementService.processMlmeResetRequest,
      Prod.mk.injEq] at hr
    obtain ⟨-, hm, hd, -⟩ := hr
    cases slot with
    | param param =>
      rw [held, ← hm]
      exact ManagementService.new_held _ _
    | table slot =>
      rw [held, ← hd]
      cases slot <;> rfl
    | queue d =>
      rw [held, ← hd]
      rfl

end MacData

namespace MacTask
open Runs DeviceQueue
variable {τ : Type}

abbrev Past (τ : Type) := History (MacTask τ) MacEvent Unit

def completed (t : Step τ) : Option (CommandKind × UniqueKey) :=
  match t.before, t.event with
  | .processing _ (.arrival (.radio response)), .process _ =>
    response.completion.map fun c => (c.1, c.2.1)
  | _, _ => none

/- The command that the step issues: those of the two services are issued as a poll returns them,
   the transmission of a beacon as it is processed. -/
def issued (t : Step τ) : Option (CommandKind × UniqueKey) :=
  match t.before, t.event, t.after with
  | .polling _, .poll _, .processing _ input => input.command
  | .processing _ (.management (.sendFrame _)), .process draws, _ => some (.sendPacket, draws.key)
  | _, _, _ => none

def submitted (t : Step τ) : Option DataRequest :=
  match t.before, t.event with
  | .processing mac input, .process draws => input.submitted mac.pib draws
  | _, _ => none

def drawn (t : Step τ) : Option UniqueKey :=
  ((issued t).map Prod.snd).or ((submitted t).map (·.key))

def Resets (t : Step τ) : Prop :=
  match t.before, t.event with
  | .processing _ (.arrival (.mlmeRequest (.reset _))), .process _ => True
  | _, _ => False

def purged (t : Step τ) : Option UniqueKey :=
  match t.before, t.event with
  | .processing mac (.arrival (.mcpsRequest (.purge request))), .process _ =>
    (TwoWayMap.removeByLeft mac.data.msduHandles request.msduHandle).1.map Prod.snd
  | _, _ => none

def mac : MacTask τ → Option (MacData τ)
  | .polling mac => some mac
  | .processing mac _ => some mac
  | .panicked _ => none

def Waits (task : MacTask τ) (key : UniqueKey) : Prop :=
  ∃ mac ∈ task.mac, ∃ d, ∃ r ∈ mac.data.requestsAt d, r.key = key

def Transmits (key : UniqueKey) (r : DataRequest) (t : Step τ) : Prop :=
  issued t = some (.sendPacket, key) ∧ ∃ mac ∈ t.after.mac, ∃ d,
    (mac.data.queueAt d).held = some key ∧ (mac.data.requestsAt d).head? = some r

def NewKey (h : Past τ) (key : UniqueKey) : Prop :=
  ∀ t ∈ h, drawn t ≠ some key ∧ (completed t).map Prod.snd ≠ some key

instance (h : Past τ) (key : UniqueKey) : Decidable (NewKey h key) :=
  inferInstanceAs (Decidable (∀ t ∈ h, drawn t ≠ some key ∧ (completed t).map Prod.snd ≠ some key))

def FreshKeys (h : Past τ) (task : MacTask τ) : MacEvent → Prop
  | .poll visit => NewKey h visit.key
  | .process draws => NewKey h draws.key ∧
    ∀ mac ∈ task.mac, HashMap.Enumerates draws.queues mac.data.queues
  | _ => True

instance (h : Past τ) (task : MacTask τ) : (e : MacEvent) → Decidable (FreshKeys h task e)
  | .poll visit => inferInstanceAs (Decidable (NewKey h visit.key))
  | .process draws => inferInstanceAs (Decidable (NewKey h draws.key ∧
    ∀ mac ∈ task.mac, HashMap.Enumerates draws.queues mac.data.queues))
  | .dropRadioRequests => .isTrue trivial
  | .dropMlmeOutput => .isTrue trivial
  | .dropMcpsOutput => .isTrue trivial

/-- The completion of this command comes too late: it came before, or the MAC was reset since the
command, or the request that was transmitted was purged or has left its queue since, as it does
when it expires. -/
inductive Stale (h : Past τ) : CommandKind → UniqueKey → Prop where
  | completed {kind key t} : t ∈ h → completed t = some (kind, key) → Stale h kind key
  | reset {kind key later t past} : h = later ++ t :: past → issued t = some (kind, key) →
      (∃ u ∈ later, Resets u) → Stale h kind key
  | withdrawn {key r later t past} : h = later ++ t :: past → Transmits key r t →
      (∃ u ∈ later, purged u = some r.key ∨ (Waits u.before r.key ∧ ¬ Waits u.after r.key)) →
      Stale h .sendPacket key

theorem drawn_of_issued {t : Step τ} {kind : CommandKind} {key : UniqueKey}
    (h : issued t = some (kind, key)) : drawn t = some key := by
  simp [drawn, h]

structure Inv (h : Past τ) (mac : MacData τ) : Prop where
  held : ∀ slot k, mac.held slot = some k →
    Since (fun t => completed t ≠ some (slot.kind, k) ∧ ¬ Resets t)
      (fun t => issued t = some (slot.kind, k)) h
  alone : ∀ d d' k, (mac.data.queueAt d).held = some k → (mac.data.queueAt d').held = some k →
    d = d'
  front : ∀ d k, (mac.data.queueAt d).held = some k →
    ∃ r, (mac.data.requestsAt d).head? = some r ∧ ∃ t ∈ h, Transmits k r t
  known : ∀ d, ∀ r ∈ mac.data.requestsAt d, ∃ t ∈ h, drawn t = some r.key
  apart : ∀ d d' r r', r ∈ mac.data.requestsAt d → r' ∈ mac.data.requestsAt d' →
    r.key = r'.key → d = d'

theorem Inv.known_key {h : Past τ} {mac : MacData τ} (hi : Inv h mac) {d : Option FullAddress}
    {k : UniqueKey} (hk : (mac.data.queueAt d).held = some k) : ∃ t ∈ h, drawn t = some k := by
  obtain ⟨t, ht, hissued⟩ := (hi.held (.queue d) k hk).exists
  exact ⟨t, ht, drawn_of_issued hissued⟩

theorem NewKey.not_drawn {h : Past τ} {k : UniqueKey} (hnew : NewKey h k) :
    ¬ ∃ t ∈ h, drawn t = some k :=
  fun ⟨t, ht, hd⟩ => (hnew t ht).1 hd

/-- The step lemma: what moves keeps the invariant, if the keys that come in are new and none is
held that has just been completed. -/
theorem Inv.moved {h : Past τ} {mac mac' : MacData τ} {command : Option (CommandKind × UniqueKey)}
    {request : Option DataRequest} (hi : Inv h mac) (hm : MacData.Moved mac mac' command request)
    {t : Step τ} (hcommand : ∀ c, command = some c → issued t = some c)
    (hrequest : ∀ r, request = some r → drawn t = some r.key)
    (hnew : ∀ k, drawn t = some k → NewKey h k) (hafter : mac' ∈ t.after.mac)
    (hclean : ∀ slot k, mac'.held slot = some k →
      completed t ≠ some (slot.kind, k) ∧ ¬ Resets t) : Inv (t :: h) mac' := by
  have holder : ∀ {d k}, (mac.data.queueAt d).held = some k → drawn t ≠ some k :=
    fun hk hd => (hnew _ hd).not_drawn (hi.known_key hk)
  refine ⟨fun slot k hk => ?_, fun d d' k hk hk' => ?_, fun d k hk => ?_, fun d r hr => ?_,
    fun d d' r r' hr hr' hkey => ?_⟩
  · rcases hm.held slot k hk with hold | hissue
    · exact .inr ⟨hclean slot k hk, hi.held slot k hold⟩
    · exact .inl (hcommand _ hissue)
  · rcases hm.queues with hcarry | ⟨d₀, k₀, r, hissue, hheld, hfront, hothers⟩
    · exact hi.alone d d' k (hcarry d k hk).1 (hcarry d' k hk').1
    · have hdrawn := drawn_of_issued (hcommand _ hissue)
      by_cases hd : d = d₀
      · by_cases hd' : d' = d₀
        · rw [hd, hd']
        · -- a key that is new cannot be in another queue already
          rw [hd, hheld] at hk
          obtain rfl := Option.some.inj hk
          exact absurd hdrawn (holder (hothers d' hd' k₀ hk').1)
      · have hold := (hothers d hd k hk).1
        by_cases hd' : d' = d₀
        · rw [hd', hheld] at hk'
          obtain rfl := Option.some.inj hk'
          exact absurd hdrawn (holder hold)
        · exact hi.alone d d' k hold (hothers d' hd' k hk').1
  · have hcarried : MacData.held mac (.queue d) = some k ∧
        (∀ r, (mac.data.requestsAt d).head? = some r → (mac'.data.requestsAt d).head? = some r) →
        ∃ r, (mac'.data.requestsAt d).head? = some r ∧ ∃ u ∈ t :: h, Transmits k r u := by
      rintro ⟨hold, hfronts⟩
      obtain ⟨r, hr, u, hu, htransmits⟩ := hi.front d k hold
      exact ⟨r, hfronts r hr, u, List.mem_cons_of_mem _ hu, htransmits⟩
    rcases hm.queues with hcarry | ⟨d₀, k₀, r, hissue, hheld, hfront, hothers⟩
    · exact hcarried (hcarry d k hk)
    · by_cases hd : d = d₀
      · subst hd
        obtain rfl := Option.some.inj (hheld.symm.trans hk)
        exact ⟨r, hfront, t, List.mem_cons_self, hcommand _ hissue, mac', hafter, d, hk, hfront⟩
      · exact hcarried (hothers d hd k hk)
  · rcases hm.requests d r hr with hold | ⟨hsub, -⟩
    · obtain ⟨u, hu, hdrawn⟩ := hi.known d r hold
      exact ⟨u, List.mem_cons_of_mem _ hu, hdrawn⟩
    · exact ⟨t, List.mem_cons_self, hrequest r hsub⟩
  · rcases hm.requests d r hr with hold | ⟨hsub, hdest⟩
    · rcases hm.requests d' r' hr' with hold' | ⟨hsub', -⟩
      · exact hi.apart d d' r r' hold hold' hkey
      · exact absurd (hkey ▸ hi.known d r hold) (hnew _ (hrequest r' hsub')).not_drawn
    · rcases hm.requests d' r' hr' with hold' | ⟨hsub', hdest'⟩
      · exact absurd (hkey ▸ hi.known d' r' hold') (hnew _ (hrequest r hsub)).not_drawn
      · obtain rfl := Option.some.inj (hsub.symm.trans hsub')
        exact hdest.symm.trans hdest'

/-! One step of the loop. -/

variable [Sleep τ]

structure Leads (t : Step τ) (mac mac' : MacData τ) : Prop where
  moved : ∃ command request, MacData.Moved mac mac' command request ∧
    (∀ c, command = some c → issued t = some c) ∧ ∀ r, request = some r → drawn t = some r.key
  clean : ∀ slot k, mac'.held slot = some k →
    completed t ≠ some (slot.kind, k) ∧ ¬ Resets t

theorem submitted_key {pib : PIB} {draws : Draws} {input : MacInput} {r : DataRequest}
    (h : input.submitted pib draws = some r) : r.key = draws.key := by
  unfold MacInput.submitted at h
  split at h
  · rename_i response
    cases response
    cases h
    rfl
  · rename_i request
    cases request with
    | data r' => cases h; rfl
    | purge r' => cases h
  · cases h

theorem leads_of_polled {mac mac' : MacData τ} {visit : Visit} {result : Poll MacInput}
    (hp : MacData.Polled mac visit result mac') {after : MacTask τ} {o : Unit}
    (hafter : issued ⟨.polling mac, .poll visit, o, after⟩ = MacData.commandOf result) :
    Leads ⟨.polling mac, .poll visit, o, after⟩ mac mac' := by
  exact ⟨⟨_, none, hp.moved, fun c hc => hafter.trans hc, by simp⟩,
    fun _ _ _ => ⟨by simp [completed], by simp [Resets]⟩⟩

omit [Sleep τ] in
theorem issued_of_processed (mac : MacData τ) (input : MacInput) (draws : Draws) (o : Unit)
    (after : MacTask τ) : issued ⟨.processing mac input, .process draws, o, after⟩ =
      match input with
      | .management (.sendFrame _) => some (.sendPacket, draws.key)
      | _ => none := by
  cases input with
  | management action => cases action <;> rfl
  | _ => rfl

theorem clean_of_processed {mac mac' : MacData τ} {draws : Draws} {input : MacInput}
    (hp : MacData.Processed mac draws input mac') {after : MacTask τ} {o : Unit} {slot : KeySlot}
    {k : UniqueKey} (hk : mac'.held slot = some k) :
    completed ⟨.processing mac input, .process draws, o, after⟩ ≠ some (slot.kind, k) ∧
      ¬ Resets ⟨.processing mac input, .process draws, o, after⟩ := by
  match input, hp with
  | .management _, _ => exact ⟨by simp [completed], by simp [Resets]⟩
  | .data _, _ => exact ⟨by simp [completed], by simp [Resets]⟩
  | .arrival (.mlmeResponse _), _ => exact ⟨by simp [completed], by simp [Resets]⟩
  | .arrival (.mcpsRequest _), _ => exact ⟨by simp [completed], by simp [Resets]⟩
  | .arrival (.mlmeRequest request), hp =>
    refine ⟨by simp [completed], fun hreset => ?_⟩
    cases request with
    | reset request =>
      rw [hp.reset slot] at hk
      cases hk
    | _ => exact hreset
  | .arrival (.radio response), hp =>
    refine ⟨fun hc => ?_, by simp [Resets]⟩
    obtain ⟨⟨kind, key, success⟩, hcompletion, heq⟩ := Option.map_eq_some_iff.mp hc
    cases hp with
    | sends hno _ _ _ => exact hno _ rfl
    | completes h =>
      cases h.symm.trans hcompletion
      exact (MacData.complete_held hk).2 heq.symm
    | packet _ _ => cases hcompletion
    | ignores h => cases h.symm.trans hcompletion

theorem leads_of_processed {mac mac' : MacData τ} {draws : Draws} {input : MacInput}
    (hp : MacData.Processed mac draws input mac') {after : MacTask τ} {o : Unit} :
    Leads ⟨.processing mac input, .process draws, o, after⟩ mac mac' := by
  refine ⟨⟨none, _, hp.moved, by simp, fun r hr => ?_⟩, fun slot k hk => clean_of_processed hp hk⟩
  have hno : issued ⟨.processing mac input, .process draws, o, after⟩ = none := by
    rw [issued_of_processed]
    split
    · cases hr
    · rfl
  have hsub : submitted ⟨.processing mac input, .process draws, o, after⟩ = some r := hr
  simp [drawn, hno, hsub]

omit [Sleep τ] in
theorem leads_of_closed {mac mac' : MacData τ} {t : Step τ}
    (hprocess : ∀ draws, t.event ≠ .process draws) (hm : mac'.management = mac.management)
    (hd : mac'.data = mac.data) : Leads t mac mac' := by
  have hmoved : MacData.Moved mac mac' none none :=
    .of_holds (by simp [hm]) (by rw [hd]; exact .refl _)
  refine ⟨⟨none, none, hmoved, by simp, by simp⟩, fun slot k _ => ⟨fun hc => ?_, fun hreset => ?_⟩⟩
  · unfold completed at hc
    split at hc
    · exact absurd ‹_› (hprocess _)
    · cases hc
  · unfold Resets at hreset
    split at hreset
    · exact absurd ‹_› (hprocess _)
    · exact hreset

/-- Every step that ends in a state of the MAC leads there from one. -/
theorem leads_of_step {t : Step τ} (hs : step t.before t.event = some (t.after, t.output))
    {mac' : MacData τ} (hafter : mac' ∈ t.after.mac) : ∃ mac ∈ t.before.mac, Leads t mac mac' := by
  obtain ⟨before, event, output, after⟩ := t
  have hmoves : Moves before event after := moves hs
  cases hmoves with
  | waits hp =>
    cases hafter
    exact ⟨_, rfl, leads_of_polled hp rfl⟩
  | takes hp =>
    cases hafter
    exact ⟨_, rfl, leads_of_polled hp rfl⟩
  | processes hp =>
    cases hafter
    exact ⟨_, rfl, leads_of_processed hp⟩
  | @closes _ _ f _ hprocess hrest =>
    cases before with
    | polling mac =>
      cases hafter
      exact ⟨mac, rfl, leads_of_closed hprocess (hrest mac).1 (hrest mac).2.1⟩
    | processing mac input =>
      cases hafter
      exact ⟨mac, rfl, leads_of_closed hprocess (hrest mac).1 (hrest mac).2.1⟩
    | panicked panic => cases hafter
  | panics => cases hafter

/-- The key that a step draws is the one that its event offers. -/
theorem drawn_key {t : Step τ} (hs : step t.before t.event = some (t.after, t.output))
    {k : UniqueKey} (hk : drawn t = some k) : t.event.key = some k := by
  obtain ⟨before, event, output, after⟩ := t
  cases event with
  | poll visit =>
    have hmoves : Moves before (.poll visit) after := moves hs
    cases hmoves with
    | waits _ => cases hk
    | takes hp =>
      simp only [drawn, issued, submitted, Option.map_none, Option.or_none] at hk
      obtain ⟨⟨kind, k'⟩, hcommand, rfl⟩ := Option.map_eq_some_iff.mp hk
      rw [hp.command_key hcommand]
      rfl
    | closes hno _ _ => exact absurd rfl (hno _)
    | panics => cases before <;> simp [drawn, issued, submitted] at hk
  | process draws =>
    cases before with
    | polling _ => cases hk
    | panicked _ => cases hk
    | processing mac input =>
      rcases Option.or_eq_some_iff.mp hk with hk | ⟨-, hk⟩
      · rw [issued_of_processed] at hk
        split at hk
        · exact hk
        · cases hk
      · obtain ⟨r, hr, rfl⟩ := Option.map_eq_some_iff.mp hk
        rw [submitted_key hr]
        rfl
  | _ => cases before <;> simp [drawn, issued, submitted] at hk

omit [Sleep τ] in
theorem FreshKeys.new {h : Past τ} {task : MacTask τ} {e : MacEvent} (hrely : FreshKeys h task e)
    {k : UniqueKey} (hk : e.key = some k) : NewKey h k := by
  cases e with
  | poll visit =>
    cases hk
    exact hrely
  | process draws =>
    cases hk
    exact hrely.1
  | _ => cases hk

omit [Sleep τ] in
theorem inv_new (pib : PIB) : Inv [] (MacData.new pib : MacData τ) where
  held slot k hk := by
    cases slot with
    | param param =>
      rw [MacData.held, MacData.new, ManagementService.new_held] at hk
      cases hk
    | table slot => cases slot <;> cases hk
    | queue d => cases hk
  alone d d' k hk := by cases hk
  front d k hk := by cases hk
  known d r hr := absurd hr List.not_mem_nil
  apart d d' r r' hr := absurd hr List.not_mem_nil

/-- The run lemma. -/
theorem inv_of_run {pib : PIB} {h : Past τ} {task : MacTask τ}
    (hr : Run step FreshKeys (.polling (.new pib)) h task) : ∀ mac ∈ task.mac, Inv h mac := by
  refine Run.invariant (P := fun h task => ∀ mac ∈ task.mac, Inv h mac) ?_ ?_ hr
  · intro mac hmac
    cases hmac
    exact inv_new pib
  · intro h task e task' o _ hi hrely hs mac' hafter
    obtain ⟨mac, hbefore, ⟨command, request, hmoved, hcommand, hrequest⟩, hclean⟩ :=
      leads_of_step (t := ⟨task, e, o, task'⟩) hs hafter
    exact (hi mac hbefore).moved hmoved hcommand hrequest
      (fun k hk => hrely.new (drawn_key (t := ⟨task, e, o, task'⟩) hs hk)) hafter hclean

/-! A request that has left its queue never comes back. -/

theorem waits_of_step {t : Step τ} (hs : step t.before t.event = some (t.after, t.output))
    {key : UniqueKey} (hw : Waits t.after key) : Waits t.before key ∨ drawn t = some key := by
  obtain ⟨mac', hafter, d, r, hr, rfl⟩ := hw
  obtain ⟨mac, hbefore, ⟨command, request, hmoved, -, hrequest⟩, -⟩ := leads_of_step hs hafter
  rcases hmoved.requests d r hr with hold | ⟨hsub, -⟩
  · exact .inl ⟨mac, hbefore, d, r, hold, rfl⟩
  · exact .inr (hrequest r hsub)

/-- What a later step draws is new beside all that came before it. -/
theorem newKey_of_later {pib : PIB} {later past : Past τ} {task : MacTask τ}
    (hr : Run step FreshKeys (.polling (.new pib)) (later ++ past) task) {u : Step τ}
    (hu : u ∈ later) {k : UniqueKey} (hk : drawn u = some k) : NewKey past k := by
  obtain ⟨later₁, later₂, rfl⟩ := List.append_of_mem hu
  rw [List.append_assoc, List.cons_append] at hr
  obtain ⟨-, hrely, hs⟩ := hr.cut
  exact fun t ht => hrely.new (drawn_key hs hk) t (List.mem_append_right _ ht)

theorem not_waits_later {pib : PIB} {later past : Past τ} {t : Step τ} {task : MacTask τ}
    (hr : Run step FreshKeys (.polling (.new pib)) (later ++ t :: past) task) {key : UniqueKey}
    (hknown : ∃ u ∈ t :: past, drawn u = some key) (hgone : ¬ Waits t.after key) :
    ¬ Waits task key := by
  induction later generalizing task with
  | nil =>
    cases hr with
    | next _ _ _ => exact hgone
  | cons v later ih =>
    have hnew : drawn v ≠ some key := fun hk =>
      (newKey_of_later (u := v) hr List.mem_cons_self hk).not_drawn hknown
    cases hr with
    | @next _ before _ e o hrun hrely hs =>
      intro hw
      rcases waits_of_step (t := ⟨before, e, o, task⟩) hs hw with hold | hdrawn
      · exact ih hrun hold
      · exact hnew hdrawn

omit [Sleep τ] in
/-- A purge takes the request out of its queue, wherever that comes in the order of the visits. -/
theorem Inv.purge {h : Past τ} {mac : MacData τ} (hi : Inv h mac)
    {order : List (Option FullAddress)} (horder : HashMap.Enumerates order mac.data.queues)
    {request : Mcps.PurgeRequest} {key : UniqueKey}
    (hp : (TwoWayMap.removeByLeft mac.data.msduHandles request.msduHandle).1.map Prod.snd =
      some key)
    {d : Option FullAddress} {r : DataRequest}
    (hr : r ∈ (mac.data.processMcpsPurgeRequest order request).2.requestsAt d) : r.key ≠ key := by
  obtain ⟨⟨handle, k⟩, hremoved, rfl⟩ := Option.map_eq_some_iff.mp hp
  cases hmap : TwoWayMap.removeByLeft mac.data.msduHandles request.msduHandle with
  | mk removed msduHandles =>
    rw [hmap] at hremoved
    obtain rfl : removed = some (handle, k) := hremoved
    have hone : ∀ d d', (mac.data.queueAt d).contains k = true →
        (mac.data.queueAt d').contains k = true → d = d' := by
      intro d d' hd hd'
      obtain ⟨r, hr, hk⟩ := List.mem_map.mp ((contains_iff _ _).mp hd)
      obtain ⟨r', hr', hk'⟩ := List.mem_map.mp ((contains_iff _ _).mp hd')
      exact hi.apart d d' r r' hr hr' (hk.trans hk'.symm)
    have horder' : HashMap.Enumerates order
        { mac.data with msduHandles := msduHandles }.queues := horder
    have hqueue := DataService.remove_queueAt horder' hone d
    simp only [DataService.processMcpsPurgeRequest, hmap, DataService.requestsAt] at hr
    rw [hqueue, remove_requests, List.mem_filter, decide_eq_true_eq] at hr
    exact hr.2

theorem not_waits_of_purged {h : Past τ} {t : Step τ} (hrely : FreshKeys h t.before t.event)
    (hs : step t.before t.event = some (t.after, t.output))
    (hi : ∀ mac ∈ t.before.mac, Inv h mac) {key : UniqueKey} (hp : purged t = some key) :
    ¬ Waits t.after key := by
  obtain ⟨before, event, output, after⟩ := t
  unfold purged at hp
  split at hp
  · rename_i mac request draws hbefore hevent
    dsimp only at hbefore hevent hrely hs hi
    subst hbefore hevent
    rintro ⟨mac', hafter, d, r, hr, hkey⟩
    have hmoves : Moves (.processing mac (.arrival (.mcpsRequest (.purge request))))
      (.process draws) after := moves hs
    cases hmoves with
    | processes hprocessed =>
      cases hafter
      cases hprocessed with
      | sends hno _ _ _ => exact hno _ rfl
      | mcps _ _ hd =>
        rw [hd] at hr
        exact (hi mac rfl).purge (hrely.2 mac rfl) hp hr hkey
    | closes _ hno _ => exact hno _ rfl
    | panics => cases hafter
  · cases hp

omit [Sleep τ] in
theorem not_issued_of_completed {t : Step τ} {c : CommandKind × UniqueKey}
    (h : completed t = some c) : issued t = none := by
  obtain ⟨before, event, output, after⟩ := t
  unfold completed at h
  split at h
  · rename_i mac response draws hbefore hevent
    dsimp only at hbefore hevent
    subst hbefore hevent
    exact issued_of_processed mac (.arrival (.radio response)) draws output after
  · cases h

/-- A key stands for one transmission, and that for one request. -/
theorem transmits_unique {pib : PIB} {later past : Past τ} {t u : Step τ} {task : MacTask τ}
    (hr : Run step FreshKeys (.polling (.new pib)) (later ++ t :: past) task) {key : UniqueKey}
    {r r' : DataRequest} (ht : Transmits key r t) (hu : u ∈ later ++ t :: past)
    (htu : Transmits key r' u) : r' = r := by
  obtain ⟨hpast, hrely, hs⟩ := hr.cut
  obtain ⟨hissued, mac, hmac, d, hheld, hfront⟩ := ht
  obtain ⟨hissued', mac', hmac', d', hheld', hfront'⟩ := htu
  rcases List.mem_append.mp hu with hu | hu
  · exact absurd (drawn_of_issued hissued)
      (newKey_of_later hr hu (drawn_of_issued hissued') t List.mem_cons_self).1
  · rcases List.mem_cons.mp hu with rfl | hu
    · obtain rfl := Option.some.inj (hmac.symm.trans hmac')
      have hi := inv_of_run (.next hpast hrely hs) mac hmac
      obtain rfl := hi.alone d d' key hheld hheld'
      exact Option.some.inj (hfront'.symm.trans hfront)
    · exact absurd (drawn_of_issued hissued')
        (hrely.new (drawn_key hs (drawn_of_issued hissued)) u hu).1

/-- A request that was transmitted, and was purged or has left since, is in no queue. -/
theorem not_waits_of_withdrawn {pib : PIB} {later past : Past τ} {t : Step τ} {task : MacTask τ}
    (hr : Run step FreshKeys (.polling (.new pib)) (later ++ t :: past) task) {key : UniqueKey}
    {r : DataRequest} (ht : Transmits key r t)
    (hgone : ∃ u ∈ later, purged u = some r.key ∨
      (Waits u.before r.key ∧ ¬ Waits u.after r.key)) : ¬ Waits task r.key := by
  obtain ⟨hpast, hrely, hs⟩ := hr.cut
  obtain ⟨-, mac, hmac, d, -, hfront⟩ := ht
  obtain ⟨v, hv, hknown⟩ := (inv_of_run (.next hpast hrely hs) mac hmac).known d r
    (List.mem_of_mem_head? hfront)
  obtain ⟨u, hu, hgone⟩ := hgone
  obtain ⟨later₁, later₂, rfl⟩ := List.append_of_mem hu
  rw [List.append_assoc, List.cons_append] at hr
  refine not_waits_later hr ⟨v, List.mem_cons_of_mem _ (List.mem_append_right _ hv), hknown⟩ ?_
  rcases hgone with hpurged | ⟨-, hleft⟩
  · obtain ⟨hrun, hrely, hs⟩ := hr.cut
    exact not_waits_of_purged hrely hs (inv_of_run hrun) hpurged
  · exact hleft

/-- No key is held whose completion would be stale. -/
theorem not_held_of_stale {pib : PIB} {h : Past τ} {task : MacTask τ}
    (hr : Run step FreshKeys (.polling (.new pib)) h task) {mac : MacData τ} (hmac : mac ∈ task.mac)
    {slot : KeySlot} {key : UniqueKey} (hstale : Stale h slot.kind key) :
    mac.held slot ≠ some key := by
  intro hk
  have hi := inv_of_run hr mac hmac
  have hsince := hi.held slot key hk
  generalize hkind : slot.kind = kind at hstale hsince
  cases hstale with
  | @completed _ _ t ht hcompleted =>
    obtain ⟨later, past, rfl⟩ := List.append_of_mem ht
    rcases since_append.mp hsince with hlater | ⟨-, hissued | ⟨hclean, -⟩⟩
    · obtain ⟨u, hu, hissued⟩ := hlater.exists
      have hnew := newKey_of_later hr hu (drawn_of_issued hissued) t List.mem_cons_self
      exact hnew.2 (by rw [hcompleted]; rfl)
    · cases hissued.symm.trans (not_issued_of_completed hcompleted)
    · exact hclean.1 hcompleted
  | @reset _ _ later t past heq hissued hresets =>
    subst heq
    rcases since_append.mp hsince with hlater | ⟨hclean, -⟩
    · obtain ⟨u, hu, hissued'⟩ := hlater.exists
      exact (newKey_of_later hr hu (drawn_of_issued hissued') t List.mem_cons_self).1
        (drawn_of_issued hissued)
    · obtain ⟨u, hu, hreset⟩ := hresets
      exact (hclean u hu).2 hreset
  | @withdrawn _ r later t past heq htransmits hgone =>
    subst heq
    cases slot with
    | param param => cases hkind
    | table slot => cases slot <;> cases hkind
    | queue d =>
      obtain ⟨r', hfront, u, hu, htransmits'⟩ := hi.front d key hk
      obtain rfl := transmits_unique hr htransmits hu htransmits'
      exact not_waits_of_withdrawn hr htransmits hgone
        ⟨mac, hmac, d, r', List.mem_of_mem_head? hfront, rfl⟩

/-- A stale completion leaves the whole state of the MAC as it was. -/
theorem stale_completions_ignored {pib : PIB} {h : Past τ} {mac : MacData τ}
    {response : RadioResponse}
    (hr : Run step FreshKeys (.polling (.new pib)) h (.processing mac (.arrival (.radio response))))
    {kind : CommandKind} {key : UniqueKey} {success : Bool}
    (hc : response.completion = some (kind, key, success)) (hstale : Stale h kind key)
    (draws : Draws) :
    step (.processing mac (.arrival (.radio response))) (.process draws) =
      some (.polling mac, ()) := by
  have hsame : mac.complete kind key success = mac := by
    refine MacData.complete_of_not_held success fun slot hkind => ?_
    exact not_held_of_stale hr rfl (hkind ▸ hstale)
  have hok : mac.processRadioResponse response = .ok mac := by
    rw [mac.processRadioResponse_completion hc, hsame]
  simp only [step, MacData.processInput, hok]

/- The radio sets the channel and says so twice. -/
def answeredTwice : List MacEvent :=
  [.poll ⟨0, ⟨0⟩, [.channel], [], .pending⟩, .process ⟨⟨1⟩, [], 0, 0⟩,
    .poll ⟨0, ⟨1⟩, [], [[]], .pending⟩, .process ⟨⟨2⟩, [], 0, 0⟩,
    .poll ⟨0, ⟨2⟩, [], [[]], .ready (some (.radio (.setParam ⟨0⟩ .channel true)))⟩,
    .process ⟨⟨2⟩, [], 0, 0⟩,
    .poll ⟨0, ⟨2⟩, [], [[]], .ready (some (.radio (.setParam ⟨0⟩ .channel true)))⟩]

def playedTwice : Past SleepTimer × MacTask SleepTimer :=
  replay step FreshKeys (.polling (.new (PIB.new ⟨1⟩ 11 0 0 0))) answeredTwice

theorem playedTwice_run : Run step FreshKeys (.polling (.new (PIB.new ⟨1⟩ 11 0 0 0)))
    playedTwice.1 playedTwice.2 :=
  run_replay answeredTwice

theorem stale_completions_ignored_answeredTwice : ∃ mac,
    playedTwice.2 = .processing mac (.arrival (.radio (.setParam ⟨0⟩ .channel true))) ∧
      step (.processing mac (.arrival (.radio (.setParam ⟨0⟩ .channel true))))
        (.process ⟨⟨2⟩, [], 0, 0⟩) = some (.polling mac, ()) := by
  have htask : ∃ mac,
      playedTwice.2 = .processing mac (.arrival (.radio (.setParam ⟨0⟩ .channel true))) := ⟨_, rfl⟩
  have hcompleted : ∃ t ∈ playedTwice.1, completed t = some (.setParam, ⟨0⟩) := by decide
  obtain ⟨mac, hmac⟩ := htask
  obtain ⟨t, ht, hc⟩ := hcompleted
  exact ⟨mac, hmac,
    stale_completions_ignored (hmac ▸ playedTwice_run) rfl (.completed ht hc) ⟨⟨2⟩, [], 0, 0⟩⟩

end MacTask
end ZigbeeStack
