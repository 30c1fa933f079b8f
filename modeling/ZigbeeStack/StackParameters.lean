import ZigbeeStack.CoordinatorSettings
import ZigbeeStack.StackRuns

/-! The parameters of the radio follow the PIB through the driver and over the line, on which
messages get lost. -/
namespace ZigbeeStack
open Runs

namespace RadioParameters
variable {τ : Type} {w : World τ}

/-- The radio gets a command, and none of those that were sent before it any more. These are as
good as failed, and left everything as it was. -/
theorem Inv.execute_after (hi : Inv w) (before : List Command) {c : Command} {rest : List Command}
    (hw : w.inFlight = before ++ c :: rest) (success : Bool) (garbage : RadioParamValue) :
    ∃ answers, Inv { w with
        radio := Function.update w.radio c.param (if success then c.value else garbage)
        inFlight := rest
        answers := answers } ∧
      (c.key, success) ∈ answers ∧ w.answers ⊆ answers ∧
      ∀ answer ∈ answers, answer.1 ∈ w.keys := by
  induction before generalizing w with
  | nil =>
    refine ⟨_, hi.execute hw success garbage, List.mem_cons_self, List.subset_cons_self _ _, ?_⟩
    simp only [World.keys, hw, List.nil_append, List.map_cons, List.forall_mem_cons]
    exact ⟨List.mem_cons_self, fun answer ha =>
      List.mem_append_right _ (List.mem_map_of_mem ha)⟩
  | cons d before ih =>
    have hlost : Inv { w with
        inFlight := before ++ c :: rest
        answers := (d.key, false) :: w.answers } := by
      have hfailed := hi.execute hw false (w.radio d.param)
      simp only [Bool.false_eq_true, if_false, Function.update_eq_self] at hfailed
      exact hfailed
    obtain ⟨answers, hinv, hmem, hsub, hkeys⟩ := ih hlost rfl
    refine ⟨answers, hinv, hmem, fun answer ha => hsub (List.mem_cons_of_mem _ ha),
      fun answer ha => ?_⟩
    have hkey := hkeys answer ha
    simp only [World.keys, hw, List.map_append, List.map_cons, List.mem_append, List.mem_cons,
      List.cons_append] at hkey ⊢
    tauto

end RadioParameters

def RadioOrder.parameter (order : RadioOrder) : Option RadioParameters.Command :=
  match order.command with
  | .setParam param value => some ⟨order.key, param, value⟩
  | _ => none

theorem ManagementService.processFrame_radioParams (self : ManagementService) (pib : PIB)
    (frame : Frame) : (self.processFrame pib frame).2.1.radioParams = self.radioParams := by
  unfold processFrame
  split
  · unfold processFrameBeaconRequest
    split
    · exact self.processMlmeBeaconRequest_radioParams pib _
    · rfl
  · rfl
  · rfl

namespace MacData
variable {τ : Type} [Sleep τ] {mac mac' : MacData τ}

inductive ParametersPolled (mac mac' : MacData τ) (visit : Visit) : Option RadioOrder → Prop
  | sends {param : RadioParam} {info : RadioParamInfo} :
      HashMap.get mac.management.radioParams param = some info →
      mac'.management.radioParams = HashMap.set mac.management.radioParams param
        { info with dirty := false, updating := some visit.key } →
      mac'.pib = mac.pib → mac'.data = mac.data →
      ParametersPolled mac mac' visit (some ⟨visit.key, .setParam param info.requestedValue⟩)
  | keeps {order : Option RadioOrder} :
      mac'.management.radioParams = mac.management.radioParams →
      mac'.pib.wanted = mac.pib.wanted → order.bind (·.parameter) = none →
      ParametersPolled mac mac' visit order

theorem Polled.parameters {visit : Visit} {result : Poll MacInput}
    (h : Polled mac visit result mac') :
    ParametersPolled mac mac' visit (Stack.ordered result) := by
  have hwanted : mac'.pib.wanted = mac.pib.wanted := by
    obtain ⟨dsn, hpib⟩ := h.pib
    rw [hpib]
    exact PIB.wanted_draw mac.pib.macBsn dsn
  have hp := mac.management.paramsPolled visit.cx visit.key visit.params
  cases h with
  | @management action management hm =>
    rw [hm] at hp
    cases hp with
    | sends hget _ _ hset => exact .sends hget hset rfl rfl
    | keeps hno hsame =>
      refine .keeps hsame hwanted ?_
      match action, hno with
      | .setParam k param value, hno => exact absurd rfl (hno k param value)
      | .sendFrame _, _ => rfl
  | @data management action data pib hm hd =>
    rw [hm] at hp
    cases hp with
    | keeps _ hsame => exact .keeps hsame hwanted (by cases action <;> rfl)
  | @passes management data pib result hm hd harrival =>
    rw [hm] at hp
    cases hp with
    | keeps _ hsame =>
      refine .keeps hsame hwanted ?_
      cases result with
      | pending => rfl
      | ready input =>
        obtain ⟨a, rfl⟩ := harrival input rfl
        rfl

inductive ParametersProcessed (mac mac' : MacData τ) : MacInput → Prop
  | request {input : MacInput} :
      ManagementService.ParamsRequested mac.management mac.pib mac'.management mac'.pib →
      ParametersProcessed mac mac' input
  | result {response : RadioResponse} {key : UniqueKey} {success : Bool} :
      response.completion = some (.setParam, key, success) →
      mac' = { mac with management := mac.management.processSetParamResult key success } →
      ParametersProcessed mac mac' (.arrival (.radio response))

theorem Processed.parameters {draws : Draws} {input : MacInput}
    (h : Processed mac draws input mac') : ParametersProcessed mac mac' input := by
  cases h with
  | sends _ hm _ hpib => exact .request (.keeps (by rw [hm]) (by rw [hpib]))
  | request hrequest => exact .request (ManagementService.paramsRequested hrequest)
  | response => exact .request (.keeps rfl rfl)
  | mcps hm hpib _ => exact .request (.keeps (by rw [hm]) (by rw [hpib]))
  | @completes response kind key success hc =>
    cases kind with
    | setParam => exact .result hc rfl
    | _ => exact .request (.keeps rfl rfl)
  | @packet packet frame indication self' hframe _ =>
    refine .request (.keeps ?_ ?_)
    · have hsame := mac.management.processFrame_radioParams mac.pib frame
      rwa [hframe] at hsame
    · have hsame := mac.management.processFrame_settings mac.pib frame
      rw [hframe] at hsame
      have hwanted := congrArg PIB.wanted hsame
      rwa [PIB.settings, PIB.settings, PIB.wanted_draw, PIB.wanted_draw] at hwanted
  | ignores _ => exact .request (.keeps rfl rfl)

end MacData

namespace Stack
open RadioParameters
variable {τ : Type}

structure Follows (h : Past τ) (w : Stack τ) (mac : MacData τ)
    (inFlight : List RadioParameters.Command) (answers : List (UniqueKey × Bool)) : Prop where
  inv : RadioParameters.Inv
    ⟨mac.management, mac.pib, mac.data, w.radio.params, inFlight, answers⟩
  orders : ((orders w).filterMap (·.parameter)).Sublist inFlight
  settled : ∀ key success, Settled w (.setParam, key, success) → (key, success) ∈ answers
  drawn : ∀ key ∈ inFlight.map (·.key) ++ answers.map (·.1), key ∈ drawn h

def Followed (h : Past τ) (w : Stack τ) : Prop :=
  ∀ mac, w.mac.mac = some mac → ∃ inFlight answers, Follows h w mac inFlight answers

theorem followed_start (pib : PIB) (radio : RadioState) :
    Followed [] (start pib radio : Stack τ) := by
  intro mac hmac
  cases hmac
  exact ⟨[], [], RadioParameters.Inv.start pib radio.params, List.Sublist.refl _,
    fun key success hs => absurd hs not_settled_start, fun key hkey => nomatch hkey⟩

theorem settled_of_heard {w w' : Stack τ} {key : UniqueKey} {success : Bool}
    (hheard : Heard w w' none) (hsettled : Settled w' (.setParam, key, success)) :
    Settled w (.setParam, key, success) := by
  rcases hheard _ (by simp) hsettled with hold | hnew
  · exact hold
  · cases hnew

section Steps
variable [Sleep τ] {h : Past τ} {t : Step τ} {mac mac' : MacData τ}
  {inFlight : List RadioParameters.Command} {answers : List (UniqueKey × Bool)}

/-- A poll sends one command at most, under a key that is new. -/
theorem Follows.polls (hf : Follows h t.before mac inFlight answers) {visit : Visit}
    {result : Poll MacInput} (hp : MacData.Polled mac visit result mac')
    (hnew : visit.key ∉ Stack.drawn h) (hgiven : given t = (ordered result).toList)
    (horders : Stack.orders t.after = Stack.orders t.before ++ given t)
    (hheard : Heard t.before t.after none) (hradio : t.after.radio = t.before.radio) :
    ∃ inFlight answers, Follows (t :: h) t.after mac' inFlight answers := by
  obtain ⟨hinv, hsub, hsettled, hdrawn⟩ := hf
  have hsettled' : ∀ key success, Settled t.after (.setParam, key, success) →
      (key, success) ∈ answers := fun key success hs =>
    hsettled key success (settled_of_heard hheard hs)
  have hparameters := hp.parameters
  generalize hordered : ordered result = order at hparameters hgiven
  cases hparameters with
  | @sends param info hget hset hpib hdata =>
    have hsent := hinv.send (fun hkey => hnew (hdrawn _ hkey)) hget hset
    refine ⟨inFlight ++ [⟨visit.key, param, info.requestedValue⟩], answers, ?_, ?_, hsettled', ?_⟩
    · rw [hradio, hpib, hdata]
      exact hsent
    · rw [horders, hgiven, List.filterMap_append]
      exact hsub.append (.refl _)
    · intro key hkey
      rw [drawn_cons, hgiven]
      simp only [List.map_append, List.append_assoc, List.mem_append, List.map_cons, List.map_nil,
        List.mem_singleton, Option.toList_some] at hkey ⊢
      rcases hkey with hkey | rfl | hkey
      · exact .inr (hdrawn key (List.mem_append_left _ hkey))
      · exact .inl rfl
      · exact .inr (hdrawn key (List.mem_append_right _ hkey))
  | keeps hsame hwanted hnone =>
    refine ⟨inFlight, answers, ?_, ?_, hsettled', fun key hkey => ?_⟩
    · rw [hradio]
      exact hinv.keeps hsame hwanted mac'.data
    · rw [horders, hgiven, List.filterMap_append]
      cases order with
      | none => simpa using hsub
      | some order =>
        have hnone : order.parameter = none := hnone
        simpa [hnone] using hsub
    · exact drawn_later (hdrawn key hkey)

theorem Follows.processes (hf : Follows h t.before mac inFlight answers) {draws : Draws}
    {input : MacInput} (hmac : t.before.mac = .processing mac input)
    (hp : MacData.Processed mac draws input mac')
    (hsub : (Stack.orders t.after).Sublist (Stack.orders t.before))
    (hheard : Heard t.before t.after none) (hradio : t.after.radio = t.before.radio) :
    Follows (t :: h) t.after mac' inFlight answers := by
  obtain ⟨hinv, hsub', hsettled, hdrawn⟩ := hf
  refine ⟨?_, (hsub.filterMap _).trans hsub', fun key success hs =>
    hsettled key success (settled_of_heard hheard hs), fun key hkey => ?_⟩
  · rw [hradio]
    cases hp.parameters with
    | request hrequest =>
      cases hrequest with
      | keeps hsame hwanted => exact hinv.keeps hsame hwanted mac'.data
      | refreshes hhost =>
        rw [hhost]
        exact hinv.refresh (mac.management.get_updateRadioParameters mac'.pib) mac'.data
      | resets hhost =>
        rw [hhost]
        exact RadioParameters.Inv.reset hinv.keys_nodup mac'.pib mac'.data
    | result hc hmac' =>
      subst hmac'
      exact hinv.result (hsettled _ _ (.heard hmac hc))
  · exact drawn_later (hdrawn key hkey)

omit [Sleep τ] in
/-- The radio runs an order. If it is for a parameter, those before it have been lost. -/
theorem Follows.runs (hf : Follows h t.before mac inFlight answers) {order : RadioOrder}
    {success : Bool} {garbage : RadioState}
    (horders : Stack.orders t.before = order :: Stack.orders t.after)
    (hheard : Heard t.before t.after (some (order.completion success)))
    (hradio : t.after.radio = t.before.radio.run success garbage order.command) :
    ∃ inFlight answers, Follows (t :: h) t.after mac inFlight answers := by
  obtain ⟨hinv, hsub, hsettled, hdrawn⟩ := hf
  obtain ⟨key, command⟩ := order
  rw [horders] at hsub
  have hlater : ∀ k ∈ inFlight.map (·.key) ++ answers.map (·.1), k ∈ Stack.drawn (t :: h) :=
    fun k hk => drawn_later (hdrawn k hk)
  cases command with
  | setParam param value =>
    obtain ⟨r₁, r₂, rfl, hmem, hrest⟩ := List.cons_sublist_iff.mp hsub
    obtain ⟨before, after, rfl⟩ := List.append_of_mem hmem
    have hw : before ++ (⟨key, param, value⟩ : RadioParameters.Command) :: after ++ r₂ =
        before ++ ⟨key, param, value⟩ :: (after ++ r₂) := by simp
    obtain ⟨answers', hinv', hmem', hsub', hkeys⟩ :=
      hinv.execute_after before hw success (garbage.params param)
    refine ⟨after ++ r₂, answers', ?_, hrest.trans (List.sublist_append_right _ _), ?_, ?_⟩
    · rw [hradio]
      exact hinv'
    · intro k s hs
      rcases hheard _ (by simp) hs with hold | hnew
      · exact hsub' (hsettled k s hold)
      · cases hnew
        exact hmem'
    · intro k hk
      rcases List.mem_append.mp hk with hk | hk
      · refine hlater k (List.mem_append_left _ ?_)
        simp only [List.map_append, List.map_cons, List.mem_append, List.mem_cons] at hk ⊢
        tauto
      · obtain ⟨answer, ha, rfl⟩ := List.mem_map.mp hk
        exact hlater _ (hkeys answer ha)
  | initTables | setShort _ _ | setExtended _ _ =>
    refine ⟨inFlight, answers, ?_, hsub, fun k s hs => ?_, hlater⟩
    · rw [hradio]
      exact hinv
    · rcases hheard _ (by simp) hs with hold | hnew
      · exact hsettled k s hold
      · cases hnew

theorem Followed.step (hf : Followed h t.before) (hl : Leads h t) : Followed (t :: h) t.after := by
  intro mac' hmac'
  cases hl with
  | polls hbefore hafter hp hnew hgiven horders hheard hradio =>
    cases hafter.symm.trans hmac'
    obtain ⟨inFlight, answers, hf⟩ := hf _ (by rw [hbefore]; rfl)
    exact hf.polls hp hnew hgiven horders hheard hradio
  | processes hbefore hafter hp hsub hheard hradio =>
    rw [hafter] at hmac'
    cases hmac'
    obtain ⟨inFlight, answers, hf⟩ := hf _ (by rw [hbefore]; rfl)
    exact ⟨inFlight, answers, hf.processes hbefore hp hsub hheard hradio⟩
  | runs hmac horders hheard hradio =>
    obtain ⟨inFlight, answers, hf⟩ := hf mac' (hmac ▸ hmac')
    exact hf.runs horders hheard hradio
  | passes hmac hsub hheard hradio =>
    obtain ⟨inFlight, answers, hinv, hsub', hsettled, hdrawn⟩ := hf mac' (hmac ▸ hmac')
    refine ⟨inFlight, answers, ?_, (hsub.filterMap _).trans hsub', fun key success hs =>
      hsettled key success (settled_of_heard hheard hs), fun key hkey => ?_⟩
    · rw [hradio]
      exact hinv
    · exact drawn_later (hdrawn key hkey)
  | panics hafter =>
    rw [hafter] at hmac'
    cases hmac'

/-- The radio's registers follow the PIB from end to end: whatever the channels, the two tasks of
the driver, the serial line and the radio do, and whatever of it gets lost, a parameter that is
neither dirty nor waited for has the value in the radio that the PIB wants. -/
theorem registers_follow_pib {pib : PIB} {radio : RadioState} {w : Stack τ}
    (hr : Run Stack.step Rely (start pib radio) h w) {mac : MacData τ} (hmac : w.mac.mac = some mac)
    {param : RadioParam} {value : RadioParamValue} (hv : mac.pib.wanted param = some value) :
    ∃ info, HashMap.get mac.management.radioParams param = some info ∧
      info.requestedValue = value ∧
      (info.dirty = false → info.updating = none → w.radio.params param = value) := by
  have hf : Followed h w :=
    invariant_of_leads (followed_start pib radio) (fun _ _ hf hl => hf.step hl) hr
  obtain ⟨inFlight, answers, hf⟩ := hf mac hmac
  have hwanted := hf.inv.wanted param
  replace hwanted : (HashMap.get mac.management.radioParams param).map (·.requestedValue) =
      some value := hwanted.trans hv
  obtain ⟨info, hget, rfl⟩ := Option.map_eq_some_iff.mp hwanted
  exact ⟨info, hget, rfl, fun hd hu => ((hf.inv.tracks param info hget).settled hu hd).2⟩

end Steps

/- The command for the PAN id fails and is sent again, the one for the tables is never written. -/
def retried : List Event :=
  [.poll 0 ⟨0⟩ [.panId] [[]] .pending, .process ⟨⟨0⟩, [], 0, 0⟩, .request, .register 7, .send true,
    .transmit true false ⟨fun _ => .u16 1, .empty⟩, .answer 0 false [9], .next, .remove,
    .poll 0 ⟨1⟩ [] [[]] .pending, .process ⟨⟨0⟩, [], 0, 0⟩, .request,
    .poll 0 ⟨2⟩ [] [[]] .pending, .process ⟨⟨0⟩, [], 0, 0⟩, .responded, .register 8, .send false,
    .poll 0 ⟨3⟩ [.panId] [[]] .pending, .process ⟨⟨0⟩, [], 0, 0⟩, .request, .register 9,
    .send true, .transmit true true ⟨fun _ => .u16 2, .empty⟩, .answer 0 true [0, 0], .next,
    .remove, .poll 0 ⟨4⟩ [] [[]] .pending, .process ⟨⟨0⟩, [], 0, 0⟩, .responded]

def afterRetry : Past SleepTimer × Stack SleepTimer :=
  replay Stack.step Rely (start (PIB.new ⟨1⟩ 11 0 0 0) ⟨fun _ => .u16 0, .empty⟩) retried

theorem afterRetry_run : Run Stack.step Rely
    (start (PIB.new ⟨1⟩ 11 0 0 0) ⟨fun _ => .u16 0, .empty⟩) afterRetry.1 afterRetry.2 :=
  run_replay retried

theorem registers_follow_pib_retried : afterRetry.2.radio.params .panId = .u16 0xFFFF ∧
    ∃ mac, afterRetry.2.mac.mac = some mac ∧
      ∃ info, HashMap.get mac.management.radioParams .panId = some info ∧
        info.requestedValue = .u16 0xFFFF ∧
        (info.dirty = false → info.updating = none →
          afterRetry.2.radio.params .panId = .u16 0xFFFF) := by
  have halive : afterRetry.2.mac.mac.isSome = true := by decide
  have hwanted : afterRetry.2.mac.mac.bind (·.pib.wanted .panId) = some (.u16 0xFFFF) := by decide
  obtain ⟨mac, hmac⟩ := Option.isSome_iff_exists.mp halive
  rw [hmac] at hwanted
  exact ⟨by decide, mac, hmac, registers_follow_pib afterRetry_run hmac hwanted⟩

end Stack
end ZigbeeStack
