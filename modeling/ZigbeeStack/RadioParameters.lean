import ZigbeeStack.Management
import ZigbeeStack.Runs
import ZigbeeStack.WriteBack

/-! The management service beside the radio whose parameters it keeps in step with the PIB. -/
namespace ZigbeeStack

def PIB.wanted (pib : PIB) : RadioParam → Option RadioParamValue
  | .channel => some (.u16 pib.phyCurrentChannel)
  | .panId => some (.u16 pib.macPanId.value)
  | .shortAddress => some (.u16 pib.macShortAddress.value)
  | .rxMode => some (RadioRxMode.mk true true false).toValue
  | .txPower => some (.u16 pib.phyTxPower)
  | _ => none

def RadioParamInfo.register (info : RadioParamInfo) :
    WriteBack.Register RadioParamValue UniqueKey :=
  ⟨info.requestedValue, info.dirty, info.updating⟩

namespace ManagementService

def refreshed (current : Option RadioParamInfo) (value : RadioParamValue) : RadioParamInfo :=
  match current with
  | some info =>
    if info.requestedValue ≠ value then { info with requestedValue := value, dirty := true }
    else info
  | none => ⟨value, none, true⟩

@[simp] theorem refreshed_requestedValue (current : Option RadioParamInfo)
    (value : RadioParamValue) : (refreshed current value).requestedValue = value := by
  cases current with
  | none => rfl
  | some info =>
    simp only [refreshed]
    split
    · rfl
    · exact not_not.mp ‹_›

theorem get_updateRadioParameter (self : ManagementService) (parameter param : RadioParam)
    (value : RadioParamValue) :
    HashMap.get (self.updateRadioParameter parameter value).radioParams param =
      if param = parameter then some (refreshed (HashMap.get self.radioParams param) value)
      else HashMap.get self.radioParams param := by
  unfold updateRadioParameter
  cases hget : HashMap.get self.radioParams parameter with
  | none =>
    simp only [HashMap.get_set]
    split
    · rename_i h
      rw [h, hget, refreshed]
    · rfl
  | some current =>
    simp only []
    split
    · rename_i hne
      simp only [HashMap.get_set]
      split
      · rename_i h
        rw [h, hget, refreshed, if_pos hne]
      · rfl
    · rename_i heq
      split
      · rename_i h
        rw [h, hget, refreshed, if_neg heq]
      · rfl

/-- Refreshing asks every parameter to have the value that the PIB wants. -/
theorem get_updateRadioParameters (self : ManagementService) (pib : PIB) (param : RadioParam) :
    HashMap.get (self.updateRadioParameters pib).radioParams param =
      match pib.wanted param with
      | some value => some (refreshed (HashMap.get self.radioParams param) value)
      | none => HashMap.get self.radioParams param := by
  simp only [updateRadioParameters, get_updateRadioParameter]
  cases param <;> rfl

inductive ParamsPolled (self : ManagementService) (key : UniqueKey) :
    Poll ManagementServiceAction × ManagementService → Prop where
  | sends {param info self'} : HashMap.get self.radioParams param = some info →
      info.dirty = true → info.updating = none →
      self'.radioParams = HashMap.set self.radioParams param
        { info with dirty := false, updating := some key } →
      ParamsPolled self key (.ready (.setParam key param info.requestedValue), self')
  | keeps {result self'} : (∀ k param value, result ≠ .ready (.setParam k param value)) →
      self'.radioParams = self.radioParams → ParamsPolled self key (result, self')

theorem pollRadioParamUpdate_cases (self : ManagementService) (key : UniqueKey)
    (order : List RadioParam) :
    (∃ param info, HashMap.get self.radioParams param = some info ∧ info.dirty = true ∧
      info.updating = none ∧ self.pollRadioParamUpdate key order =
        (.ready (.setParam key param info.requestedValue),
          { self with
            radioParams := HashMap.set self.radioParams param
              { info with dirty := false, updating := some key } })) ∨
    self.pollRadioParamUpdate key order = (.pending, self) := by
  induction order with
  | nil => exact .inr rfl
  | cons param rest ih =>
    unfold pollRadioParamUpdate
    split
    · rename_i info hget
      split
      · rename_i hready
        rw [Bool.and_eq_true, Option.isNone_iff_eq_none] at hready
        exact .inl ⟨param, info, hget, hready.1, hready.2, rfl⟩
      · exact ih
    · exact ih

theorem paramsPolled (self : ManagementService) (cx : Waker) (key : UniqueKey)
    (order : List RadioParam) : ParamsPolled self key (self.pollAction cx key order) := by
  unfold pollAction
  rcases self.pollRadioParamUpdate_cases key order with
    ⟨param, info, hget, hd, hu, heq⟩ | heq
  · rw [heq]
    exact .sends hget hd hu rfl
  · rw [heq]
    split
    · rename_i h
      cases h
    · rename_i h
      cases h
      split
      · exact .keeps (by simp) rfl
      · exact .keeps (by simp) rfl

theorem get_processSetParamResult (self : ManagementService) (key : UniqueKey) (result : Bool)
    (param : RadioParam) :
    HashMap.get (self.processSetParamResult key result).radioParams param =
      (HashMap.get self.radioParams param).map fun info =>
        if info.updating = some key then
          { info with updating := none, dirty := info.dirty || !result }
        else info :=
  HashMap.get_mapValues _ _ _

inductive ParamsRequested (self : ManagementService) (pib : PIB) : ManagementService → PIB → Prop
  where
  | keeps {self' pib'} : self'.radioParams = self.radioParams → pib'.wanted = pib.wanted →
      ParamsRequested self pib self' pib'
  | refreshes {self' pib'} : self' = self.updateRadioParameters pib' →
      ParamsRequested self pib self' pib'
  | resets {self' pib'} : self' = new pib' → ParamsRequested self pib self' pib'

theorem paramsRequested {τ : Type} {self self' : ManagementService} {pib pib' : PIB}
    {data data' : DataService τ} {bsn dsn : UInt8} {request : Mlme.Request}
    {confirm : Mlme.Confirm}
    (h : self.processMlmeRequest pib data bsn dsn request = (confirm, self', data', pib')) :
    ParamsRequested self pib self' pib' := by
  cases request with
  | reset request =>
    cases h
    exact .resets rfl
  | start request =>
    simp only [processMlmeRequest, processMlmeStartRequest] at h
    split at h
    · cases h
      exact .keeps rfl rfl
    · split at h
      · cases h
        exact .keeps rfl rfl
      · simp only [Prod.mk.injEq] at h
        obtain ⟨-, rfl, -, rfl⟩ := h
        exact .refreshes rfl
  | beacon request =>
    simp only [processMlmeRequest, processMlmeBeaconRequest] at h
    split at h
    · cases h
      exact .keeps rfl rfl
    · cases h
      exact .keeps rfl (funext fun param => by cases param <;> rfl)
  | get request =>
    cases h
    exact .keeps rfl rfl
  | set request =>
    simp only [processMlmeRequest, processMlmeSetRequest, Prod.mk.injEq] at h
    obtain ⟨-, rfl, -, rfl⟩ := h
    exact .refreshes rfl

end ManagementService

/-! The world of the parameters: commands on their way, and answers that come late, or never, or
more than once. -/
namespace RadioParameters
open Runs WriteBack

structure Command where
  key : UniqueKey
  param : RadioParam
  value : RadioParamValue
deriving DecidableEq, Repr

def sent (inFlight : List Command) (param : RadioParam) : List (UniqueKey × RadioParamValue) :=
  (inFlight.filter fun c => c.param = param).map fun c => (c.key, c.value)

def commands : Poll ManagementServiceAction → List Command
  | .ready (.setParam key param value) => [⟨key, param, value⟩]
  | _ => []

theorem commands_eq_nil {action : Poll ManagementServiceAction}
    (h : ∀ k param value, action ≠ .ready (.setParam k param value)) : commands action = [] := by
  match action, h with
  | .ready (.setParam k param value), h => exact absurd rfl (h k param value)
  | .ready (.sendFrame _), _ => rfl
  | .pending, _ => rfl

structure World (τ : Type) where
  host : ManagementService
  pib : PIB
  data : DataService τ
  radio : RadioParam → RadioParamValue
  inFlight : List Command
  answers : List (UniqueKey × Bool)

inductive Event where
  | request (bsn dsn : UInt8) (request : Mlme.Request)
  | pollAction (cx : Waker) (key : UniqueKey) (order : List RadioParam)
  | execute (success : Bool) (garbage : RadioParamValue)
  | processSetParamResult (key : UniqueKey) (success : Bool)
deriving DecidableEq, Repr

inductive Output where
  | none
  | confirm (confirm : Mlme.Confirm)
  | action (action : Poll ManagementServiceAction)
deriving DecidableEq, Repr

namespace World
variable {τ : Type}

def start (pib : PIB) (radio : RadioParam → RadioParamValue) : World τ :=
  ⟨.new pib, pib, .new, radio, [], []⟩

def keys (w : World τ) : List UniqueKey := w.inFlight.map (·.key) ++ w.answers.map (·.1)

end World
variable {τ : Type}

/-- The radio runs the commands in the order in which they were sent; one that fails leaves
anything in its parameter. A result is given to the service only after the radio gave it. -/
def step (w : World τ) : Event → Option (World τ × Output)
  | .request bsn dsn request =>
    let out := w.host.processMlmeRequest w.pib w.data bsn dsn request
    some ({ w with host := out.2.1, data := out.2.2.1, pib := out.2.2.2 }, .confirm out.1)
  | .pollAction cx key order =>
    let (action, host) := w.host.pollAction cx key order
    some ({ w with host := host, inFlight := w.inFlight ++ commands action }, .action action)
  | .execute success garbage =>
    match w.inFlight with
    | c :: rest =>
      some ({ w with
        radio := Function.update w.radio c.param (if success then c.value else garbage)
        inFlight := rest
        answers := (c.key, success) :: w.answers }, .none)
    | [] => none
  | .processSetParamResult key success =>
    if w.answers.contains (key, success) then
      some ({ w with host := w.host.processSetParamResult key success }, .none)
    else none

/- The key that a poll may use was never given before. -/
def FreshKeys (_ : History (World τ) Event Output) (w : World τ) : Event → Prop
  | .pollAction _ key _ => key ∉ w.keys
  | _ => True

instance (h : History (World τ) Event Output) (w : World τ) (e : Event) :
    Decidable (FreshKeys h w e) := by
  unfold FreshKeys
  split <;> infer_instance

structure Inv (w : World τ) : Prop where
  keys_nodup : w.keys.Nodup
  wanted : ∀ param,
    (HashMap.get w.host.radioParams param).map (·.requestedValue) = w.pib.wanted param
  tracks : ∀ param info, HashMap.get w.host.radioParams param = some info →
    Tracks info.register (w.radio param) (sent w.inFlight param) w.answers

theorem wanted_eq_none {pib : PIB} (pib' : PIB) {param : RadioParam} (h : pib.wanted param = none) :
    pib'.wanted param = none := by
  cases param <;> first | rfl | cases h

section Steps
variable {w : World τ}

theorem Inv.refresh (hi : Inv w) {host : ManagementService} {pib : PIB}
    (hhost : ∀ param, HashMap.get host.radioParams param =
      match pib.wanted param with
      | some value =>
        some (ManagementService.refreshed (HashMap.get w.host.radioParams param) value)
      | none => HashMap.get w.host.radioParams param)
    (data : DataService τ) : Inv { w with host := host, data := data, pib := pib } := by
  refine ⟨hi.keys_nodup, fun param => ?_, fun param info hget => ?_⟩
  · change (HashMap.get host.radioParams param).map _ = pib.wanted param
    rw [hhost]
    cases hw : pib.wanted param with
    | some value => simp
    | none => exact (hi.wanted param).trans (wanted_eq_none w.pib hw)
  · replace hget : HashMap.get host.radioParams param = some info := hget
    rw [hhost] at hget
    cases hw : pib.wanted param with
    | none =>
      rw [hw] at hget
      exact hi.tracks param info hget
    | some value =>
      rw [hw] at hget
      obtain rfl := Option.some.inj hget
      cases hcur : HashMap.get w.host.radioParams param with
      | none => exact .of_dirty value
      | some current =>
        have ht := hi.tracks param current hcur
        simp only [ManagementService.refreshed]
        split
        · exact ht.touch value
        · exact ht

/-- A service that starts anew knows nothing of the commands on their way. -/
theorem Inv.reset (hn : w.keys.Nodup) (pib : PIB) (data : DataService τ) :
    Inv { w with host := .new pib, data := data, pib := pib } := by
  have hget : ∀ param, HashMap.get (ManagementService.new pib).radioParams param =
      (pib.wanted param).map fun value => ⟨value, none, true⟩ := fun param => by
    rw [ManagementService.new, ManagementService.get_updateRadioParameters]
    cases pib.wanted param <;> rfl
  refine ⟨hn, fun param => ?_, fun param info hinfo => ?_⟩
  · change (HashMap.get (ManagementService.new pib).radioParams param).map _ = _
    rw [hget]
    cases pib.wanted param <;> rfl
  · replace hinfo : HashMap.get (ManagementService.new pib).radioParams param = some info := hinfo
    rw [hget] at hinfo
    cases hw : pib.wanted param with
    | none => rw [hw] at hinfo; cases hinfo
    | some value =>
      rw [hw] at hinfo
      obtain rfl := Option.some.inj hinfo
      exact .of_dirty value

theorem Inv.start (pib : PIB) (radio : RadioParam → RadioParamValue) :
    Inv (World.start pib radio : World τ) := by
  have hn : (World.start pib radio : World τ).keys.Nodup := List.nodup_nil
  exact Inv.reset hn pib .new

theorem Inv.keeps (hi : Inv w) {host : ManagementService} {pib : PIB}
    (hparams : host.radioParams = w.host.radioParams) (hwanted : pib.wanted = w.pib.wanted)
    (data : DataService τ) : Inv { w with host := host, data := data, pib := pib } where
  keys_nodup := hi.keys_nodup
  wanted param := by
    change (HashMap.get host.radioParams param).map _ = pib.wanted param
    rw [hparams, hwanted]
    exact hi.wanted param
  tracks param info hget := by
    have hget : HashMap.get host.radioParams param = some info := hget
    rw [hparams] at hget
    exact hi.tracks param info hget

theorem sent_append (inFlight : List Command) (c : Command) (param : RadioParam) :
    sent (inFlight ++ [c]) param =
      sent inFlight param ++ if c.param = param then [(c.key, c.value)] else [] := by
  simp only [sent, List.filter_append, List.map_append]
  by_cases h : c.param = param <;> simp [h]

theorem sent_cons (c : Command) (rest : List Command) (param : RadioParam) :
    sent (c :: rest) param =
      if c.param = param then (c.key, c.value) :: sent rest param else sent rest param := by
  simp only [sent, List.filter_cons]
  by_cases h : c.param = param <;> simp [h]

theorem Inv.send (hi : Inv w) {host : ManagementService} {param : RadioParam}
    {info : RadioParamInfo} {key : UniqueKey} (hnew : key ∉ w.keys)
    (hget : HashMap.get w.host.radioParams param = some info)
    (hhost : host.radioParams = HashMap.set w.host.radioParams param
      { info with dirty := false, updating := some key }) :
    Inv { w with host := host, inFlight := w.inFlight ++ [⟨key, param, info.requestedValue⟩] } := by
  refine ⟨?_, fun param' => ?_, fun param' info' hget' => ?_⟩
  · rw [World.keys, List.map_append, List.append_assoc]
    exact List.nodup_middle.mpr (List.nodup_cons.mpr ⟨hnew, hi.keys_nodup⟩)
  · change (HashMap.get host.radioParams param').map _ = _
    rw [hhost, HashMap.get_set, ← hi.wanted param']
    split
    · rename_i h
      rw [h, hget]
      rfl
    · rfl
  · replace hget' : HashMap.get host.radioParams param' = some info' := hget'
    rw [hhost, HashMap.get_set] at hget'
    have hsent := sent_append w.inFlight ⟨key, param, info.requestedValue⟩ param'
    split at hget'
    · rename_i h
      subst h
      obtain rfl := Option.some.inj hget'
      rw [if_pos rfl] at hsent
      exact hsent ▸ Tracks.send info.register key
    · rename_i h
      rw [if_neg (Ne.symm h), List.append_nil] at hsent
      exact hsent ▸ hi.tracks param' info' hget'

theorem Inv.execute (hi : Inv w) {c : Command} {rest : List Command}
    (hw : w.inFlight = c :: rest) (success : Bool) (garbage : RadioParamValue) :
    Inv { w with
      radio := Function.update w.radio c.param (if success then c.value else garbage)
      inFlight := rest
      answers := (c.key, success) :: w.answers } := by
  refine ⟨?_, hi.wanted, fun param info hget => ?_⟩
  · have hn := hi.keys_nodup
    rw [World.keys, hw, List.map_cons, List.cons_append] at hn
    exact List.nodup_middle.mpr hn
  · have ht := hi.tracks param info hget
    rw [hw, sent_cons] at ht
    change Tracks info.register (Function.update w.radio c.param _ param) (sent rest param)
      ((c.key, success) :: w.answers)
    by_cases h : c.param = param
    · subst h
      rw [if_pos rfl] at ht
      rw [Function.update_self]
      exact ht.execute fun hs => if_pos hs
    · rw [if_neg h] at ht
      rw [Function.update_of_ne (Ne.symm h)]
      exact ht.done_cons (c.key, success)

theorem Inv.result (hi : Inv w) {key : UniqueKey} {success : Bool}
    (hanswer : (key, success) ∈ w.answers) :
    Inv { w with host := w.host.processSetParamResult key success } := by
  refine ⟨hi.keys_nodup, fun param => ?_, fun param info hget => ?_⟩
  · change (HashMap.get (w.host.processSetParamResult key success).radioParams param).map _ = _
    rw [ManagementService.get_processSetParamResult, Option.map_map, ← hi.wanted param]
    congr 1
    funext info
    simp only [Function.comp_apply]
    split <;> rfl
  · replace hget : HashMap.get (w.host.processSetParamResult key success).radioParams param =
        some info := hget
    rw [ManagementService.get_processSetParamResult, Option.map_eq_some_iff] at hget
    obtain ⟨info, hget, rfl⟩ := hget
    have ht := hi.tracks param info hget
    split
    · rename_i hu
      have hn := List.nodup_append.mp hi.keys_nodup
      refine ht.settle hu (fun c hc heq => ?_) fun b hb => ?_
      · obtain ⟨command, hmem, rfl⟩ := List.mem_map.mp hc
        exact hn.2.2 _ (List.mem_map_of_mem (List.mem_filter.mp hmem).1) _
          (List.mem_map_of_mem hanswer) heq
      · exact congrArg Prod.snd (List.inj_on_of_nodup_map hn.2.1 hb hanswer rfl)
    · exact ht

theorem Inv.step {h : History (World τ) Event Output} {e : Event} {w' : World τ} {o : Output}
    (hi : Inv w) (hrely : FreshKeys h w e) (hs : step w e = some (w', o)) : Inv w' := by
  cases e with
  | request bsn dsn request =>
    simp only [RadioParameters.step] at hs
    generalize hout : w.host.processMlmeRequest w.pib w.data bsn dsn request = out at hs
    obtain ⟨confirm, host, data, pib⟩ := out
    obtain ⟨rfl, -⟩ := Prod.mk.inj (Option.some.inj hs)
    cases ManagementService.paramsRequested hout with
    | keeps hparams hwanted => exact hi.keeps hparams hwanted data
    | refreshes hhost =>
      subst hhost
      exact hi.refresh (w.host.get_updateRadioParameters pib) data
    | resets hhost =>
      subst hhost
      exact Inv.reset hi.keys_nodup pib data
  | pollAction cx key order =>
    have hp := w.host.paramsPolled cx key order
    simp only [RadioParameters.step] at hs
    generalize w.host.pollAction cx key order = out at hp hs
    cases hp with
    | sends hget hd hu hhost =>
      obtain ⟨rfl, -⟩ := Prod.mk.inj (Option.some.inj hs)
      exact hi.send hrely hget hhost
    | @keeps result host hno hhost =>
      rw [commands_eq_nil hno, List.append_nil] at hs
      obtain ⟨rfl, -⟩ := Prod.mk.inj (Option.some.inj hs)
      exact hi.keeps hhost rfl w.data
  | execute success garbage =>
    simp only [RadioParameters.step] at hs
    split at hs
    · rename_i hw
      obtain ⟨rfl, -⟩ := Prod.mk.inj (Option.some.inj hs)
      exact hi.execute hw success garbage
    · cases hs
  | processSetParamResult key success =>
    simp only [RadioParameters.step] at hs
    split at hs
    · rename_i hanswer
      obtain ⟨rfl, -⟩ := Prod.mk.inj (Option.some.inj hs)
      exact hi.result (List.contains_iff_mem.mp hanswer)
    · cases hs

end Steps

/-- The radio's parameters follow the PIB. -/
theorem radio_follows_pib {pib : PIB} {radio : RadioParam → RadioParamValue}
    {h : History (World τ) Event Output} {w : World τ}
    (hr : Run step FreshKeys (.start pib radio) h w) {param : RadioParam}
    {value : RadioParamValue} (hv : w.pib.wanted param = some value) :
    ∃ info, HashMap.get w.host.radioParams param = some info ∧ info.requestedValue = value ∧
      (info.dirty = false → info.updating = none → w.radio param = value) := by
  have hi : Inv w := by
    refine hr.invariant (P := fun _ w => Inv w) (Inv.start pib radio) ?_
    intro h w e w' o _ hi hrely hs
    exact hi.step hrely hs
  have hwanted := hi.wanted param
  rw [hv, Option.map_eq_some_iff] at hwanted
  obtain ⟨info, hget, rfl⟩ := hwanted
  exact ⟨info, hget, rfl, fun hd hu => ((hi.tracks param info hget).settled hu hd).2⟩

/- The PAN id is changed while it is being set, then back again; the command fails, and the next
one is still on its way when a reset comes. -/
def changedBack : List Event :=
  [.pollAction 0 ⟨0⟩ [.panId], .request 0 0 (.set ⟨.macPanId, .panId ⟨7⟩⟩),
    .request 0 0 (.set ⟨.macPanId, .panId ⟨0xFFFF⟩⟩), .execute false (.u16 1),
    .processSetParamResult ⟨0⟩ false, .pollAction 0 ⟨1⟩ [.panId], .request 0 0 (.reset ⟨false⟩),
    .pollAction 0 ⟨2⟩ [.panId], .execute true (.u16 0), .processSetParamResult ⟨1⟩ true,
    .execute true (.u16 0), .processSetParamResult ⟨2⟩ true]

def afterChange : History (World SleepTimer) Event Output × World SleepTimer :=
  replay step FreshKeys (.start (.new ⟨1⟩ 11 3 0 0) fun _ => .u16 0) changedBack

theorem afterChange_run : Run step FreshKeys (.start (.new ⟨1⟩ 11 3 0 0) fun _ => .u16 0)
    afterChange.1 afterChange.2 :=
  run_replay changedBack

theorem radio_follows_pib_panId : afterChange.2.radio .panId = .u16 0xFFFF ∧
    ∃ info, HashMap.get afterChange.2.host.radioParams .panId = some info ∧
      info.requestedValue = .u16 0xFFFF ∧
      (info.dirty = false → info.updating = none → afterChange.2.radio .panId = .u16 0xFFFF) :=
  ⟨rfl, radio_follows_pib afterChange_run rfl⟩

end RadioParameters
end ZigbeeStack
