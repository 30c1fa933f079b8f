import ZigbeeStack.MacCompletions
import ZigbeeStack.RadioParameters

/-! MLME requests are all or nothing: one that is refused changes nothing, and an attribute that is
set is what is got from then on. -/
namespace ZigbeeStack

def Mlme.Confirm.failed : Mlme.Confirm → Bool
  | .reset result => !result.isOk
  | .start result => !result.isOk
  | .beacon result => !result.isOk
  | .get _ result => !result.isOk
  | .set _ result => !result.isOk

namespace PIB
variable {pib : PIB} {a : PIBProperty} {v : PIBValue}

theorem set_failed (h : (pib.set a v).2.isOk = false) : (pib.set a v).1 = pib := by
  unfold set at h ⊢
  split at h
  all_goals first | rfl | cases h

/-- What is set is what is got, and only there. -/
theorem get_set (h : (pib.set a v).2 = .ok ()) (b : PIBProperty) :
    (pib.set a v).1.get b = if b = a then .ok v else pib.get b := by
  unfold set at h ⊢
  split at h
  all_goals first
    | cases b <;> rfl
    | cases h

theorem wanted_draw (bsn dsn : UInt8) :
    { pib with macBsn := bsn, macDsn := dsn }.wanted = pib.wanted :=
  funext fun param => by cases param <;> rfl

end PIB

namespace ManagementService
variable {self self' : ManagementService} {pib pib' : PIB}

/-- The parameters are asked to have the values that the PIB wants. -/
def Mirrors (self : ManagementService) (pib : PIB) : Prop :=
  ∀ param, (HashMap.get self.radioParams param).map (·.requestedValue) = pib.wanted param

theorem Mirrors.congr (h : self.Mirrors pib) (hparams : self'.radioParams = self.radioParams)
    (hwanted : pib'.wanted = pib.wanted) : self'.Mirrors pib' := by
  intro param
  rw [hparams, hwanted]
  exact h param

theorem mirrors_updateRadioParameters
    (h : ∀ param, pib.wanted param = none → HashMap.get self.radioParams param = none) :
    (self.updateRadioParameters pib).Mirrors pib := by
  intro param
  rw [get_updateRadioParameters]
  cases hw : pib.wanted param with
  | some value => simp
  | none => simp [h param hw]

theorem mirrors_new (pib : PIB) : (new pib).Mirrors pib :=
  mirrors_updateRadioParameters fun _ _ => rfl

theorem Mirrors.refresh (h : self.Mirrors pib) (pib' : PIB) :
    (self.updateRadioParameters pib').Mirrors pib' := by
  refine mirrors_updateRadioParameters fun param hw => ?_
  have hnone := (h param).trans (RadioParameters.wanted_eq_none pib hw)
  exact Option.map_eq_none_iff.mp hnone

theorem updateRadioParameter_eq_self {param : RadioParam} {value : RadioParamValue}
    (h : (HashMap.get self.radioParams param).map (·.requestedValue) = some value) :
    self.updateRadioParameter param value = self := by
  obtain ⟨info, hget, rfl⟩ := Option.map_eq_some_iff.mp h
  rw [updateRadioParameter, hget]
  exact if_neg (not_not.mpr rfl)

/-- A refresh that asks for nothing new changes nothing. -/
theorem Mirrors.updateRadioParameters_eq_self (h : self.Mirrors pib) :
    self.updateRadioParameters pib = self := by
  simp only [updateRadioParameters]
  rw [updateRadioParameter_eq_self (h .channel), updateRadioParameter_eq_self (h .panId),
    updateRadioParameter_eq_self (h .shortAddress), updateRadioParameter_eq_self (h .rxMode),
    updateRadioParameter_eq_self (h .txPower)]

theorem Mirrors.pollAction (h : self.Mirrors pib) (cx : Waker) (key : UniqueKey)
    (order : List RadioParam) : (self.pollAction cx key order).2.Mirrors pib := by
  have hp := self.paramsPolled cx key order
  generalize self.pollAction cx key order = out at hp ⊢
  cases hp with
  | @sends param info self' hget _ _ hset =>
    intro param'
    change (HashMap.get self'.radioParams param').map _ = _
    rw [hset, HashMap.get_set]
    split
    · rename_i heq
      rw [heq, ← h param, hget]
      rfl
    · exact h param'
  | keeps _ hkeeps => exact h.congr hkeeps rfl

theorem Mirrors.processSetParamResult (h : self.Mirrors pib) (key : UniqueKey) (result : Bool) :
    (self.processSetParamResult key result).Mirrors pib := by
  intro param
  rw [get_processSetParamResult, ← h param]
  cases HashMap.get self.radioParams param with
  | none => rfl
  | some info =>
    simp only [Option.map_some]
    split <;> rfl

theorem Mirrors.request {τ : Type} {data data' : DataService τ} {bsn dsn : UInt8}
    {request : Mlme.Request} {confirm : Mlme.Confirm} (h : self.Mirrors pib)
    (hr : self.processMlmeRequest pib data bsn dsn request = (confirm, self', data', pib')) :
    self'.Mirrors pib' := by
  cases paramsRequested hr with
  | keeps hparams hwanted => exact h.congr hparams hwanted
  | refreshes hself => exact hself ▸ h.refresh pib'
  | resets hself => exact hself ▸ mirrors_new pib'

theorem Mirrors.processFrame (h : self.Mirrors pib) (frame : Frame) :
    (self.processFrame pib frame).2.1.Mirrors (self.processFrame pib frame).2.2 := by
  unfold ManagementService.processFrame
  split
  · simp only [processFrameBeaconRequest, processMlmeBeaconRequest]
    split
    · split
      · exact h
      · exact h.congr rfl (PIB.wanted_draw _ _)
    · exact h
  · exact h
  · exact h

/-! A request that fails leaves everything as it was. -/

theorem startRequest_failed {request : Mlme.StartRequest} :
    (self.processMlmeStartRequest pib request).1.isOk = false →
      (self.processMlmeStartRequest pib request).2 = (self, pib) := by
  unfold processMlmeStartRequest
  split
  · exact fun _ => rfl
  · split
    · exact fun _ => rfl
    · exact fun h => nomatch h

theorem beaconRequest_failed {request : Mlme.BeaconRequest} :
    (self.processMlmeBeaconRequest pib request).1.isOk = false →
      (self.processMlmeBeaconRequest pib request).2 = (self, pib) := by
  unfold processMlmeBeaconRequest
  split
  · exact fun _ => rfl
  · exact fun h => nomatch h

theorem Mirrors.setRequest_failed (h : self.Mirrors pib) {request : Mlme.SetRequest}
    (hf : (self.processMlmeSetRequest pib request).1.isOk = false) :
    (self.processMlmeSetRequest pib request).2 = (self, pib) := by
  have hsame : (pib.set request.pibAttribute request.value).1 = pib := PIB.set_failed hf
  simp only [processMlmeSetRequest, hsame, h.updateRadioParameters_eq_self]

theorem Mirrors.failed {τ : Type} (h : self.Mirrors pib) (data : DataService τ) (bsn dsn : UInt8)
    {request : Mlme.Request}
    (hf : (self.processMlmeRequest pib data bsn dsn request).1.failed = true) :
    (self.processMlmeRequest pib data bsn dsn request).2 = (self, data, pib) := by
  have hdata {α β γ : Type} {out : α × β × γ} {b : β} {c : γ} {data : DataService τ}
      (hout : out.2 = (b, c)) : (out.2.1, data, out.2.2) = (b, data, c) := by rw [hout]
  cases request with
  | reset request => cases hf
  | start request => exact hdata (startRequest_failed (Bool.not_eq_true' _ ▸ hf))
  | beacon request => exact hdata (beaconRequest_failed (Bool.not_eq_true' _ ▸ hf))
  | get request => rfl
  | set request => exact hdata (h.setRequest_failed (Bool.not_eq_true' _ ▸ hf))

end ManagementService

namespace DataService
variable {τ : Type} [Sleep τ]

/-- A poll draws sequence numbers, but leaves what the PIB wants of the radio. -/
theorem pollAction_wanted {s s' : DataService τ} {pib pib' : PIB} {cx : Waker} {key : UniqueKey}
    {rounds : List (List (Option FullAddress × Instant))} {action : Poll DataServiceAction}
    (h : s.pollAction pib cx key rounds = some (action, s', pib')) : pib'.wanted = pib.wanted := by
  refine pollAction_rule (P := fun a => a.2.wanted = pib.wanted)
    (Q := fun b => b.2.2.wanted = pib.wanted) (fun a b hs ha => ?_) (fun a b hf ha => ?_) rounds
    rfl h
  · obtain ⟨hpib, -⟩ := hs.keeps
    rw [hpib, ha]
  · rcases hf.cases with ⟨k, f, d, r, -, hsends⟩ | ⟨-, hpib, -⟩
    · rw [hsends.pib, PIB.wanted_draw, ha]
    · rw [hpib, ha]

end DataService

namespace MacTask
open Runs ManagementService
variable {τ : Type} [Sleep τ]

theorem mirrors_polled {self self' : MacData τ} {visit : Visit} {result : Poll MacInput}
    (hp : MacData.Polled self visit result self') (h : self.management.Mirrors self.pib) :
    self'.management.Mirrors self'.pib := by
  have hpoll := h.pollAction visit.cx visit.key visit.params
  cases hp with
  | management hm =>
    rw [hm] at hpoll
    exact hpoll
  | data hm hd =>
    rw [hm] at hpoll
    exact hpoll.congr rfl (DataService.pollAction_wanted hd)
  | passes hm hd _ =>
    rw [hm] at hpoll
    exact hpoll.congr rfl (DataService.pollAction_wanted hd)

theorem mirrors_processed {self self' : MacData τ} {draws : Draws} {input : MacInput}
    (hp : MacData.Processed self draws input self') (h : self.management.Mirrors self.pib) :
    self'.management.Mirrors self'.pib := by
  cases hp with
  | sends _ hm _ hpib => exact h.congr (hm ▸ rfl) (hpib ▸ rfl)
  | request hr => exact h.request hr
  | response => exact h
  | mcps hm hpib _ => exact h.congr (hm ▸ rfl) (hpib ▸ rfl)
  | @completes response kind key success _ =>
    cases kind with
    | setParam => exact h.processSetParamResult key success
    | _ => exact h
  | @packet packet frame indication self' hframe _ =>
    have hprocessed := h.processFrame frame
    rw [hframe] at hprocessed
    exact hprocessed
  | ignores _ => exact h

theorem mirrors_of_run {rely : History (MacTask τ) MacEvent Unit → MacTask τ → MacEvent → Prop}
    {pib : PIB} {h : History (MacTask τ) MacEvent Unit} {task : MacTask τ}
    (hr : Run step rely (.polling (.new pib)) h task) :
    ∀ mac ∈ task.mac, mac.management.Mirrors mac.pib := by
  refine Run.invariant (P := fun _ task => ∀ mac ∈ task.mac, mac.management.Mirrors mac.pib)
    (fun mac hmac => ?_) (fun h task e task' o _ hi _ hs => ?_) hr
  · obtain rfl := Option.some.inj hmac
    exact mirrors_new pib
  · intro mac' hmac'
    cases moves hs with
    | waits hp =>
      obtain rfl := Option.some.inj hmac'
      exact mirrors_polled hp (hi _ rfl)
    | takes hp =>
      obtain rfl := Option.some.inj hmac'
      exact mirrors_polled hp (hi _ rfl)
    | processes hp =>
      obtain rfl := Option.some.inj hmac'
      exact mirrors_processed hp (hi _ rfl)
    | @closes task e f _ _ hf =>
      cases task with
      | polling mac =>
        obtain rfl := Option.some.inj hmac'
        exact (hi mac rfl).congr (by rw [(hf mac).1]) (by rw [(hf mac).2.2])
      | processing mac input =>
        obtain rfl := Option.some.inj hmac'
        exact (hi mac rfl).congr (by rw [(hf mac).1]) (by rw [(hf mac).2.2])
      | panicked panic => cases hmac'
    | panics => cases hmac'

/-- In every state of a run: a request whose confirm has an error leaves the management service
with its parameters and frames, the data service and the PIB as they were; and after a set, a get
of the attribute gives the value, and a get of any other what it gave before. -/
theorem mlme_requests_all_or_nothing
    {rely : History (MacTask τ) MacEvent Unit → MacTask τ → MacEvent → Prop} {pib : PIB}
    {h : History (MacTask τ) MacEvent Unit} {task : MacTask τ} {mac : MacData τ}
    (hr : Run step rely (.polling (.new pib)) h task) (hmac : mac ∈ task.mac) (bsn dsn : UInt8) :
    (∀ request confirm management data pib',
      mac.management.processMlmeRequest mac.pib mac.data bsn dsn request =
        (confirm, management, data, pib') → confirm.failed = true →
      management = mac.management ∧ data = mac.data ∧ pib' = mac.pib) ∧
    ∀ a v management data pib',
      mac.management.processMlmeRequest mac.pib mac.data bsn dsn (.set ⟨a, v⟩) =
        (.set a (.ok ()), management, data, pib') →
      ∀ b, (management.processMlmeRequest pib' data bsn dsn (.get ⟨b⟩)).1 =
        if b = a then .get a (.ok v)
        else (mac.management.processMlmeRequest mac.pib mac.data bsn dsn (.get ⟨b⟩)).1 := by
  have hmirrors := mirrors_of_run hr mac hmac
  refine ⟨fun request confirm management data pib' heq hfailed => ?_,
    fun a v management data pib' heq b => ?_⟩
  · have hconfirm : (mac.management.processMlmeRequest mac.pib mac.data bsn dsn request).1.failed =
        true := by rw [heq]; exact hfailed
    have hsame := hmirrors.failed mac.data bsn dsn hconfirm
    rw [heq] at hsame
    simpa using hsame
  · obtain ⟨hok, -, -, rfl⟩ : (mac.pib.set a v).2 = .ok () ∧ _ = management ∧ _ = data ∧
        (mac.pib.set a v).1 = pib' := by
      simpa [processMlmeRequest, processMlmeSetRequest] using heq
    have hget := PIB.get_set hok b
    simp only [processMlmeRequest, processMlmeGetRequest, hget]
    split
    · rename_i hb
      rw [hb]
      rfl
    · rfl

def asked : MacData SleepTimer :=
  (playedPacket beaconRequestPacket).2.mac.getD (.new (PIB.new ⟨1⟩ 11 0 0 0))

theorem asked_mem : asked ∈ (playedPacket beaconRequestPacket).2.mac := by
  have hsome : (playedPacket beaconRequestPacket).2.mac.isSome = true := by decide
  obtain ⟨mac, hmac⟩ := Option.isSome_iff_exists.mp hsome
  rw [asked, hmac]
  rfl

theorem mlme_requests_all_or_nothing_refused :
    (asked.management.processMlmeRequest asked.pib asked.data 0 0 (.set ⟨.macPanId, .u16 7⟩)).2 =
      (asked.management, asked.data, asked.pib) := by
  obtain ⟨hmanagement, hdata, hpib⟩ :=
    (mlme_requests_all_or_nothing (playedPacket_run beaconRequestPacket) asked_mem 0 0).1
      (.set ⟨.macPanId, .u16 7⟩) _ _ _ _ rfl rfl
  exact Prod.ext hmanagement (Prod.ext hdata hpib)

end MacTask
end ZigbeeStack
