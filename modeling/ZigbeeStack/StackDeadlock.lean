import ZigbeeStack.PollReturns
import ZigbeeStack.StackRuns

/-! How the MAC and the driver may come to wait for each other. The response task keeps the map
locked while it sends, and nobody takes what it sends while the MAC waits for the request task. -/
namespace ZigbeeStack
open Runs

namespace DataService
variable {τ : Type} [Sleep τ]

/-- There are rounds in which a poll returns. -/
theorem exists_rounds (s : DataService τ) (pib : PIB) (cx : Waker) (key : UniqueKey) :
    ∃ rounds out, s.pollAction pib cx key rounds = some out := by
  induction hn : s.work using Nat.strong_induction_on generalizing s pib with
  | _ n ih =>
    let visits : List (Option FullAddress × Instant) := s.queues.keys.map fun d => (d, 0)
    have hvisits : HashMap.Enumerates (visits.map Prod.fst) s.queues := by
      have hkeys : visits.map Prod.fst = s.queues.keys := by
        simp [visits, Function.comp_def]
      rw [hkeys]
      exact .refl _
    cases hround : s.pollRound pib cx key visits with
    | done action s' pib' =>
      refine ⟨[visits], (action, s', pib'), ?_⟩
      rw [pollAction, if_pos hvisits, hround]
    | retry s' pib' =>
      obtain ⟨rounds, out, hpoll⟩ := ih s'.work (hn ▸ pollRound_retry hround) s' pib' rfl
      refine ⟨visits :: rounds, out, ?_⟩
      rw [pollAction, if_pos hvisits, hround]
      exact hpoll

end DataService

namespace MacTask
variable {τ : Type} [Sleep τ]

theorem exists_poll (mac : MacData τ) (cx : Waker) (key : UniqueKey) (params : List RadioParam)
    (arrival : Poll (Option Arrival)) :
    ∃ rounds out, step (.polling mac) (.poll ⟨cx, key, params, rounds, arrival⟩) = some out := by
  obtain ⟨rounds, ⟨action, data, pib⟩, hpoll⟩ := mac.data.exists_rounds mac.pib cx key
  refine ⟨rounds, ?_⟩
  simp only [step, MacData.pollNextInput]
  cases mac.management.pollAction cx key params with
  | mk poll management =>
    cases poll with
    | ready action => exact ⟨_, rfl⟩
    | pending =>
      simp only [hpoll]
      cases action with
      | ready action => exact ⟨_, rfl⟩
      | pending =>
        cases arrival with
        | pending => exact ⟨_, rfl⟩
        | ready input => cases input <;> exact ⟨_, rfl⟩

theorem exists_process (mac : MacData τ) (input : MacInput) (draws : Draws) :
    ∃ out, step (.processing mac input) (.process draws) = some out := by
  simp only [step]
  cases mac.processInput draws input <;> exact ⟨_, rfl⟩

end MacTask

namespace Stack
variable {τ : Type}

def Event.IsHost : Event → Prop
  | .transmit _ _ _ | .answer _ _ _ | .report _ => False
  | _ => True

/-- The MAC waits for its request to be taken, the request task for the map, and the response task,
which has it, for the MAC. -/
structure Stuck (w : Stack τ) : Prop where
  mac : ∃ mac, w.mac = .polling mac
  request : ∃ request, w.request = some request
  requestTask : ∃ commandId data parser request,
    w.driver.requestTask = .lock commandId data parser request
  responseTask : ∃ response request, w.driver.responseTask = .sendResponse response request
  taken : w.taken = false

structure Waits (w w' : Stack τ) : Prop where
  mac : w'.mac = w.mac
  request : w'.request = w.request
  responsemap : w'.driver.responsemap = w.driver.responsemap
  requestTask : w'.driver.requestTask = w.driver.requestTask
  responseTask : w'.driver.responseTask = w.driver.responseTask
  taken : w'.taken = w.taken

theorem Stuck.waits {w w' : Stack τ} (hs : Stuck w) (hw : Waits w w') : Stuck w' where
  mac := hw.mac ▸ hs.mac
  request := hw.request ▸ hs.request
  requestTask := hw.requestTask ▸ hs.requestTask
  responseTask := hw.responseTask ▸ hs.responseTask
  taken := hw.taken ▸ hs.taken

section Steps
variable [Sleep τ] {w w' : Stack τ} {o : Unit}

/-- From there on only the line and the radio move. -/
theorem Stuck.step {e : Event} (hstuck : Stuck w) (hs : w.step e = some (w', o)) :
    ¬ e.IsHost ∧ Waits w w' := by
  obtain ⟨⟨mac, hmac⟩, ⟨request, hrequest⟩, ⟨commandId, data, parser, locking, htask⟩,
    ⟨response, answered, hresponse⟩, htaken⟩ := hstuck
  cases moves hs with
  | poll hfree _ => cases hfree.symm.trans hrequest
  | process hp =>
    obtain ⟨mac', input, hprocessing, -⟩ := MacTask.step_process hp
    cases hmac.symm.trans hprocessing
  | request _ hd =>
    cases Radio.stepped hd with
    | request hnext => cases htask.symm.trans hnext
  | register hd =>
    cases Radio.stepped hd with
    | register _ hopen _ =>
      rw [Radio.RadioService.locked, hresponse] at hopen
      cases hopen
  | send hd =>
    cases Radio.stepped hd with
    | send hsend => cases htask.symm.trans hsend
  | @transmit arrives _ _ _ _ _ _ _ hd =>
    cases Radio.stepped hd with
    | transmit _ =>
      refine ⟨id, ?_⟩
      cases arrives <;> exact ⟨rfl, rfl, rfl, rfl, rfl, rfl⟩
  | answer hd =>
    cases Radio.stepped hd with
    | answer _ => exact ⟨id, rfl, rfl, rfl, rfl, rfl, rfl⟩
  | report hd =>
    cases Radio.stepped hd with
    | report => exact ⟨id, rfl, rfl, rfl, rfl, rfl, rfl⟩
  | next hd =>
    cases Radio.stepped hd with
    | next hnext _ => cases hresponse.symm.trans hnext
  | remove hd =>
    cases Radio.stepped hd with
    | remove hlock _ => cases hresponse.symm.trans hlock
    | removeUnasked hlock _ => cases hresponse.symm.trans hlock
    | forget hlock _ => cases hresponse.symm.trans hlock
  | responded hdone _ =>
    rcases hdone with hdone | hdone
    · cases htaken.symm.trans hdone
    · rw [hmac] at hdone
      cases hdone

/-- Whoever is not stuck can go on, as long as there is an id for the next request. -/
theorem exists_step (halive : w.mac.mac.isSome = true)
    (hid : ∃ requestId, HashMap.get w.driver.responsemap requestId = none) (hstuck : ¬ Stuck w) :
    ∃ e : Event, e.IsHost ∧ ∃ out, w.step e = some out := by
  cases hmac : w.mac with
  | panicked panic =>
    rw [hmac] at halive
    cases halive
  | processing mac input =>
    obtain ⟨out, hp⟩ := MacTask.exists_process mac input ⟨⟨0⟩, [], 0, 0⟩
    refine ⟨.process ⟨⟨0⟩, [], 0, 0⟩, trivial, ?_⟩
    simp only [step, hmac, hp]
    exact ⟨_, rfl⟩
  | polling mac =>
    cases hrequest : w.request with
    | none =>
      obtain ⟨rounds, out, hp⟩ := MacTask.exists_poll mac 0 ⟨0⟩ [] (w.arrival .pending)
      refine ⟨.poll 0 ⟨0⟩ [] rounds .pending, trivial, ?_⟩
      simp only [step, hrequest, Option.isSome_none, Bool.false_eq_true, if_false, hmac, hp]
      exact ⟨_, rfl⟩
    | some request =>
      cases htask : w.driver.requestTask with
      | next =>
        refine ⟨.request, trivial, ?_⟩
        simp only [step, hrequest, drive, Radio.RadioService.step, htask]
        exact ⟨_, rfl⟩
      | send carried =>
        refine ⟨.send true, trivial, ?_⟩
        simp only [step, drive, Radio.RadioService.step, htask]
        exact ⟨_, rfl⟩
      | lock commandId data parser locking =>
        obtain ⟨requestId, hfree⟩ := hid
        cases hlocked : w.driver.locked with
        | false =>
          refine ⟨.register requestId, trivial, ?_⟩
          simp [step, drive, Radio.RadioService.step, htask, hlocked, hfree]
        | true =>
          -- it is the response task that has the map, so its response must have been taken
          have hresponse : ∃ response answered,
              w.driver.responseTask = .sendResponse response answered := by
            unfold Radio.RadioService.locked at hlocked
            split at hlocked
            · exact ⟨_, _, ‹_›⟩
            · cases hlocked
          have htaken : w.taken = true := by
            by_contra hno
            exact hstuck ⟨⟨mac, hmac⟩, ⟨request, hrequest⟩, ⟨_, _, _, _, htask⟩, hresponse,
              by simpa using hno⟩
          obtain ⟨response, answered, hresponse⟩ := hresponse
          refine ⟨.responded, trivial, ?_⟩
          simp [step, drive, Radio.RadioService.step, htaken, hresponse]

/-- The MAC and the two tasks of the driver never move again, whatever the layer above, the line
and the radio do, exactly if they are stuck. -/
theorem never_moves_iff_stuck (halive : w.mac.mac.isSome = true)
    (hid : ∃ requestId, HashMap.get w.driver.responsemap requestId = none) :
    (∀ h w', Run step (fun _ _ _ => True) w h w' →
      Waits w w' ∧ ∀ t ∈ h, ¬ t.event.IsHost) ↔ Stuck w := by
  constructor
  · intro hnever
    by_contra hstuck
    obtain ⟨e, hhost, ⟨w', o⟩, hs⟩ := exists_step halive hid hstuck
    exact (hnever _ _ (.next .start trivial hs)).2 _ List.mem_cons_self hhost
  · intro hstuck h w' hr
    refine hr.invariant (P := fun h w' => Waits w w' ∧ ∀ t ∈ h, ¬ t.event.IsHost)
      ⟨⟨rfl, rfl, rfl, rfl, rfl, rfl⟩, by simp⟩ ?_
    rintro h w₁ e w₂ o - ⟨hwaits, hmoves⟩ - hs
    obtain ⟨hhost, hw⟩ := (hstuck.waits hwaits).step hs
    refine ⟨⟨hw.mac.trans hwaits.mac, hw.request.trans hwaits.request,
      hw.responsemap.trans hwaits.responsemap, hw.requestTask.trans hwaits.requestTask,
      hw.responseTask.trans hwaits.responseTask, hw.taken.trans hwaits.taken⟩, ?_⟩
    exact List.forall_mem_cons.mpr ⟨hhost, hmoves⟩

end Steps

/-! Nothing gets lost and the radio does what it is asked, but it answers the first request while
the MAC still sends the next two. -/

def answeredEarly : List Event :=
  [.poll 0 ⟨0⟩ [.channel] [[]] .pending, .process ⟨⟨0⟩, [], 0, 0⟩, .request, .register 7,
    .send true, .transmit true true ⟨fun _ => .u16 0, .empty⟩, .answer 0 true [0, 0],
    .next, .remove, .poll 0 ⟨1⟩ [.panId] [[]] .pending, .process ⟨⟨0⟩, [], 0, 0⟩, .request,
    .poll 0 ⟨2⟩ [.shortAddress] [[]] .pending, .process ⟨⟨0⟩, [], 0, 0⟩]

def afterAnswer : Past SleepTimer × Stack SleepTimer :=
  replay step Rely (start (PIB.new ⟨1⟩ 11 0 0 0) ⟨fun _ => .u16 0, .empty⟩) answeredEarly

theorem afterAnswer_run : Run step Rely
    (start (PIB.new ⟨1⟩ 11 0 0 0) ⟨fun _ => .u16 0, .empty⟩) afterAnswer.1 afterAnswer.2 :=
  run_replay answeredEarly

theorem afterAnswer_stuck : Stuck afterAnswer.2 :=
  ⟨⟨_, rfl⟩, ⟨_, rfl⟩, ⟨_, _, _, _, rfl⟩, ⟨_, _, rfl⟩, rfl⟩

theorem never_moves_iff_stuck_answeredEarly :
    Run step Rely (start (PIB.new ⟨1⟩ 11 0 0 0) ⟨fun _ => .u16 0, .empty⟩) afterAnswer.1
      afterAnswer.2 ∧
    ∀ h w', Run step (fun _ _ _ => True) afterAnswer.2 h w' →
      w'.request = some (.setParam ⟨2⟩ .shortAddress (.u16 0xFFFF)) ∧
        ∀ t ∈ h, ¬ t.event.IsHost := by
  refine ⟨afterAnswer_run, fun h w' hr => ?_⟩
  obtain ⟨hwaits, hnever⟩ :=
    (never_moves_iff_stuck rfl ⟨8, by decide⟩).mpr afterAnswer_stuck h w' hr
  exact ⟨hwaits.request, hnever⟩

end Stack
end ZigbeeStack
