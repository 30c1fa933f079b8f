import ZigbeeStack.StackRuns

/-! The order of what goes over the line: the radio gets what the MAC asks for, and the MAC hears
what the radio sends, in order and once, save for what the line loses. -/
namespace ZigbeeStack
open Runs

abbrev RawRequest := RawRadioCommand × List UInt8

def RadioRequest.raw (request : RadioRequest) : RawRequest :=
  (request.toDriver.intoRaw.1, request.toDriver.intoRaw.2.1)

namespace Radio

def Carried.raw (carried : Carried) : RawRequest :=
  (carried.message.commandId, carried.message.data)

def RequestTask.raws : RequestTask → List RawRequest
  | .next => []
  | .lock commandId data _ _ => [(commandId, data)]
  | .send carried => [carried.raw]

def ResponseTask.waiting : ResponseTask → List ZigbeeStack.RadioResponse
  | .lock message (some request) => [(request.intoRaw.2.2 (answeredBy message)).toMac]
  | .sendResponse response _ => [response.toMac]
  | .sendPacket packet => [.onPacket packet]
  | .next | .lock _ none => []

def responsesTo (x : RawRadioMessage × Option RadioRequest) : List ZigbeeStack.RadioResponse :=
  (ResponseTask.dispatch x.1 x.2).waiting

end Radio

def MacTask.responses {τ : Type} : MacTask τ → List RadioResponse
  | .processing _ (.arrival (.radio response)) => [response]
  | _ => []

namespace Stack
variable {τ : Type}

/-! To the radio. -/

def underway (w : Stack τ) : List RawRequest :=
  w.driver.port.map (·.raw) ++ (w.driver.requestTask.raws ++ w.request.toList.map (·.raw))

def requested (t : Step τ) : List RadioRequest :=
  match t.event with
  | .process _ => t.after.request.toList
  | _ => []

def arrived (t : Step τ) : List RawRequest :=
  match t.event with
  | .transmit true _ _ => (t.before.driver.port.map (·.raw)).take 1
  | _ => []

def loses (t : Step τ) : Bool :=
  match t.event with
  | .send false | .transmit false _ _ => true
  | _ => false

/-! To the MAC. -/

def unheard (w : Stack τ) : List RadioResponse :=
  w.mac.responses ++ ((if w.taken then [] else w.driver.responseTask.waiting) ++
    w.driver.incoming.flatMap Radio.responsesTo)

def sentBack (t : Step τ) : List RadioResponse :=
  match t.event with
  | .answer index good data =>
    match t.before.driver.received[index]? with
    | some carried =>
      Radio.responsesTo (⟨if good then .ok else .err, carried.message.requestId, data⟩,
        some carried.request)
    | none => []
  | .report message => Radio.responsesTo (message, none)
  | _ => []

def heardBy (t : Step τ) : List RadioResponse :=
  match t.event with
  | .process _ => t.before.mac.responses
  | _ => []

structure Turns (w : Stack τ) : Prop where
  request : ∀ mac input, w.mac = .processing mac input → w.request = none
  taken : w.taken = true → (∃ response request,
    w.driver.responseTask = .sendResponse response request) ∨
      ∃ packet, w.driver.responseTask = .sendPacket packet

theorem turns_start (pib : PIB) (radio : RadioState) : Turns (start pib radio : Stack τ) :=
  ⟨fun _ _ h => (by cases h), fun h => (by cases h)⟩

theorem waiting_of_offered {w : Stack τ} {response : RadioResponse}
    (h : w.offered = some response) : w.taken = false ∧
      w.driver.responseTask.waiting = [response] ∧
      ((∃ response request, w.driver.responseTask = .sendResponse response request) ∨
        ∃ packet, w.driver.responseTask = .sendPacket packet) := by
  unfold offered at h
  split at h
  · cases h
  · rename_i htaken
    refine ⟨by simpa using htaken, ?_⟩
    split at h
    · rename_i htask
      cases h
      rw [htask]
      exact ⟨rfl, .inl ⟨_, _, rfl⟩⟩
    · rename_i htask
      cases h
      rw [htask]
      exact ⟨rfl, .inr ⟨_, rfl⟩⟩
    · cases h

section Steps
variable [Sleep τ] {w w' : Stack τ} {e : Event} {o : Unit}

theorem takes_offered {visit : Visit} {upper : Poll (Option MainloopSend)} {task : MacTask τ}
    {o : Unit} (hvisit : visit.arrival = w.arrival upper)
    (hmac : w.mac.step (.poll visit) = some (task, o)) :
    (task.responses = [] ∧ task.heard = false) ∨
      ∃ response, task.responses = [response] ∧ task.heard = true ∧ w.offered = some response := by
  obtain ⟨mac, -, ⟨input, mac', hpoll, rfl⟩ | ⟨mac', -, rfl⟩ | ⟨panic, rfl⟩⟩ :=
    MacTask.step_poll hmac
  · match input, hpoll with
    | .arrival (.radio response), hpoll =>
      have harrival := MacData.pollNextInput_arrival hpoll
      exact .inr ⟨response, rfl, rfl, offered_of_arrival (hvisit ▸ harrival)⟩
    | .arrival (.mlmeRequest _), _ | .arrival (.mlmeResponse _), _
    | .arrival (.mcpsRequest _), _ | .management _, _ | .data _, _ => exact .inl ⟨rfl, rfl⟩
  · exact .inl ⟨rfl, rfl⟩
  · exact .inl ⟨rfl, rfl⟩

theorem Turns.step (ht : Turns w) (hs : w.step e = some (w', o)) : Turns w' := by
  cases moves hs with
  | poll hfree hmac =>
    refine ⟨fun _ _ _ => hfree, fun htaken => ?_⟩
    rcases takes_offered rfl hmac with ⟨-, hno⟩ | ⟨response, -, -, hoffered⟩
    · refine ht.taken ?_
      simpa [hno] using htaken
    · exact (waiting_of_offered hoffered).2.2
  | process hmac =>
    obtain ⟨mac, input, -, ⟨mac', -, rfl⟩ | ⟨panic, rfl⟩⟩ := MacTask.step_process hmac
    · exact ⟨fun _ _ h => (by cases h), ht.taken⟩
    · exact ⟨fun _ _ h => (by cases h), ht.taken⟩
  | request _ hd =>
    cases Radio.stepped hd
    exact ⟨fun _ _ _ => rfl, ht.taken⟩
  | register hd | send hd | answer hd | report hd =>
    cases Radio.stepped hd
    exact ⟨ht.request, ht.taken⟩
  | @transmit arrives _ _ _ _ _ _ _ hd =>
    cases Radio.stepped hd
    cases arrives <;> exact ⟨ht.request, ht.taken⟩
  | next hd =>
    cases Radio.stepped hd with
    | next htask _ =>
      refine ⟨ht.request, fun htaken => ?_⟩
      rcases ht.taken htaken with ⟨_, _, hsend⟩ | ⟨_, hsend⟩ <;> cases htask.symm.trans hsend
  | remove hd =>
    refine ⟨ht.request, fun htaken => ?_⟩
    cases Radio.stepped hd with
    | remove htask _ | removeUnasked htask _ => exact .inl ⟨_, _, rfl⟩
    | forget htask _ =>
      rcases ht.taken htaken with ⟨_, _, hsend⟩ | ⟨_, hsend⟩ <;> cases htask.symm.trans hsend
  | responded _ hd =>
    cases Radio.stepped hd <;> exact ⟨ht.request, fun h => (by cases h)⟩

/-- What gets to the radio and what is on its way to it was on its way before, or is asked for just
now, except for what the step loses. -/
theorem underway_step (ht : Turns w) (hs : w.step e = some (w', o)) :
    (arrived ⟨w, e, o, w'⟩ ++ underway w').Sublist
        (underway w ++ (requested ⟨w, e, o, w'⟩).map (·.raw)) ∧
      (arrived ⟨w, e, o, w'⟩).length + (underway w').length +
          (if loses ⟨w, e, o, w'⟩ then 1 else 0) =
        (underway w).length + (requested ⟨w, e, o, w'⟩).length := by
  -- in most steps all there is stays what it is
  have hsame (heq : arrived ⟨w, e, o, w'⟩ ++ underway w' =
      underway w ++ (requested ⟨w, e, o, w'⟩).map (·.raw)) (hl : loses ⟨w, e, o, w'⟩ = false) :
      (arrived ⟨w, e, o, w'⟩ ++ underway w').Sublist
          (underway w ++ (requested ⟨w, e, o, w'⟩).map (·.raw)) ∧
        (arrived ⟨w, e, o, w'⟩).length + (underway w').length +
            (if loses ⟨w, e, o, w'⟩ then 1 else 0) =
          (underway w).length + (requested ⟨w, e, o, w'⟩).length := by
    refine ⟨heq ▸ .refl _, ?_⟩
    have hlen := congrArg List.length heq
    simp only [List.length_append, List.length_map] at hlen
    simp [hl, hlen]
  cases moves hs with
  | poll _ _ => exact hsame (List.append_nil _).symm rfl
  | @process draws task _ hmac =>
    refine hsame ?_ rfl
    obtain ⟨mac, input, hprocessing, -⟩ := MacTask.step_process hmac
    simp [arrived, requested, underway, ht.request mac input hprocessing]
  | @request request _ _ hrequest hd =>
    cases Radio.stepped hd with
    | request htask =>
      refine hsame ?_ rfl
      simp [arrived, requested, underway, hrequest, htask, Radio.RequestTask.raws,
        RadioRequest.raw]
  | register hd =>
    cases Radio.stepped hd with
    | register htask _ _ =>
      refine hsame ?_ rfl
      simp [arrived, requested, underway, htask, Radio.RequestTask.raws, Radio.Carried.raw]
  | @send written _ _ hd =>
    cases Radio.stepped hd with
    | send htask =>
      cases written with
      | true =>
        refine hsame ?_ rfl
        simp [arrived, requested, underway, htask, Radio.RequestTask.raws]
      | false =>
        simp [arrived, requested, underway, htask, Radio.RequestTask.raws, loses, Nat.add_assoc]
  | @transmit arrives _ _ _ _ _ _ hport hd =>
    cases Radio.stepped hd with
    | transmit hport' =>
      cases hport'.symm.trans hport
      cases arrives with
      | true =>
        refine hsame ?_ rfl
        simp [arrived, requested, underway, hport, execute]
      | false => simp [arrived, requested, underway, hport, loses, Nat.add_right_comm]
  | answer hd | report hd | next hd | remove hd =>
    cases Radio.stepped hd <;> exact hsame (List.append_nil _).symm rfl
  | responded _ hd => cases Radio.stepped hd <;> exact hsame (List.append_nil _).symm rfl

/-- The answers and packets go through the driver one by one. -/
theorem unheard_step {past : Radio.Past} (hi : Radio.Inv past w.driver) (ht : Turns w)
    (hs : w.step e = some (w', o)) (halive : w'.mac.isPanicked = false) :
    heardBy ⟨w, e, o, w'⟩ ++ unheard w' = unheard w ++ sentBack ⟨w, e, o, w'⟩ := by
  cases moves hs with
  | poll _ hmac =>
    have hbefore : w.mac.responses = [] := by
      obtain ⟨mac, hpolling, -⟩ := MacTask.step_poll hmac
      rw [hpolling]
      rfl
    rcases takes_offered rfl hmac with ⟨hnone, hno⟩ | ⟨response, hsome, hyes, hoffered⟩
    · simp [heardBy, sentBack, unheard, hbefore, hnone, hno]
    · obtain ⟨htaken, hwaiting, -⟩ := waiting_of_offered hoffered
      simp [heardBy, sentBack, unheard, hbefore, hsome, hyes, htaken, hwaiting]
  | process hmac =>
    obtain ⟨mac, input, hprocessing, ⟨mac', -, rfl⟩ | ⟨panic, rfl⟩⟩ := MacTask.step_process hmac
    · simp [heardBy, sentBack, unheard, MacTask.responses]
    · cases halive
  | request _ hd | register hd | send hd =>
    cases Radio.stepped hd
    exact (List.append_nil _).symm
  | @transmit arrives _ _ _ _ _ _ _ hd =>
    cases Radio.stepped hd
    cases arrives <;> exact (List.append_nil _).symm
  | answer hd =>
    cases Radio.stepped hd with
    | answer hget => simp [heardBy, sentBack, unheard, hget]
  | report hd =>
    cases Radio.stepped hd
    simp [heardBy, sentBack, unheard]
  | next hd =>
    cases Radio.stepped hd with
    | next htask hin =>
      have htaken : w.taken = false := by
        by_contra htaken
        rcases ht.taken (by simpa using htaken) with ⟨_, _, hsend⟩ | ⟨_, hsend⟩ <;>
          cases htask.symm.trans hsend
      simp [heardBy, sentBack, unheard, htaken, htask, hin, Radio.ResponseTask.waiting,
        Radio.responsesTo]
  | remove hd =>
    cases Radio.stepped hd with
    | remove htask hget =>
      obtain ⟨r, hreq, -, hparser⟩ := hi.parser htask
      cases hreq
      cases hget.symm.trans hparser
      simp [heardBy, sentBack, unheard, htask, Radio.ResponseTask.waiting]
    | removeUnasked htask _ =>
      obtain ⟨r, hreq, -⟩ := hi.parser htask
      cases hreq
    | forget htask hget =>
      obtain ⟨r, -, -, hparser⟩ := hi.parser htask
      cases hget.symm.trans hparser
  | responded htaken hd =>
    have htaken : w.taken = true := by
      refine htaken.resolve_right fun hpanicked => ?_
      cases halive.symm.trans hpanicked
    cases Radio.stepped hd <;>
      simp [heardBy, sentBack, unheard, htaken, Radio.ResponseTask.waiting]

theorem alive_of_step (hs : w.step e = some (w', o)) (halive : w'.mac.isPanicked = false) :
    w.mac.isPanicked = false := by
  cases moves hs with
  | poll _ hmac =>
    obtain ⟨mac, hpolling, -⟩ := MacTask.step_poll hmac
    rw [hpolling]
    rfl
  | process hmac =>
    obtain ⟨mac, input, hprocessing, -⟩ := MacTask.step_process hmac
    rw [hprocessing]
    rfl
  | @transmit arrives _ _ _ _ _ _ _ _ => cases arrives <;> exact halive
  | request _ _ | responded _ _ => exact halive
  | register _ | send _ | answer _ | report _ | next _ | remove _ => exact halive

end Steps

section Runs
variable [Sleep τ] {pib : PIB} {radio : RadioState} {h : Past τ} {w : Stack τ}

theorem turns_of_run (hr : Run step Rely (start pib radio) h w) : Turns w :=
  hr.invariant (P := fun _ w => Turns w) (turns_start pib radio)
    fun _ _ _ _ _ _ ht _ hs => ht.step hs

/-- The line between the MAC and the radio keeps the order. What the radio has got and what is
still on its way are the messages of what the MAC asked for, in order and once, and those that are
missing are those that were lost. While the MAC is alive, it hears what the radio answers and
reports, in order and once, each answer as the response to the request that it is about. -/
theorem line_keeps_order (hr : Run step Rely (start pib radio) h w) :
    (flow arrived h ++ underway w).Sublist ((flow requested h).map (·.raw)) ∧
    (flow arrived h).length + (underway w).length + h.countP loses = (flow requested h).length ∧
    (w.mac.isPanicked = false → flow heardBy h ++ unheard w = flow sentBack h) := by
  refine ⟨?_, ?_, fun halive => ?_⟩
  · refine hr.invariant (P := fun h w =>
      (flow arrived h ++ underway w).Sublist ((flow requested h).map (·.raw))) (.refl _) ?_
    intro h w e w' o hrun hsub _ hs
    have hstep := (underway_step (turns_of_run hrun) hs).1
    rw [flow_cons, flow_cons, List.map_append, List.append_assoc]
    refine (hstep.append_left (flow arrived h)).trans ?_
    rw [← List.append_assoc]
    exact hsub.append_right _
  · refine hr.invariant (P := fun h w => (flow arrived h).length + (underway w).length +
      h.countP loses = (flow requested h).length) rfl ?_
    intro h w e w' o hrun hlen _ hs
    have hstep := (underway_step (turns_of_run hrun) hs).2
    simp only [flow_cons, List.length_append, List.countP_cons]
    omega
  · have hchannel := hr.channel unheard sentBack heardBy
      (fun _ _ _ _ hs halive => alive_of_step hs halive)
      (fun h w e w' o hrun hs halive => by
        obtain ⟨-, past, hdriver⟩ := sound_of_run hrun
        exact unheard_step (Radio.inv_of_run hdriver) (turns_of_run hrun) hs halive) halive
    simpa [unheard, start, MacTask.responses, Radio.ResponseTask.waiting, Radio.RadioService.new]
      using hchannel

end Runs

/-! The first message is lost on the line, the second arrives after a packet has come in. -/

def crossing : List Event :=
  [.poll 0 ⟨0⟩ [.channel] [[]] .pending, .process ⟨⟨0⟩, [], 0, 0⟩, .request, .register 7,
    .send true, .transmit false true ⟨fun _ => .u16 0, .empty⟩,
    .poll 0 ⟨1⟩ [.panId] [[]] .pending, .process ⟨⟨0⟩, [], 0, 0⟩, .request, .register 8,
    .send true, .report ⟨.onPacket, 0, [2, 0, 5, 1, 2]⟩,
    .transmit true true ⟨fun _ => .u16 0, .empty⟩, .next, .answer 0 true [0, 0],
    .poll 0 ⟨2⟩ [] [[]] .pending, .process ⟨⟨0⟩, [], 0, 0⟩, .request, .register 9,
    .poll 0 ⟨3⟩ [] [[]] .pending, .process ⟨⟨0⟩, [], 0, 0⟩]

def afterCrossing : Past SleepTimer × Stack SleepTimer :=
  replay step Rely (start (PIB.new ⟨1⟩ 11 0 0 0) ⟨fun _ => .u16 0, .empty⟩) crossing

theorem afterCrossing_run : Run step Rely
    (start (PIB.new ⟨1⟩ 11 0 0 0) ⟨fun _ => .u16 0, .empty⟩) afterCrossing.1 afterCrossing.2 :=
  run_replay crossing

theorem line_keeps_order_crossing :
    ([(.setValue, [0, 2, 255, 255]), (.initPendingTable, [])] : List RawRequest).Sublist
      [(.setValue, [0, 1, 0, 11]), (.setValue, [0, 2, 255, 255]), (.initPendingTable, [])] ∧
    afterCrossing.1.countP loses = 1 ∧
    flow sentBack afterCrossing.1 =
      [.onPacket ⟨[2, 0, 5], 1, 2⟩, .setParam ⟨1⟩ .panId true] := by
  obtain ⟨hsub, hlen, hback⟩ := line_keeps_order afterCrossing_run
  exact ⟨hsub, Nat.add_left_cancel hlen, (hback rfl).symm⟩

end Stack
end ZigbeeStack
