import ZigbeeStack.OldQueue

/-! Runs of the first MAC's queues: each destination is served as by a queue of its own, and every
timer is there that has to be. -/
namespace ZigbeeStack.OldSrc
open Runs

namespace Queue

inductive Call where
  | enqueue (frame : Frame) (receiverOnWhenIdle : Bool) (callback : Nat)
  | onAck (sequenceNr : UInt8) (order : List AddressSpecification)
  | onSendResult (destination : AddressSpecification) (success : Bool)
  | onDataRequest (destination : AddressSpecification)
  | pollNext (cx : Waker) (due : List Nat)
deriving DecidableEq, Repr

structure Answer where
  resolutions : List Resolution
  pending : Option Bool
  event : Option (Poll QueueEvent)
deriving DecidableEq, Repr

def perform (s : Queue) : Call → Except Panic (Queue × Answer)
  | .enqueue frame receiverOnWhenIdle callback => do
    let (s, resolution) ← s.enqueue frame receiverOnWhenIdle callback
    return (s, ⟨resolution.toList, none, none⟩)
  | .onAck sequenceNr order => do
    let (s, resolutions) ← s.onAck sequenceNr order
    return (s, ⟨resolutions, none, none⟩)
  | .onSendResult destination success => do
    let (s, resolution) ← s.onSendResult destination success
    return (s, ⟨resolution.toList, none, none⟩)
  | .onDataRequest destination => do
    let (pending, s) ← s.onDataRequest destination
    return (s, ⟨[], some pending, none⟩)
  | .pollNext cx due => do
    let ((event, s), resolutions) ← s.pollNext cx due
    return (s, ⟨resolutions, none, some event⟩)

abbrev Past := History Queue Call Answer
abbrev Step := Transition Queue Call Answer

def step (s : Queue) (c : Call) : Option (Queue × Answer) := (s.perform c).toOption

def InOrder (_ : Past) (s : Queue) : Call → Prop
  | .onAck _ order => HashMap.Enumerates order s.queues
  | _ => True

instance (h : Past) (s : Queue) (c : Call) : Decidable (InOrder h s c) :=
  match c with
  | .onAck _ order => inferInstanceAs (Decidable (HashMap.Enumerates order s.queues))
  | .enqueue _ _ _ | .onSendResult _ _ | .onDataRequest _ | .pollNext _ _ => .isTrue trivial

/-! What belongs to one destination. -/

def calls (d : AddressSpecification) : Call → List DeviceQueueEvent
  | .enqueue frame receiverOnWhenIdle callback =>
    if frame.destination = d then
      [.enqueue (.new frame receiverOnWhenIdle (some maxWait) 5 callback)]
    else []
  | .onAck sequenceNr _ => [.ack sequenceNr]
  | .onSendResult destination success => if destination = d then [.sendResult success] else []
  | .onDataRequest destination => if destination = d then [.dataRequest] else []
  | .pollNext _ _ => []

def resolvedFor (d : AddressSpecification) (resolutions : List Resolution) : List Resolution :=
  resolutions.filter fun r => r.item.frame.destination = d

def framesFor (d : AddressSpecification) (outgoing : List (AddressSpecification × Frame)) :
    List Frame :=
  outgoing.filterMap fun p => if p.1 = d then some p.2 else none

def Answer.delivered (a : Answer) : List (AddressSpecification × Frame) :=
  match a.event with
  | some (.ready (.outgoingFrame destination frame)) => [(destination, frame)]
  | _ => []

def asked (t : Transition DeviceQueue DeviceQueueEvent DeviceQueue.Report) :
    List DeviceQueueEvent :=
  if t.event = .timer then [] else [t.event]

def Projects (s s' : Queue) (es : AddressSpecification → List DeviceQueueEvent)
    (resolutions : List Resolution) (frames : List (AddressSpecification × Frame)) : Prop :=
  ∀ d, ∃ h, Run DeviceQueue.step DeviceQueue.TimerRuns (s.device d) h (s'.device d) ∧
    flow asked h = es d ∧ flow DeviceQueue.resolved h = resolvedFor d resolutions ∧
    flow DeviceQueue.started h = framesFor d frames

theorem timerRuns_any (h h' : DeviceQueue.Past) (q : DeviceQueue) (e : DeviceQueueEvent)
    (hr : DeviceQueue.TimerRuns h q e) : DeviceQueue.TimerRuns h' q e := hr

theorem Projects.trans {s s₁ s₂ : Queue} {es es' : AddressSpecification → List DeviceQueueEvent}
    {rs rs' : List Resolution} {fs fs' : List (AddressSpecification × Frame)}
    (h : s.Projects s₁ es rs fs) (h' : s₁.Projects s₂ es' rs' fs') :
    s.Projects s₂ (fun d => es d ++ es' d) (rs ++ rs') (fs ++ fs') := by
  intro d
  obtain ⟨p, hrun, hasked, hresolved, hstarted⟩ := h d
  obtain ⟨p', hrun', hasked', hresolved', hstarted'⟩ := h' d
  refine ⟨p' ++ p, hrun.append timerRuns_any hrun', ?_, ?_, ?_⟩
  · rw [flow_append, hasked, hasked']
  · rw [flow_append, hresolved, hresolved', resolvedFor, resolvedFor, resolvedFor,
      List.filter_append]
  · rw [flow_append, hstarted, hstarted', framesFor, framesFor, framesFor, List.filterMap_append]

theorem Projects.refl {s s' : Queue} (h : ∀ d, s'.device d = s.device d) :
    s.Projects s' (fun _ => []) [] [] := by
  intro d
  rw [h]
  exact ⟨[], .start, rfl, rfl, rfl⟩

theorem framesFor_map (d d' : AddressSpecification) (frames : List Frame) :
    framesFor d (frames.map (d', ·)) = if d' = d then frames else [] := by
  unfold framesFor
  rw [List.filterMap_map]
  split
  case isTrue h => simp [h]
  case isFalse h => simp [h]

theorem resolvedFor_toList (d : AddressSpecification) {d' : AddressSpecification}
    {resolution : Option Resolution}
    (h : ∀ r ∈ resolution, r.item.frame.destination = d') :
    resolvedFor d resolution.toList = if d' = d then resolution.toList else [] := by
  cases resolution with
  | none => simp [resolvedFor]
  | some r =>
    have hr : r.item.frame.destination = d' := h r rfl
    simp only [resolvedFor, Option.toList_some, List.filter_cons, List.filter_nil, hr,
      decide_eq_true_eq]

theorem Tidy.resolves {s : Queue} (h : s.Tidy) {d : AddressSpecification} {e : DeviceQueueEvent}
    (he : ∀ item ∈ DeviceQueue.enqueued e, Placed d item) :
    ∀ r ∈ ((s.device d).on e).2, r.item.frame.destination = d := by
  have hplaced : ∀ item ∈ (s.device d).items ++ DeviceQueue.enqueued e, Placed d item := by
    intro item hitem
    obtain hitem | hitem := List.mem_append.mp hitem
    · exact h.placed d item hitem
    · exact he item hitem
  exact fun r hr => ((((s.device d).moves e).kept placed_retries hplaced).2 r hr).2

theorem Handles.projects {s s' : Queue} {d : AddressSpecification} {e : DeviceQueueEvent}
    (h : s.Handles d e s') (ht : s.Tidy) (he : ∀ item ∈ DeviceQueue.enqueued e, Placed d item)
    (htimer : e = .timer → (s.device d).timer.isSome) :
    s.Projects s' (fun d' => if d = d' ∧ e ≠ .timer then [e] else [])
      ((s.device d).on e).2.toList
      ((DeviceQueue.sends ((s.device d).on e).1.2).map (d, ·)) := by
  intro d'
  rw [resolvedFor_toList d' (ht.resolves he), framesFor_map, h.device]
  by_cases hd : d = d'
  · subst hd
    simp only [if_true, true_and]
    refine ⟨[⟨s.device d, e, _, _⟩], .next .start htimer rfl, ?_, rfl, rfl⟩
    rw [flow_cons, flow_nil, List.nil_append, asked]
    by_cases hk : e = .timer
    · simp [hk]
    · simp [hk]
  · have hd' : d' ≠ d := Ne.symm hd
    simp only [hd, hd', false_and, if_false]
    exact ⟨[], .start, rfl, rfl, rfl⟩

theorem Fires.projects {s s' : Queue} {fired : List AddressSpecification}
    {resolutions : List Resolution} (h : Fires s fired resolutions s') (hs : s.Sound) :
    s'.Sound ∧ s.Tells s' ∧ ∃ frames, s'.outgoing = s.outgoing ++ frames ∧
      s.Projects s' (fun _ => []) resolutions frames := by
  induction h with
  | done h => exact ⟨h.sound, .inr ⟨h.waker, h.outgoing⟩, [], by simp [h.outgoing], .refl h.device⟩
  | @fires s s₁ s₂ d fired resolutions htimer h hrest ih =>
    obtain ⟨hsound, htells, frames, houtgoing, hprojects⟩ := ih h.sound
    have hfirst := h.projects hs.1 (by simp [DeviceQueue.enqueued]) fun _ => htimer
    refine ⟨hsound, (tells_of h.outgoing h.waker).trans htells,
      (DeviceQueue.sends ((s.device d).on .timer).1.2).map (d, ·) ++ frames, ?_, ?_⟩
    · rw [houtgoing, h.outgoing, List.append_assoc]
    · have htrans := hfirst.trans hprojects
      simpa using htrans

theorem flatMap_one {κ β : Type} [DecidableEq κ] {order : List κ} (hn : order.Nodup) (k : κ)
    {f : κ → List β} (hf : ∀ k' ≠ k, f k' = []) :
    order.flatMap f = if k ∈ order then f k else [] := by
  induction order with
  | nil => rfl
  | cons a order ih =>
    rw [List.nodup_cons] at hn
    rw [List.flatMap_cons, ih hn.2]
    by_cases hk : a = k
    · subst hk
      simp [hn.1]
    · simp [hf a hk, Ne.symm hk]

theorem HandlesAck.projects {s s' : Queue} {n : UInt8} {order : List AddressSpecification}
    (h : s.HandlesAck n order s') (ht : s.Tidy) (horder : HashMap.Enumerates order s.queues) :
    s.Projects s' (fun _ => [.ack n]) (order.filterMap fun d => ((s.device d).on (.ack n)).2)
      (order.flatMap fun d => (DeviceQueue.sends ((s.device d).on (.ack n)).1.2).map (d, ·)) := by
  intro d
  have hnodup := HashMap.order_nodup horder
  rw [h.device]
  refine ⟨[⟨s.device d, .ack n, _, _⟩], .next .start (by rintro ⟨⟩) rfl, rfl, ?_, ?_⟩
  · change ((s.device d).on (.ack n)).2.toList = _
    rw [resolvedFor, List.filterMap_eq_flatMap_toList, List.filter_flatMap]
    rw [flatMap_one hnodup d fun d' hd => ?_]
    · by_cases hd : d ∈ order
      · rw [if_pos hd]
        have hown := resolvedFor_toList d
          (ht.resolves (d := d) (e := .ack n) (by simp [DeviceQueue.enqueued]))
        rw [if_pos rfl] at hown
        exact hown.symm
      · rw [if_neg hd, device_of_notMem horder hd]
        rfl
    · have hother := resolvedFor_toList d
        (ht.resolves (d := d') (e := .ack n) (by simp [DeviceQueue.enqueued]))
      rw [if_neg hd] at hother
      exact hother
  · change DeviceQueue.sends ((s.device d).on (.ack n)).1.2 = _
    rw [framesFor, List.filterMap_flatMap]
    rw [flatMap_one hnodup d fun d' hd => ?_]
    · by_cases hd : d ∈ order
      · rw [if_pos hd]
        have hown := framesFor_map d d (DeviceQueue.sends ((s.device d).on (.ack n)).1.2)
        rw [if_pos rfl] at hown
        exact hown.symm
      · rw [if_neg hd, device_of_notMem horder hd]
        rfl
    · have hother := framesFor_map d d' (DeviceQueue.sends ((s.device d').on (.ack n)).1.2)
      rw [if_neg hd] at hother
      exact hother

/-! Only what is called for has a queue or is flushed. -/

def touched : Call → List AddressSpecification
  | .enqueue frame _ _ => [frame.destination]
  | .onAck _ _ => []
  | .onSendResult destination _ => [destination]
  | .onDataRequest destination => [destination]
  | .pollNext _ _ => []

def Within (L : AddressSpecification → Prop) (s : Queue) : Prop :=
  (∀ d ∈ s.flushed, L d) ∧ ∀ d, s.device d ≠ .idle → L d

section Within
variable {L : AddressSpecification → Prop} {s s' : Queue}

theorem Handles.within {d : AddressSpecification} {e : DeviceQueueEvent} (h : s.Handles d e s')
    (hd : L d) (hw : Within L s) : Within L s' := by
  constructor
  · intro d' hmem
    rw [h.flushed] at hmem
    obtain hmem | hmem := List.mem_append.mp hmem
    · exact hw.1 d' hmem
    · split at hmem
      · rw [List.mem_singleton.mp hmem]
        exact hd
      · cases hmem
  · intro d' hbusy
    rw [h.device] at hbusy
    split_ifs at hbusy with heq
    · exact heq ▸ hd
    · exact hw.2 d' hbusy

theorem HandlesAck.within {n : UInt8} {order : List AddressSpecification}
    (h : s.HandlesAck n order s') (hw : Within L s) : Within L s' := by
  refine ⟨h.flushed ▸ hw.1, fun d hbusy => hw.2 d fun hidle => ?_⟩
  rw [h.device, hidle] at hbusy
  exact hbusy rfl

theorem Fires.within {fired : List AddressSpecification} {resolutions : List Resolution}
    (h : Fires s fired resolutions s') (hw : Within L s) : Within L s' := by
  induction h with
  | done h => exact ⟨h.flushed ▸ hw.1, fun d hbusy => hw.2 d (h.device d ▸ hbusy)⟩
  | @fires s s₁ s₂ d fired resolutions htimer h hrest ih =>
    refine ih (h.within (hw.2 d fun hidle => ?_) hw)
    rw [hidle] at htimer
    cases htimer

theorem Within.nextEvent (hw : Within L s) : Within L s.nextEvent.2 ∧
    ∀ d, s.nextEvent.1 = .ready (.queueFlushed d) → L d ∧ s.nextEvent.2.device d = .idle := by
  obtain ⟨d, frame, outgoing, -, hnext⟩ | ⟨-, skipped, d, flushed, hflushed, -, hgone, hnext⟩ |
    ⟨-, -, hnext⟩ := s.nextEvent_cases
  · rw [hnext]
    exact ⟨hw, fun d' heq => by cases heq⟩
  · rw [hnext]
    refine ⟨⟨fun d' hmem => hw.1 d' ?_, hw.2⟩, fun d' heq => ?_⟩
    · rw [hflushed]
      exact List.mem_append_right _ (List.mem_cons_of_mem _ hmem)
    · cases heq
      refine ⟨hw.1 d (by rw [hflushed]; simp), ?_⟩
      change (HashMap.get s.queues d).getD .idle = _
      rw [hgone]
      rfl
  · rw [hnext]
    exact ⟨⟨fun d' hmem => absurd hmem List.not_mem_nil, hw.2⟩, fun d' heq => by cases heq⟩

end Within

/-! Who has nothing left is reported, but not after an acknowledgement. -/

def Unsettled (s : Queue) (d : AddressSpecification) : Prop :=
  s.device d ≠ .idle ∨ d ∈ s.flushed

section Unsettled
variable {s s' : Queue}

theorem Handles.unsettled {d : AddressSpecification} {e : DeviceQueueEvent}
    (h : s.Handles d e s') : s'.Unsettled d ∧ ∀ d', s.Unsettled d' → s'.Unsettled d' := by
  have hown : s'.Unsettled d := by
    by_cases hidle : s'.device d = .idle
    · right
      rw [h.device, if_pos rfl] at hidle
      rw [h.flushed, hidle]
      exact List.mem_append_right _ (List.mem_singleton.mpr rfl)
    · exact .inl hidle
  refine ⟨hown, fun d' hbefore => ?_⟩
  by_cases hd : d' = d
  · rw [hd]
    exact hown
  · obtain hbusy | hmem := hbefore
    · left
      rw [h.device, if_neg hd]
      exact hbusy
    · right
      rw [h.flushed]
      exact List.mem_append_left _ hmem

theorem HandlesAck.unsettled {n : UInt8} {order : List AddressSpecification}
    (h : s.HandlesAck n order s') {d : AddressSpecification} (hd : s.Unsettled d) :
    s'.Unsettled d ∨ s.device d ≠ .idle ∧ s'.device d = .idle := by
  obtain hbusy | hmem := hd
  · by_cases hidle : s'.device d = .idle
    · exact .inr ⟨hbusy, hidle⟩
    · exact .inl (.inl hidle)
  · exact .inl (.inr (h.flushed ▸ hmem))

theorem Fires.unsettled {fired : List AddressSpecification} {resolutions : List Resolution}
    (h : Fires s fired resolutions s') {d : AddressSpecification} (hd : s.Unsettled d) :
    s'.Unsettled d := by
  induction h with
  | done h =>
    rw [Unsettled, h.device, h.flushed]
    exact hd
  | fires htimer h hrest ih => exact ih (h.unsettled.2 d hd)

theorem Unsettled.nextEvent (ht : s.Tidy) {d : AddressSpecification} (hd : s.Unsettled d) :
    s.nextEvent.2.Unsettled d ∨ s.nextEvent.1 = .ready (.queueFlushed d) := by
  have hbusy {d' : AddressSpecification} (hq : (HashMap.get s.queues d').isSome) :
      s.device d' ≠ .idle := by
    obtain ⟨q, hq⟩ := Option.isSome_iff_exists.mp hq
    rw [device, hq]
    exact ht.busy d' q hq
  obtain ⟨d', frame, outgoing, -, hnext⟩ |
    ⟨-, skipped, d', flushed, hflushed, hskipped, -, hnext⟩ | ⟨-, hskipped, hnext⟩ :=
      s.nextEvent_cases
  · rw [hnext]
    exact .inl hd
  · rw [hnext]
    obtain hd | hmem := hd
    · exact .inl (.inl hd)
    · rw [hflushed] at hmem
      obtain hmem | hmem := List.mem_append.mp hmem
      · exact .inl (.inl (hbusy (hskipped d hmem)))
      · obtain rfl | hmem := List.mem_cons.mp hmem
        · exact .inr rfl
        · exact .inl (.inr hmem)
  · rw [hnext]
    obtain hd | hmem := hd
    · exact .inl (.inl hd)
    · exact .inl (.inl (hbusy (hskipped d hmem)))

end Unsettled

structure Performs (s : Queue) (c : Call) (a : Answer) (s' : Queue) : Prop where
  sound : s'.Sound
  within : ∀ L, (∀ d ∈ touched c, L d) → Within L s → Within L s' ∧
    ∀ d, a.event = some (.ready (.queueFlushed d)) → L d ∧ s'.device d = .idle
  tells : (∀ cx due, c ≠ .pollNext cx due) → s.Tells s'
  parks : ∀ cx due, c = .pollNext cx due → a.event = some .pending →
    s'.outgoing = [] ∧ s'.streamWaker.storage = some cx
  leaves : ∀ d ∈ touched c, s'.Unsettled d
  settles : ∀ d, s.Unsettled d → s'.Unsettled d ∨ a.event = some (.ready (.queueFlushed d)) ∨
    (∃ n order, c = .onAck n order) ∧ s.device d ≠ .idle ∧ s'.device d = .idle
  projects : ∃ frames, s.outgoing ++ frames = a.delivered ++ s'.outgoing ∧
    s.Projects s' (calls · c) a.resolutions frames

theorem Handles.performs {s s' : Queue} {d : AddressSpecification} {e : DeviceQueueEvent}
    (h : s.Handles d e s') (ht : s.Tidy) (he : ∀ item ∈ DeviceQueue.enqueued e, Placed d item)
    (htimer : e ≠ .timer) {c : Call} (hc : ∀ d', calls d' c = if d = d' then [e] else [])
    (hd : touched c = [d]) (pending : Option Bool) (hpoll : ∀ cx due, c ≠ .pollNext cx due) :
    s.Performs c ⟨((s.device d).on e).2.toList, pending, none⟩ s' := by
  refine ⟨h.sound, fun L hL hw => ⟨h.within (hL d (by simp [hd])) hw, fun d' heq => by cases heq⟩,
    fun _ => tells_of h.outgoing h.waker, fun cx due heq => absurd heq (hpoll cx due),
    fun d' hd' => ?_, fun d' hbefore => .inl (h.unsettled.2 d' hbefore), _, h.outgoing.symm, ?_⟩
  · rw [hd] at hd'
    rw [List.mem_singleton.mp hd']
    exact h.unsettled.1
  have hprojects := h.projects ht he fun heq => absurd heq htimer
  simpa only [hc, htimer, ne_eq, not_false_eq_true, and_true] using hprojects

theorem Sound.nextEvent {s : Queue} (h : s.Sound) : s.nextEvent.2.Sound ∧
    (∀ d, s.nextEvent.2.device d = s.device d) ∧
    (∀ resolutions, s.outgoing =
      (Answer.mk resolutions none (some s.nextEvent.1)).delivered ++ s.nextEvent.2.outgoing) ∧
    s.nextEvent.2.streamWaker = s.streamWaker ∧ (s.nextEvent.1 = .pending → s.outgoing = []) := by
  obtain ⟨d, frame, outgoing, hout, hnext⟩ | ⟨hout, skipped, d, flushed, -, -, -, hnext⟩ |
    ⟨hout, -, hnext⟩ := s.nextEvent_cases
  · rw [hnext]
    exact ⟨⟨⟨h.1.busy, h.1.placed⟩, h.2.congr rfl rfl⟩, fun _ => rfl, fun _ => hout, rfl,
      fun heq => by cases heq⟩
  · rw [hnext]
    exact ⟨⟨⟨h.1.busy, h.1.placed⟩, h.2.congr rfl rfl⟩, fun _ => rfl, fun _ => rfl, rfl,
      fun _ => hout⟩
  · rw [hnext]
    exact ⟨⟨⟨h.1.busy, h.1.placed⟩, h.2.congr rfl rfl⟩, fun _ => rfl, fun _ => rfl, rfl,
      fun _ => hout⟩

theorem pollNext_performs {s : Queue} (h : s.Sound) (cx : Waker) (due : List Nat) :
    ∃ s' a, s.perform (.pollNext cx due) = .ok (s', a) ∧ s.Performs (.pollNext cx due) a s' := by
  have hset : Queue.Sound { s with streamWaker := s.streamWaker.register cx } :=
    ⟨⟨h.1.busy, h.1.placed⟩, h.2.congr rfl rfl⟩
  obtain ⟨s₁, fired, resolutions, htimers, hfires⟩ := handleTimers_spec hset cx due
  obtain ⟨hsound, htells, frames, hframes, hprojects⟩ := hfires.projects hset
  obtain ⟨hsound', hdevice, hdelivered, hwaker, hpending⟩ := hsound.nextEvent
  refine ⟨s₁.nextEvent.2, ⟨resolutions, none, some s₁.nextEvent.1⟩, ?_, hsound',
    fun L _ hw => ?_, fun hpoll => absurd rfl (hpoll cx due), fun cx' due' heq hnone => ?_,
    fun d hd => absurd hd List.not_mem_nil, fun d hd => ?_, frames, ?_, ?_⟩
  · change (Queue.pollNext s cx due >>= _) = _
    rw [Queue.pollNext, htimers]
    rfl
  · obtain ⟨hwithin, hflushed⟩ := (hfires.within hw).nextEvent
    exact ⟨hwithin, fun d heq => hflushed d (Option.some.inj heq)⟩
  · -- no frame came with a timer either, so nobody was told
    cases heq
    have hempty := hpending (Option.some.inj hnone)
    obtain ⟨-, hframe⟩ | ⟨hsame, -⟩ := htells
    · exact absurd hempty hframe
    · refine ⟨?_, by rw [hwaker, hsame]; rfl⟩
      have hsplit := hdelivered resolutions
      rw [hempty] at hsplit
      exact (List.append_eq_nil_iff.mp hsplit.symm).2
  · obtain hafter | hevent := (hfires.unsettled hd).nextEvent hsound.1
    · exact .inl hafter
    · exact .inr (.inl (congrArg some hevent))
  · exact hframes.symm.trans (hdelivered resolutions)
  · intro d
    obtain ⟨p, hrun, hrest⟩ := hprojects d
    rw [← hdevice] at hrun
    exact ⟨p, hrun, hrest⟩

theorem perform_spec {s : Queue} (h : s.Sound) {c : Call} (hc : InOrder [] s c) :
    ∃ s' a, s.perform c = .ok (s', a) ∧ s.Performs c a s' := by
  cases c with
  | enqueue frame receiverOnWhenIdle callback =>
    have he : ∀ item ∈ DeviceQueue.enqueued (.enqueue
        (.new frame receiverOnWhenIdle (some maxWait) 5 callback)),
        Placed frame.destination item := by
      intro item hitem
      obtain rfl := List.mem_singleton.mp hitem
      exact ⟨rfl, rfl⟩
    obtain ⟨s', hupdate, hhandles⟩ := h.update (by simp) he
    refine ⟨s', _, ?_, hhandles.performs h.1 he (by simp) (fun _ => rfl)
      rfl none (by simp)⟩
    change (updateAndHandleAction s frame.destination (·.on (.enqueue _)) >>= _) = _
    rw [hupdate]
    rfl
  | onAck n order =>
    obtain ⟨s', hack, hhandles⟩ := onAck_spec h n hc
    refine ⟨s', ⟨_, none, none⟩, ?_, hhandles.sound,
      fun L _ hw => ⟨hhandles.within hw, fun d heq => by cases heq⟩, fun _ => hhandles.tells,
      fun cx due heq => by (cases heq), fun d hd => absurd hd List.not_mem_nil, fun d hd => ?_, _,
      hhandles.outgoing.symm, hhandles.projects h.1 hc⟩
    · change (s.onAck n order >>= _) = _
      rw [hack]
      rfl
    · obtain hafter | hemptied := hhandles.unsettled hd
      · exact .inl hafter
      · exact .inr (.inr ⟨⟨n, order, rfl⟩, hemptied⟩)
  | onSendResult d success =>
    have he : ∀ item ∈ DeviceQueue.enqueued (.sendResult success), Placed d item := by
      simp [DeviceQueue.enqueued]
    obtain ⟨s', hupdate, hhandles⟩ := h.update (by simp) he
    refine ⟨s', _, ?_, hhandles.performs h.1 he (by simp) (fun _ => rfl)
      rfl none (by simp)⟩
    change (updateAndHandleAction s d (·.on (.sendResult success)) >>= _) = _
    rw [hupdate]
    rfl
  | onDataRequest d =>
    have he : ∀ item ∈ DeviceQueue.enqueued .dataRequest, Placed d item := by
      simp [DeviceQueue.enqueued]
    obtain ⟨s', hupdate, hhandles⟩ := h.update (by simp) he
    let pending := ((HashMap.get s'.queues d).map fun state => !state.isIdle).getD false
    refine ⟨s', _, ?_, hhandles.performs h.1 he (by simp) (fun _ => rfl)
      rfl (some pending) (by simp)⟩
    change (s.onDataRequest d >>= _) = _
    rw [onDataRequest]
    change ((updateAndHandleAction s d (·.on .dataRequest) >>= _) >>= _) = _
    rw [hupdate]
    rfl
  | pollNext cx due => exact pollNext_performs h cx due

/-! Runs. -/

theorem sound_new : Queue.new.Sound := by
  refine ⟨⟨fun d q h => ?_, fun d item h => ?_⟩, fun _ => none, fun d => rfl, ?_⟩
  · cases h
  · cases h
  · exact Keeps.empty

theorem performs_of_step {h : Past} {s s' : Queue} {c : Call} {a : Answer} (hs : s.Sound)
    (hc : InOrder h s c) (hstep : step s c = some (s', a)) : s.Performs c a s' := by
  obtain ⟨s₁, a₁, hperform, hperforms⟩ := perform_spec hs hc
  rw [step, hperform] at hstep
  cases hstep
  exact hperforms

theorem run_sound {h : Past} {s : Queue} (hr : Run step InOrder new h s) : s.Sound := by
  refine hr.invariant (P := fun _ s => s.Sound) sound_new ?_
  exact fun h s c s' a _ hs hc hstep => (performs_of_step hs hc hstep).sound

theorem framesFor_append (d : AddressSpecification)
    (frames frames' : List (AddressSpecification × Frame)) :
    framesFor d (frames ++ frames') = framesFor d frames ++ framesFor d frames' :=
  List.filterMap_append

/-- A run of the queues is for each destination a run of one device queue. The frames that one
starts are those that are handed over and those that wait to be. -/
theorem refines_devices {h : Past} {s : Queue} (hr : Run step InOrder new h s)
    (d : AddressSpecification) :
    ∃ p, Run DeviceQueue.step DeviceQueue.TimerRuns .idle p (s.device d) ∧
      flow asked p = flow (fun t => calls d t.event) h ∧
      flow DeviceQueue.resolved p = flow (fun t => resolvedFor d t.output.resolutions) h ∧
      flow DeviceQueue.started p =
        flow (fun t => framesFor d t.output.delivered) h ++ framesFor d s.outgoing := by
  induction hr with
  | start => exact ⟨[], .start, rfl, rfl, rfl⟩
  | @next h s s' c a hrun hc hstep ih =>
    obtain ⟨p, hdevice, hasked, hresolved, hstarted⟩ := ih
    obtain ⟨frames, hframes, hprojects⟩ := (performs_of_step (run_sound hrun) hc hstep).projects
    obtain ⟨p', hdevice', hasked', hresolved', hstarted'⟩ := hprojects d
    refine ⟨p' ++ p, hdevice.append timerRuns_any hdevice', ?_, ?_, ?_⟩
    · rw [flow_append, hasked, hasked', flow_cons]
    · rw [flow_append, hresolved, hresolved', flow_cons]
    · have hsplit := congrArg (framesFor d) hframes
      rw [framesFor_append, framesFor_append] at hsplit
      rw [flow_append, hstarted, hstarted', flow_cons, List.append_assoc, List.append_assoc, hsplit]

theorem flatMap_asked {β : Type} {f : DeviceQueueEvent → List β} (htimer : f .timer = [])
    (p : DeviceQueue.Past) : (flow asked p).flatMap f = flow (fun t => f t.event) p := by
  rw [flatMap_flow]
  congr 1
  funext t
  unfold asked
  split
  case isTrue h => rw [h, htimer]; rfl
  case isFalse => simp

theorem Performs.items {s s' : Queue} {c : Call} {a : Answer} (h : s.Performs c a s')
    {P : DeviceQueueItem → Prop} (hretries : ∀ item n, P item → P { item with retries := n })
    {d : AddressSpecification} (hs : ∀ item ∈ (s.device d).items, P item)
    (hc : ∀ item ∈ (calls d c).flatMap DeviceQueue.enqueued, P item) :
    ∀ item ∈ (s'.device d).items, P item := by
  obtain ⟨frames, -, hprojects⟩ := h.projects
  obtain ⟨p, hrun, hasked, -, -⟩ := hprojects d
  change flow asked p = calls d c at hasked
  refine DeviceQueue.run_kept hretries hrun hs fun item hi => hc item ?_
  rw [← hasked, flatMap_asked rfl]
  exact hi

theorem Tidy.timer_iff {s : Queue} (h : s.Tidy) (d : AddressSpecification) :
    (s.device d).timer.isSome ↔ s.device d ≠ .idle ∧ (s.device d).sending = false := by
  have hplaced := h.placed d
  cases hq : s.device d with
  | idle => simp [DeviceQueue.timer]
  | waitingForDataRequest front queue =>
    rw [hq] at hplaced
    have hfront := (hplaced front List.mem_cons_self).1
    simpa [DeviceQueue.Patient, DeviceQueue.timer, DeviceQueue.sending] using hfront
  | sendStarted front queue waitForAck => simp [DeviceQueue.timer, DeviceQueue.sending]
  | waitingForAck front queue waitForAck => simp [DeviceQueue.timer, DeviceQueue.sending]

def handed (d : AddressSpecification) (t : Step) : List Frame := framesFor d t.output.delivered

def reported (d : AddressSpecification) (t : Step) : List Bool :=
  (calls d t.event).flatMap DeviceQueue.answers

/- A result is that of a frame which was handed over and has had none. -/
def Reported (h : Past) (s : Queue) : Call → Prop
  | .onSendResult d _ => (flow (reported d) h).length < (flow (handed d) h).length
  | c => InOrder h s c

theorem Reported.inOrder {h : Past} {s : Queue} {c : Call} (hc : Reported h s c) :
    InOrder h s c := by
  cases c with
  | onSendResult d success => trivial
  | _ => exact hc

theorem run_inOrder {h : Past} {s : Queue} (hr : Run step Reported new h s) :
    Run step InOrder new h s := by
  induction hr with
  | start => exact .start
  | next _ hc hstep ih => exact .next ih hc.inOrder hstep

instance (h : Past) (s : Queue) (c : Call) : Decidable (Reported h s c) :=
  match c with
  | .onSendResult d _ =>
    inferInstanceAs (Decidable ((flow (reported d) h).length < (flow (handed d) h).length))
  | .onAck n order => inferInstanceAs (Decidable (InOrder h s (.onAck n order)))
  | .enqueue _ _ _ | .onDataRequest _ | .pollNext _ _ => .isTrue trivial

/- Of two frames one is asked for, sent and acknowledged; the other waits until its time is up. -/
def sleeper : AddressSpecification := .short ⟨0x1234⟩ ⟨5⟩

def frameTo (destination : AddressSpecification) (sequenceNr : UInt8) : Frame :=
  ⟨false, true, some sequenceNr, destination, .none, .data, []⟩

def exchanged : List Call :=
  [.enqueue (frameTo sleeper 1) false 0, .enqueue (frameTo sleeper 2) false 1,
    .onDataRequest sleeper, .pollNext 0 [], .onSendResult sleeper true, .onAck 1 [sleeper],
    .pollNext 0 [1]]

def exchangedUntil (n : Nat) : Past × Queue := replay step Reported new (exchanged.take n)

/-- In every run the timers that run are those the queues need, and none of their keys is dead: a
call never fails, and no destination that has something to send waits for nothing. -/
theorem timers_match_devices {h : Past} {s : Queue} (hr : Run step InOrder new h s) :
    (∀ key d duration, HashMap.get s.timers.inner.entries key = some (d, duration) ↔
      HashMap.get s.runningTimers d = some (some key) ∧ (s.device d).timer = some duration) ∧
    (∀ d, (HashMap.get s.runningTimers d).isSome ↔
      s.device d ≠ .idle ∧ (s.device d).sending = false) ∧
    ∀ c, InOrder h s c → (step s c).isSome := by
  have hsound := run_sound hr
  obtain ⟨kept, hkeys, hkeeps⟩ := hsound.2
  refine ⟨fun key d duration => ?_, fun d => ?_, fun c hc => ?_⟩
  · refine (hkeeps.entry_iff d key duration).trans ?_
    rw [hkeys]
    simp
  · rw [← hsound.1.timer_iff, hkeeps.clock_iff, hkeys, Option.isSome_map]
  · obtain ⟨s', a, hperform, -⟩ := perform_spec hsound hc
    rw [step, hperform]
    rfl

theorem timers_match_devices_exchanged :
    HashMap.get (exchangedUntil 6).2.runningTimers sleeper = some (some 1) ∧
      (exchangedUntil 6).2.device sleeper = .waitingForDataRequest
        (.new (frameTo sleeper 2) false (some maxWait) 5 1) [] ∧
      HashMap.get (exchangedUntil 6).2.timers.inner.entries 1 = some (sleeper, maxWait) :=
  ⟨by decide, by decide,
    ((timers_match_devices (run_inOrder (run_replay (exchanged.take 6)))).1 1 sleeper maxWait).mpr
      ⟨by decide, by decide⟩⟩

theorem enqueue_of_mem {c : Call} {d : AddressSpecification} {item : DeviceQueueItem}
    (hc : item ∈ (calls d c).flatMap DeviceQueue.enqueued) :
    ∃ frame receiverOnWhenIdle callback, c = .enqueue frame receiverOnWhenIdle callback ∧
      frame.destination = d ∧ item = .new frame receiverOnWhenIdle (some maxWait) 5 callback := by
  cases c with
  | enqueue frame receiverOnWhenIdle callback =>
    by_cases hd : frame.destination = d
    · simp only [calls, hd, if_true, List.flatMap_cons, List.flatMap_nil, List.append_nil,
        DeviceQueue.enqueued, List.mem_singleton] at hc
      exact ⟨frame, receiverOnWhenIdle, callback, rfl, hd, hc⟩
    · simp [calls, hd] at hc
  | onAck n order => cases hc
  | onSendResult d' success => by_cases hd : d' = d <;> simp [calls, hd, DeviceQueue.enqueued] at hc
  | onDataRequest d' => by_cases hd : d' = d <;> simp [calls, hd, DeviceQueue.enqueued] at hc
  | pollNext cx due => cases hc

theorem exists_account {h : Past} {s : Queue} (hr : Run step InOrder new h s)
    (d : AddressSpecification) :
    ∃ (services : List Service) (attempts : Nat) (items : List DeviceQueueItem),
      flow (fun t => (calls d t.event).flatMap DeviceQueue.enqueued) h =
        services.map Service.item ++ items ∧
      (flow (fun t => resolvedFor d t.output.resolutions) h).map Resolution.report =
        services.map Service.report ∧
      flow (handed d) h ++ framesFor d s.outgoing =
        services.flatMap Service.frames ++ DeviceQueue.sent attempts items ∧
      (∀ service ∈ services, service.Fair) ∧
      DeviceQueue.Serves (s.device d) attempts items := by
  obtain ⟨p, hdevice, hasked, hresolved, hstarted⟩ := refines_devices hr d
  obtain ⟨services, attempts, items, haccount, hserves⟩ := DeviceQueue.exists_account hdevice
  refine ⟨services, attempts, items, ?_, ?_, ?_, haccount.fair, hserves⟩
  · rw [← flatMap_flow, ← hasked, flatMap_asked rfl]
    exact haccount.line
  · rw [← hresolved]
    exact haccount.report
  · exact hstarted.symm.trans haccount.frames

/-- In every run the frames for a destination are served in the order they came in: those that are
done have each had one report, in that order, and what was handed over for it, with what waits to
be, is what their tries and those of the first that is left amount to. -/
theorem items_served_in_turn {h : Past} {s : Queue} (hr : Run step InOrder new h s)
    (d : AddressSpecification) :
    ∃ (services : List Service) (attempts : Nat) (items : List DeviceQueueItem),
      flow (fun t => (calls d t.event).flatMap DeviceQueue.enqueued) h =
        services.map Service.item ++ items ∧
      (flow (fun t => resolvedFor d t.output.resolutions) h).map Resolution.report =
        services.map Service.report ∧
      flow (handed d) h ++ framesFor d s.outgoing =
        services.flatMap Service.frames ++ DeviceQueue.sent attempts items ∧
      (∀ service ∈ services, service.Fair ∧ service.attempts ≤ 6) ∧
      DeviceQueue.Serves (s.device d) attempts items := by
  obtain ⟨services, attempts, items, hline, hreport, hframes, hfair, hserves⟩ := exists_account hr d
  refine ⟨services, attempts, items, hline, hreport, hframes, fun service hs => ?_, hserves⟩
  have hitem : service.item ∈ services.map Service.item ++ items :=
    List.mem_append_left _ (List.mem_map.mpr ⟨service, hs, rfl⟩)
  rw [← hline] at hitem
  obtain ⟨t, -, hcall⟩ := mem_flow.mp hitem
  obtain ⟨frame, receiverOnWhenIdle, callback, -, -, hnew⟩ := enqueue_of_mem hcall
  have hle := (hfair service hs).attempts_le
  rw [hnew] at hle
  exact ⟨hfair service hs, hle⟩

theorem enqueued_of_handed {h : Past} {s : Queue} (hr : Run step InOrder new h s)
    {d : AddressSpecification} {frame : Frame} (hf : frame ∈ flow (handed d) h) :
    ∃ t ∈ h, ∃ receiverOnWhenIdle callback,
      t.event = .enqueue frame receiverOnWhenIdle callback ∧ frame.destination = d := by
  obtain ⟨services, attempts, items, hline, -, hframes, -, -⟩ := exists_account hr d
  have hmem : frame ∈ services.flatMap Service.frames ++ DeviceQueue.sent attempts items := by
    rw [← hframes]
    exact List.mem_append_left _ hf
  have hitem : ∃ item ∈ services.map Service.item ++ items, item.frame = frame := by
    obtain hserved | hsent := List.mem_append.mp hmem
    · obtain ⟨service, hs, hserved⟩ := List.mem_flatMap.mp hserved
      exact ⟨service.item, List.mem_append_left _ (List.mem_map.mpr ⟨service, hs, rfl⟩),
        (List.eq_of_mem_replicate hserved).symm⟩
    · obtain ⟨item, hfirst, hsent⟩ := List.mem_flatMap.mp hsent
      rw [Option.mem_toList] at hfirst
      exact ⟨item, List.mem_append_right _ (List.mem_of_mem_head? hfirst),
        (List.eq_of_mem_replicate hsent).symm⟩
  obtain ⟨item, hitem, rfl⟩ := hitem
  rw [← hline] at hitem
  obtain ⟨t, ht, hcall⟩ := mem_flow.mp hitem
  obtain ⟨frame, receiverOnWhenIdle, callback, hevent, hd, rfl⟩ := enqueue_of_mem hcall
  exact ⟨t, ht, receiverOnWhenIdle, callback, hevent, hd⟩

theorem items_served_in_turn_exchanged :
    (flow (fun t => resolvedFor sleeper t.output.resolutions) (exchangedUntil 7).1).map
        Resolution.report = [(0, .ok ()), (1, .error .dataRequestTimeout)] ∧
      ∃ services : List Service,
        [(0, .ok ()), (1, .error .dataRequestTimeout)] = services.map Service.report ∧
        [frameTo sleeper 1] = services.flatMap Service.frames := by
  have hreports : (flow (fun t => resolvedFor sleeper t.output.resolutions)
      (exchangedUntil 7).1).map Resolution.report =
        [(0, .ok ()), (1, .error .dataRequestTimeout)] := by decide
  have hidle : (exchangedUntil 7).2.device sleeper = .idle := by decide
  obtain ⟨services, attempts, items, -, hreport, hframes, -, hserves⟩ :=
    items_served_in_turn (run_inOrder (run_replay (exchanged.take 7))) sleeper
  change DeviceQueue.Serves ((exchangedUntil 7).2.device sleeper) attempts items at hserves
  rw [hidle] at hserves
  cases hserves
  refine ⟨hreports, services, hreports.symm.trans hreport, ?_⟩
  have hhanded : flow (handed sleeper) (exchangedUntil 7).1 ++
      framesFor sleeper (exchangedUntil 7).2.outgoing = [frameTo sleeper 1] := by decide
  exact hhanded.symm.trans (hframes.trans (List.append_nil _))

/-! The radio has no more than one frame for a destination. -/

theorem reported_cases (d : AddressSpecification) (t : Step) : reported d t = [] ∨
    ∃ success, t.event = .onSendResult d success ∧ reported d t = [success] := by
  obtain ⟨s, c, a, s'⟩ := t
  cases c with
  | enqueue frame receiverOnWhenIdle callback =>
    left
    by_cases hd : frame.destination = d <;> simp [reported, calls, hd, DeviceQueue.answers]
  | onAck n order => exact .inl rfl
  | onSendResult d' success =>
    by_cases hd : d' = d
    · subst hd
      exact .inr ⟨success, rfl, by simp [reported, calls, DeviceQueue.answers]⟩
    · left
      simp [reported, calls, hd]
  | onDataRequest d' =>
    left
    by_cases hd : d' = d <;> simp [reported, calls, hd, DeviceQueue.answers]
  | pollNext cx due => exact .inl rfl

theorem handed_of_run {h : Past} {s : Queue} (hr : Run step Reported new h s)
    (d : AddressSpecification) :
    (flow (handed d) h).length + (framesFor d s.outgoing).length =
      (flow (reported d) h).length + (s.device d).sending.toNat := by
  induction hr with
  | start => rfl
  | @next h s s' c a hrun hc hstep ih =>
    have hsound := run_sound (run_inOrder hrun)
    obtain ⟨frames, hframes, hprojects⟩ :=
      (performs_of_step hsound hc.inOrder hstep).projects
    obtain ⟨p, hdevice, hasked, -, hstarted⟩ := hprojects d
    have hanswered : flow DeviceQueue.answered p = reported d ⟨s, c, a, s'⟩ := by
      change flow (fun t => DeviceQueue.answers t.event) p = _
      rw [← flatMap_asked rfl, hasked]
      rfl
    have hsplit := congrArg (List.length ∘ framesFor d) hframes
    simp only [Function.comp_apply, framesFor_append, List.length_append] at hsplit
    have hsending : (s.device d).sending.toNat + (framesFor d frames).length =
        (s'.device d).sending.toNat + (reported d ⟨s, c, a, s'⟩).length := by
      rw [← hstarted, ← hanswered]
      obtain hnone | ⟨success, hcall, hone⟩ := reported_cases d ⟨s, c, a, s'⟩
      · exact DeviceQueue.sending_of_run hdevice (by simp [hanswered, hnone])
          (by simp [hanswered, hnone])
      · -- the frame it is for is still underway
        cases hcall
        have hsends : (s.device d).sending := by
          cases hs : (s.device d).sending with
          | true => rfl
          | false =>
            change _ < _ at hc
            rw [hs, Bool.toNat_false] at ih
            omega
        exact DeviceQueue.sending_of_run hdevice (fun _ => hsends) (by simp [hanswered, hone])
    rw [flow_cons, flow_cons, List.length_append, List.length_append]
    change _ + (framesFor d a.delivered).length + _ = _
    omega

/-- If the radio reports only on what it was given, it never has more than one frame for a
destination, counting those that wait to be handed over, and it has one just if the queue of the
destination says so. -/
theorem one_frame_underway {h : Past} {s : Queue} (hr : Run step Reported new h s)
    (d : AddressSpecification) :
    (flow (handed d) h).length + (framesFor d s.outgoing).length ≤
      (flow (reported d) h).length + 1 ∧
    ((s.device d).sending ↔ (flow (reported d) h).length <
      (flow (handed d) h).length + (framesFor d s.outgoing).length) := by
  have hhanded := handed_of_run hr d
  cases hsending : (s.device d).sending with
  | true =>
    rw [hsending, Bool.toNat_true] at hhanded
    refine ⟨hhanded.le, fun _ => ?_, fun _ => rfl⟩
    omega
  | false =>
    rw [hsending, Bool.toNat_false] at hhanded
    refine ⟨by omega, fun h => absurd h (by decide), fun h => ?_⟩
    omega

theorem one_frame_underway_exchanged :
    (flow (reported sleeper) (exchangedUntil 4).1).length = 0 ∧
      (flow (handed sleeper) (exchangedUntil 4).1).length +
        (framesFor sleeper (exchangedUntil 4).2.outgoing).length ≤
        (flow (reported sleeper) (exchangedUntil 4).1).length + 1 ∧
      (((exchangedUntil 4).2.device sleeper).sending ↔
        (flow (reported sleeper) (exchangedUntil 4).1).length <
          (flow (handed sleeper) (exchangedUntil 4).1).length +
            (framesFor sleeper (exchangedUntil 4).2.outgoing).length) :=
  ⟨by decide, one_frame_underway (run_replay (exchanged.take 4)) sleeper⟩

/-! Whoever polls is told. -/

theorem tells_of_run {later past : Past} {u : Step} {s : Queue}
    (hr : Run step InOrder new (later ++ u :: past) s)
    (hno : ∀ v ∈ later, ∀ cx due, v.event ≠ .pollNext cx due) : u.after.Tells s := by
  induction later generalizing s with
  | nil =>
    cases hr with
    | next _ _ _ => exact .inr ⟨rfl, rfl⟩
  | cons v later ih =>
    cases hr with
    | next hrun hc hstep =>
      obtain ⟨hv, hrest⟩ := List.forall_mem_cons.mp hno
      exact (ih hrun hrest).trans ((performs_of_step (run_sound hrun) hc hstep).tells hv)

/-- After a poll that returned pending and before the next one, the saved waker has woken its task
once if a frame has come to wait. Else it has not, whatever has been flushed. -/
theorem woken_once_for_frames {later past : Past} {u : Step} {s : Queue}
    (hr : Run step InOrder new (later ++ u :: past) s) {cx : Waker} {due : List Nat}
    (hpoll : u.event = .pollNext cx due) (hpending : u.output.event = some .pending)
    (hno : ∀ v ∈ later, ∀ cx due, v.event ≠ .pollNext cx due) :
    (s.outgoing = [] ∧ s.streamWaker.woken = u.after.streamWaker.woken) ∨
      (s.outgoing ≠ [] ∧ s.streamWaker.woken = cx :: u.after.streamWaker.woken) := by
  obtain ⟨hbefore, hc, hstep⟩ := hr.cut
  obtain ⟨hempty, hstored⟩ :=
    (performs_of_step (run_sound hbefore) hc hstep).parks cx due hpoll hpending
  obtain ⟨hwaker, hframe⟩ | ⟨hwaker, hsame⟩ := tells_of_run hr hno
  · right
    refine ⟨hframe, ?_⟩
    rw [hwaker, WakerStore.wake, hstored]
  · left
    exact ⟨hsame.trans hempty, by rw [hwaker]⟩

def filled : Queue := ((new.enqueue (frameTo sleeper 1) false 0).toOption.map Prod.fst).getD new

def parked : Queue := ((filled.pollNext 3 []).toOption.map fun r => r.1.2).getD filled

def requested : Queue := ((parked.onDataRequest sleeper).toOption.map Prod.snd).getD parked

theorem requested_run : Run step InOrder new
    ([⟨parked, .onDataRequest sleeper, ⟨[], some true, none⟩, requested⟩] ++
      ⟨filled, .pollNext 3 [], ⟨[], none, some .pending⟩, parked⟩ ::
      [⟨new, .enqueue (frameTo sleeper 1) false 0, ⟨[], none, none⟩, filled⟩]) requested :=
  .next (.next (.next .start trivial rfl) trivial rfl) trivial rfl

theorem woken_once_for_frames_requested :
    requested.streamWaker.woken = 3 :: parked.streamWaker.woken := by
  obtain ⟨hempty, -⟩ | ⟨-, hwoken⟩ := woken_once_for_frames requested_run rfl rfl (by simp)
  · exact absurd hempty (by decide)
  · exact hwoken

end Queue

end ZigbeeStack.OldSrc
