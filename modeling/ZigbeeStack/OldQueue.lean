import ZigbeeStack.DelayQueue
import ZigbeeStack.OldDeviceQueue
import Mathlib.Data.List.TakeWhile

/-! The first MAC's queues, one for each destination, with one timer for each that needs one. -/
namespace ZigbeeStack.OldSrc

structure Queue where
  queues : HashMap.Map AddressSpecification DeviceQueue
  flushed : List AddressSpecification
  timers : DelayQueue TokioDQ AddressSpecification
  runningTimers : HashMap.Map AddressSpecification DelayQueue.Key
  outgoing : List (AddressSpecification × Frame)
  streamWaker : WakerStore

inductive QueueEvent where
  | outgoingFrame (destination : AddressSpecification) (frame : Frame)
  | queueFlushed (destination : AddressSpecification)
deriving DecidableEq, Repr

def maxWait : Duration := .fromSecs 10

namespace Queue

def new : Queue := ⟨∅, [], .new, ∅, [], .new⟩

def stopTimer (self : Queue) (destination : AddressSpecification) : Except Panic Queue :=
  match HashMap.get self.runningTimers destination with
  | some key => do
    let (_, timers) ← self.timers.remove key
    return { self with
      runningTimers := HashMap.remove self.runningTimers destination
      timers := timers }
  | none => .ok self

def handleAction (self : Queue) (destination : AddressSpecification) :
    DeviceQueueAction → Except Panic Queue
  | .startTimer duration =>
    match HashMap.get self.runningTimers destination with
    | some key => do
      let timers ← self.timers.reset key duration
      return { self with timers := timers }
    | none =>
      let (key, timers) := self.timers.insert destination duration
      .ok { self with
        runningTimers := HashMap.set self.runningTimers destination key
        timers := timers }
  | .stopTimer => self.stopTimer destination
  | .stopTimerStartSend frame => do
    let self ← self.stopTimer destination
    return { self with
      outgoing := self.outgoing ++ [(destination, frame)]
      streamWaker := self.streamWaker.wake }

def handleOption (self : Queue) (destination : AddressSpecification) :
    Option DeviceQueueAction → Except Panic Queue
  | some action => self.handleAction destination action
  | none => .ok self

def store (self : Queue) (destination : AddressSpecification) (newState : DeviceQueue) : Queue :=
  let queues := HashMap.remove self.queues destination
  if newState.isIdle then { self with queues := queues, flushed := self.flushed ++ [destination] }
  else { self with queues := HashMap.set queues destination newState }

def updateAndHandleAction (self : Queue) (destination : AddressSpecification)
    (f : DeviceQueue → (DeviceQueue × Option DeviceQueueAction) × Option Resolution) :
    Except Panic (Queue × Option Resolution) := do
  let ((newState, action), resolution) :=
    f ((HashMap.get self.queues destination).getD .idle)
  let self ← (self.store destination newState).handleOption destination action
  return (self, resolution)

def enqueue (self : Queue) (frame : Frame) (receiverOnWhenIdle : Bool) (callback : Nat) :
    Except Panic (Queue × Option Resolution) :=
  let item := DeviceQueueItem.new frame receiverOnWhenIdle (some maxWait) 5 callback
  self.updateAndHandleAction frame.destination fun x => (x.enqueue item, none)

def handleActions (self : Queue) :
    List (AddressSpecification × DeviceQueueAction) → Except Panic Queue
  | [] => .ok self
  | (destination, action) :: actions => do
    let self ← self.handleAction destination action
    self.handleActions actions

/- The map is visited in the order `order`. -/
def onAck (self : Queue) (sequenceNr : UInt8) (order : List AddressSpecification) :
    Except Panic (Queue × List Resolution) := do
  let answers := order.filterMap fun key =>
    (HashMap.get self.queues key).map fun value => (key, value.onAck sequenceNr)
  let actions := answers.filterMap fun answer => answer.2.1.2.map (answer.1, ·)
  let queues := HashMap.mapValues (fun value => (value.onAck sequenceNr).1.1) self.queues
  let self ← { self with
    queues := HashMap.retain (fun value => !value.isIdle) queues }.handleActions actions
  return (self, answers.filterMap fun answer => answer.2.2)

def onTimer (self : Queue) (destination : AddressSpecification) :
    Except Panic (Queue × Option Resolution) :=
  { self with
    runningTimers := HashMap.remove self.runningTimers destination }.updateAndHandleAction
      destination DeviceQueue.onTimer

def onSendResult (self : Queue) (destination : AddressSpecification) (success : Bool) :
    Except Panic (Queue × Option Resolution) :=
  self.updateAndHandleAction destination fun x => x.onSendResult success

def onDataRequest (self : Queue) (destination : AddressSpecification) :
    Except Panic (Bool × Queue) := do
  let (self, _) ← self.updateAndHandleAction destination fun x => (x.onDataRequest, none)
  let pending := ((HashMap.get self.queues destination).map fun state => !state.isIdle).getD false
  return (pending, self)

/- `due` are the timers that the library finds to be due, one after the other. An error of the
library is printed and changes nothing. -/
def handleTimers (self : Queue) (cx : Waker) :
    List Nat → Except Panic (Queue × List Resolution)
  | [] => .ok ({ self with timers := (self.timers.pollNext cx none).2 }, [])
  | key :: due =>
    match self.timers.pollNext cx (some key) with
    | (.ready (some destination), timers) => do
      let (self, resolution) ← { self with timers := timers }.onTimer destination
      let (self, resolutions) ← self.handleTimers cx due
      return (self, resolution.toList ++ resolutions)
    | (_, timers) => .ok ({ self with timers := timers }, [])

/- The next frame, else the next destination that has nothing left. -/
def nextEvent (self : Queue) : Poll QueueEvent × Queue :=
  match self.outgoing with
  | (destination, frame) :: outgoing =>
    (.ready (.outgoingFrame destination frame), { self with outgoing := outgoing })
  | [] =>
    match self.flushed.dropWhile fun d => (HashMap.get self.queues d).isSome with
    | destination :: flushed =>
      (.ready (.queueFlushed destination), { self with flushed := flushed })
    | [] => (.pending, { self with flushed := [] })

def pollNext (self : Queue) (cx : Waker) (due : List Nat) :
    Except Panic ((Poll QueueEvent × Queue) × List Resolution) := do
  let (self, resolutions) ←
    { self with streamWaker := self.streamWaker.register cx }.handleTimers cx due
  return (self.nextEvent, resolutions)

/-! What the calls do for one destination. -/

def device (self : Queue) (destination : AddressSpecification) : DeviceQueue :=
  (HashMap.get self.queues destination).getD .idle

def Armed (self : Queue) (clock : AddressSpecification → Option Duration) : Prop :=
  ∃ kept, (∀ d, HashMap.get self.runningTimers d = (kept d).map some) ∧ Keeps self.timers kept clock

def wakeFor (action : Option DeviceQueueAction) (waker : WakerStore) : WakerStore :=
  match action with
  | some (.stopTimerStartSend _) => waker.wake
  | _ => waker

section Actions
variable {s : Queue} {clock : AddressSpecification → Option Duration} {d : AddressSpecification}

theorem Armed.congr {s' : Queue} (h : s.Armed clock) (htimers : s'.timers = s.timers)
    (hrunning : s'.runningTimers = s.runningTimers) : s'.Armed clock := by
  obtain ⟨kept, hkeys, hkeeps⟩ := h
  exact ⟨kept, by rw [hrunning]; exact hkeys, by rw [htimers]; exact hkeeps⟩

theorem keys_update {running : HashMap.Map AddressSpecification DelayQueue.Key}
    {kept : AddressSpecification → Option Nat}
    (h : ∀ d, HashMap.get running d = (kept d).map some) (d : AddressSpecification) (key : Nat)
    (d' : AddressSpecification) : HashMap.get (HashMap.set running d (some key)) d' =
      (Function.update kept d (some key) d').map some := by
  rw [HashMap.get_set]
  by_cases hd : d' = d
  · simp [hd]
  · simp [hd, h]

theorem keys_remove {running : HashMap.Map AddressSpecification DelayQueue.Key}
    {kept : AddressSpecification → Option Nat}
    (h : ∀ d, HashMap.get running d = (kept d).map some) (d d' : AddressSpecification) :
    HashMap.get (HashMap.remove running d) d' = (Function.update kept d none d').map some := by
  rw [HashMap.get_remove]
  by_cases hd : d' = d
  · simp [hd]
  · simp [hd, h]

theorem stopTimer_spec (h : s.Armed clock) : ∃ timers running,
    s.stopTimer d = .ok { s with timers := timers, runningTimers := running } ∧
      { s with timers := timers, runningTimers := running }.Armed
        (Function.update clock d none) := by
  obtain ⟨kept, hkeys, hkeeps⟩ := h
  unfold stopTimer
  cases hkept : kept d with
  | none =>
    have hclock : clock d = none := by
      have hiff := hkeeps.clock_iff d
      rw [hkept] at hiff
      simpa using hiff
    refine ⟨s.timers, s.runningTimers, by rw [hkeys, hkept]; rfl, kept, hkeys, ?_⟩
    rw [← hclock, Function.update_eq_self]
    exact hkeeps
  | some key =>
    obtain ⟨timers, hremove, hkeeps'⟩ := hkeeps.remove hkept
    refine ⟨timers, _, ?_, Function.update kept d none, keys_remove hkeys d, hkeeps'⟩
    rw [hkeys, hkept]
    simp only [Option.map_some, hremove, ok_bind]
    rfl

structure Acts (s : Queue) (clock : AddressSpecification → Option Duration)
    (d : AddressSpecification) (action : Option DeviceQueueAction) (s' : Queue) : Prop where
  queues : s'.queues = s.queues
  flushed : s'.flushed = s.flushed
  outgoing : s'.outgoing = s.outgoing ++ (DeviceQueue.sends action).map (d, ·)
  waker : s'.streamWaker = wakeFor action s.streamWaker
  armed : s'.Armed (Function.update clock d (DeviceQueue.rearm action (clock d)))

theorem handleOption_spec (h : s.Armed clock) (d : AddressSpecification)
    (action : Option DeviceQueueAction) :
    ∃ s', s.handleOption d action = .ok s' ∧ s.Acts clock d action s' := by
  cases action with
  | none =>
    refine ⟨s, rfl, rfl, rfl, (List.append_nil _).symm, rfl, ?_⟩
    rw [DeviceQueue.rearm, Function.update_eq_self]
    exact h
  | some action =>
    cases action with
    | startTimer duration =>
      obtain ⟨kept, hkeys, hkeeps⟩ := h
      cases hkept : kept d with
      | none =>
        obtain ⟨key, hkey, hkeeps'⟩ := hkeeps.insert hkept duration
        refine ⟨{ s with
          timers := (s.timers.insert d duration).2
          runningTimers := HashMap.set s.runningTimers d (some key) }, ?_, rfl, rfl,
          (List.append_nil _).symm, rfl, _, keys_update hkeys d _, hkeeps'⟩
        simp [handleOption, handleAction, hkeys, hkept, hkey]
      | some key =>
        obtain ⟨timers, hreset, hkeeps'⟩ := hkeeps.reset hkept duration
        refine ⟨{ s with timers := timers }, ?_, rfl, rfl, (List.append_nil _).symm, rfl, kept,
          hkeys, hkeeps'⟩
        simp only [handleOption, handleAction, hkeys, hkept, Option.map_some, hreset, ok_bind]
        rfl
    | stopTimer =>
      obtain ⟨timers, running, hstop, harmed⟩ := stopTimer_spec (d := d) h
      exact ⟨_, hstop, rfl, rfl, (List.append_nil _).symm, rfl, harmed⟩
    | stopTimerStartSend frame =>
      obtain ⟨timers, running, hstop, harmed⟩ := stopTimer_spec (d := d) h
      refine ⟨{ s with
        timers := timers
        runningTimers := running
        outgoing := s.outgoing ++ [(d, frame)]
        streamWaker := s.streamWaker.wake }, ?_, rfl, rfl, rfl, rfl, harmed.congr rfl rfl⟩
      simp only [handleOption, handleAction, hstop, ok_bind]
      rfl

end Actions

def Placed (d : AddressSpecification) (item : DeviceQueueItem) : Prop :=
  DeviceQueue.Patient item ∧ item.frame.destination = d

structure Tidy (s : Queue) : Prop where
  busy : ∀ d q, HashMap.get s.queues d = some q → q ≠ .idle
  placed : ∀ d, ∀ item ∈ (s.device d).items, Placed d item

def Sound (s : Queue) : Prop := s.Tidy ∧ s.Armed fun d => (s.device d).timer

structure Handles (s : Queue) (d : AddressSpecification) (e : DeviceQueueEvent) (s' : Queue) :
    Prop where
  sound : s'.Sound
  device : ∀ d', s'.device d' = if d' = d then ((s.device d).on e).1.1 else s.device d'
  outgoing : s'.outgoing =
    s.outgoing ++ (DeviceQueue.sends ((s.device d).on e).1.2).map (d, ·)
  flushed : s'.flushed = s.flushed ++ if ((s.device d).on e).1.1.isIdle then [d] else []
  waker : s'.streamWaker = wakeFor ((s.device d).on e).1.2 s.streamWaker

theorem device_store (s : Queue) (d d' : AddressSpecification) (q : DeviceQueue) :
    (s.store d q).device d' = if d' = d then q else s.device d' := by
  unfold store
  by_cases hq : q = .idle
  · subst hq
    change (HashMap.get (HashMap.remove s.queues d) d').getD .idle = _
    rw [HashMap.get_remove]
    split <;> rfl
  · have hidle : q.isIdle = false := by
      cases q with
      | idle => exact absurd rfl hq
      | _ => rfl
    simp only [hidle, Bool.false_eq_true, if_false]
    change (HashMap.get (HashMap.set (HashMap.remove s.queues d) d q) d').getD .idle = _
    rw [HashMap.get_set, HashMap.get_remove]
    split <;> rfl

theorem Tidy.store {s : Queue} (h : s.Tidy) {d : AddressSpecification} {q : DeviceQueue}
    (hq : ∀ item ∈ q.items, Placed d item) : (s.store d q).Tidy := by
  constructor
  · intro d' q' hget
    unfold Queue.store at hget
    split at hget
    case isTrue hidle =>
      change HashMap.get (HashMap.remove s.queues d) d' = some q' at hget
      rw [HashMap.get_remove] at hget
      split_ifs at hget
      exact h.busy d' q' hget
    case isFalse hbusy =>
      change HashMap.get (HashMap.set (HashMap.remove s.queues d) d q) d' = some q' at hget
      rw [HashMap.get_set, HashMap.get_remove] at hget
      split_ifs at hget
      · cases hget
        rintro rfl
        exact hbusy rfl
      · exact h.busy d' q' hget
  · intro d' item hitem
    rw [device_store] at hitem
    split_ifs at hitem with hd
    · rw [hd]
      exact hq item hitem
    · exact h.placed d' item hitem

theorem store_flushed (s : Queue) (d : AddressSpecification) (q : DeviceQueue) :
    (s.store d q).flushed = s.flushed ++ if q.isIdle then [d] else [] := by
  unfold store
  split
  · rfl
  · exact (List.append_nil _).symm

theorem store_outgoing (s : Queue) (d : AddressSpecification) (q : DeviceQueue) :
    (s.store d q).outgoing = s.outgoing ∧ (s.store d q).streamWaker = s.streamWaker ∧
      (s.store d q).timers = s.timers ∧ (s.store d q).runningTimers = s.runningTimers := by
  unfold store
  split <;> exact ⟨rfl, rfl, rfl, rfl⟩

theorem placed_retries {d : AddressSpecification} (item : DeviceQueueItem) (n : Nat)
    (h : Placed d item) : Placed d { item with retries := n } := h

/-- The timers run as they should when the call comes, but for the one that brought it. -/
theorem update_spec {s : Queue} (ht : s.Tidy) {d : AddressSpecification} {e : DeviceQueueEvent}
    (harmed : s.Armed (Function.update (fun d => (s.device d).timer) d ((s.device d).timerLeft e)))
    (he : ∀ item ∈ DeviceQueue.enqueued e, Placed d item) :
    ∃ s', s.updateAndHandleAction d (·.on e) = .ok (s', ((s.device d).on e).2) ∧
      s.Handles d e s' := by
  have hplaced : ∀ item ∈ (s.device d).items ++ DeviceQueue.enqueued e, Placed d item := by
    intro item hitem
    obtain hitem | hitem := List.mem_append.mp hitem
    · exact ht.placed d item hitem
    · exact he item hitem
  have hmoves := (s.device d).moves e
  obtain ⟨houtgoing, hwaker, htimers, hrunning⟩ := s.store_outgoing d ((s.device d).on e).1.1
  have htidy := ht.store (hmoves.kept placed_retries hplaced).1
  obtain ⟨s', haction, hacts⟩ := handleOption_spec (harmed.congr htimers hrunning) d
    ((s.device d).on e).1.2
  have hdevice (d' : AddressSpecification) : s'.device d' =
      if d' = d then ((s.device d).on e).1.1 else s.device d' := by
    rw [device, hacts.queues]
    exact s.device_store d d' _
  refine ⟨s', ?_, ⟨⟨?_, ?_⟩, ?_⟩, hdevice, ?_, ?_, ?_⟩
  · change ((s.store d ((s.device d).on e).1.1).handleOption d ((s.device d).on e).1.2 >>= _) = _
    rw [haction]
    rfl
  · rw [hacts.queues]
    exact htidy.busy
  · intro d'
    rw [device, hacts.queues]
    exact htidy.placed d'
  · convert hacts.armed using 1
    funext d'
    rw [Function.update_idem, Function.update_self,
      hmoves.rearm fun item hitem => (hplaced item hitem).1, hdevice]
    by_cases hd : d' = d
    · simp [hd]
    · simp [hd]
  · rw [hacts.outgoing, houtgoing]
  · rw [hacts.flushed]
    exact s.store_flushed d _
  · rw [hacts.waker, hwaker]

theorem Sound.update {s : Queue} (h : s.Sound) {d : AddressSpecification} {e : DeviceQueueEvent}
    (htimer : e ≠ .timer) (he : ∀ item ∈ DeviceQueue.enqueued e, Placed d item) :
    ∃ s', s.updateAndHandleAction d (·.on e) = .ok (s', ((s.device d).on e).2) ∧
      s.Handles d e s' := by
  refine update_spec h.1 ?_ he
  rw [DeviceQueue.timerLeft, if_neg htimer, Function.update_eq_self]
  exact h.2

/-! An acknowledgement is for all of them. -/

def Tells (s s' : Queue) : Prop :=
  (s'.streamWaker = s.streamWaker.wake ∧ s'.outgoing ≠ []) ∨
    (s'.streamWaker = s.streamWaker ∧ s'.outgoing = s.outgoing)

theorem wake_wake (waker : WakerStore) : waker.wake.wake = waker.wake := by
  cases h : waker.storage <;> simp [WakerStore.wake, h]

theorem Tells.trans {s s' s'' : Queue} (h : s.Tells s') (h' : s'.Tells s'') : s.Tells s'' := by
  obtain ⟨hwaker', hframe'⟩ | ⟨hwaker', houtgoing'⟩ := h'
  · left
    obtain ⟨hwaker, -⟩ | ⟨hwaker, -⟩ := h
    · exact ⟨by rw [hwaker', hwaker, wake_wake], hframe'⟩
    · exact ⟨by rw [hwaker', hwaker], hframe'⟩
  · rw [Tells, hwaker', houtgoing']
    exact h

theorem tells_of {s s' : Queue} {d : AddressSpecification} {action : Option DeviceQueueAction}
    (houtgoing : s'.outgoing = s.outgoing ++ (DeviceQueue.sends action).map (d, ·))
    (hwaker : s'.streamWaker = wakeFor action s.streamWaker) : s.Tells s' := by
  cases action with
  | none => exact .inr ⟨hwaker, houtgoing.trans (List.append_nil _)⟩
  | some action =>
    cases action with
    | stopTimerStartSend frame =>
      refine .inl ⟨hwaker, ?_⟩
      rw [houtgoing]
      exact List.append_ne_nil_of_right_ne_nil _ (List.cons_ne_nil _ _)
    | startTimer duration => exact .inr ⟨hwaker, houtgoing.trans (List.append_nil _)⟩
    | stopTimer => exact .inr ⟨hwaker, houtgoing.trans (List.append_nil _)⟩

def frames (actions : List (AddressSpecification × DeviceQueueAction)) :
    List (AddressSpecification × Frame) :=
  actions.flatMap fun action => (DeviceQueue.sends (some action.2)).map (action.1, ·)

structure ActsAll (s : Queue) (clock : AddressSpecification → Option Duration)
    (actions : List (AddressSpecification × DeviceQueueAction)) (s' : Queue) : Prop where
  queues : s'.queues = s.queues
  flushed : s'.flushed = s.flushed
  outgoing : s'.outgoing = s.outgoing ++ frames actions
  tells : s.Tells s'
  armed : s'.Armed fun d => DeviceQueue.rearm (actions.lookup d) (clock d)

theorem handleActions_spec {s : Queue} {clock : AddressSpecification → Option Duration}
    (h : s.Armed clock) {actions : List (AddressSpecification × DeviceQueueAction)}
    (hn : (actions.map Prod.fst).Nodup) :
    ∃ s', s.handleActions actions = .ok s' ∧ s.ActsAll clock actions s' := by
  induction actions generalizing s clock with
  | nil => exact ⟨s, rfl, rfl, rfl, (List.append_nil _).symm, .inr ⟨rfl, rfl⟩, h⟩
  | cons first actions ih =>
    obtain ⟨d, action⟩ := first
    rw [List.map_cons, List.nodup_cons] at hn
    obtain ⟨s₁, hfirst, hacts⟩ := handleOption_spec h d (some action)
    obtain ⟨s₂, hrest, hall⟩ := ih hacts.armed hn.2
    refine ⟨s₂, ?_, hall.queues.trans hacts.queues, hall.flushed.trans hacts.flushed, ?_,
      (tells_of hacts.outgoing hacts.waker).trans hall.tells, ?_⟩
    · change (s.handleOption d (some action) >>= _) = _
      rw [hfirst]
      exact hrest
    · rw [hall.outgoing, hacts.outgoing, List.append_assoc]
      rfl
    · convert hall.armed using 1
      funext d'
      by_cases hd : d' = d
      · subst hd
        have hgone : actions.lookup d' = none := by
          rw [List.lookup_eq_none_iff]
          intro p hp
          have hne : d' ≠ p.1 := fun heq => hn.1 (heq ▸ List.mem_map.mpr ⟨p, hp, rfl⟩)
          simpa using hne
        rw [List.lookup_cons, beq_self_eq_true, hgone, Function.update_self]
        rfl
      · rw [List.lookup_cons, Function.update_of_ne hd, beq_eq_false_iff_ne.mpr hd]

theorem lookup_filterMap {κ ν : Type} [DecidableEq κ] (f : κ → Option ν) (order : List κ) (k : κ) :
    (order.filterMap fun k => (f k).map (k, ·)).lookup k = if k ∈ order then f k else none := by
  induction order with
  | nil => rfl
  | cons a order ih =>
    rw [List.filterMap_cons]
    cases hf : f a with
    | none =>
      simp only [Option.map_none, ih, List.mem_cons]
      by_cases hk : k = a
      · subst hk
        simp [hf]
      · simp [hk]
    | some v =>
      simp only [Option.map_some, List.lookup_cons, ih, List.mem_cons]
      by_cases hk : k = a
      · subst hk
        simp [hf]
      · simp [hk, beq_eq_false_iff_ne.mpr hk]

theorem frames_filterMap (f : AddressSpecification → Option DeviceQueueAction)
    (order : List AddressSpecification) :
    frames (order.filterMap fun d => (f d).map (d, ·)) =
      order.flatMap fun d => (DeviceQueue.sends (f d)).map (d, ·) := by
  induction order with
  | nil => rfl
  | cons d order ih =>
    rw [List.filterMap_cons, List.flatMap_cons, ← ih]
    cases hf : f d with
    | none => rfl
    | some action => rfl

theorem keys_filterMap {κ ν : Type} (f : κ → Option ν) {order : List κ} (hn : order.Nodup) :
    ((order.filterMap fun k => (f k).map (k, ·)).map Prod.fst).Nodup := by
  refine hn.sublist ?_
  induction order with
  | nil => exact List.Sublist.refl _
  | cons a order ih =>
    rw [List.filterMap_cons]
    cases f a with
    | none => exact (ih hn.of_cons).cons _
    | some v => exact (ih hn.of_cons).cons_cons _

structure HandlesAck (s : Queue) (n : UInt8) (order : List AddressSpecification) (s' : Queue) :
    Prop where
  sound : s'.Sound
  device : ∀ d, s'.device d = ((s.device d).on (.ack n)).1.1
  outgoing : s'.outgoing = s.outgoing ++
    order.flatMap fun d => (DeviceQueue.sends ((s.device d).on (.ack n)).1.2).map (d, ·)
  flushed : s'.flushed = s.flushed
  tells : s.Tells s'

theorem answers_eq {s : Queue} {n : UInt8} {order : List AddressSpecification}
    (horder : HashMap.Enumerates order s.queues) :
    (order.filterMap fun key => (HashMap.get s.queues key).map fun value =>
      (key, value.onAck n)) = order.map fun d => (d, (s.device d).on (.ack n)) := by
  rw [← List.filterMap_eq_map]
  refine List.filterMap_congr fun d hd => ?_
  have hmem : d ∈ s.queues := AList.mem_keys.mpr (horder.mem_iff.mp hd)
  obtain ⟨q, hq⟩ := Option.isSome_iff_exists.mp (AList.lookup_isSome.mpr hmem)
  change HashMap.get s.queues d = some q at hq
  change _ = some (d, (s.device d).on (.ack n))
  rw [device, hq]
  rfl

theorem device_of_notMem {s : Queue} {order : List AddressSpecification}
    (horder : HashMap.Enumerates order s.queues) {d : AddressSpecification} (hd : d ∉ order) :
    s.device d = .idle := by
  cases hq : HashMap.get s.queues d with
  | none => rw [device, hq]; rfl
  | some q => exact absurd (HashMap.mem_order horder hq) hd

theorem getD_filter_busy (q : DeviceQueue) :
    ((some q).filter fun value => !value.isIdle).getD .idle = q := by
  cases q <;> rfl

theorem device_acked (s : Queue) (n : UInt8) (d : AddressSpecification) :
    ((HashMap.get (HashMap.retain (fun value => !value.isIdle)
      (HashMap.mapValues (fun value => (value.onAck n).1.1) s.queues)) d).getD .idle) =
        ((s.device d).on (.ack n)).1.1 := by
  rw [HashMap.get_retain, HashMap.get_mapValues, device]
  cases HashMap.get s.queues d with
  | none => rfl
  | some q => exact getD_filter_busy _

theorem onAck_spec {s : Queue} (h : s.Sound) (n : UInt8) {order : List AddressSpecification}
    (horder : HashMap.Enumerates order s.queues) :
    ∃ s', s.onAck n order =
        .ok (s', order.filterMap fun d => ((s.device d).on (.ack n)).2) ∧
      s.HandlesAck n order s' := by
  have hplaced (d : AddressSpecification) :
      ∀ item ∈ (s.device d).items ++ DeviceQueue.enqueued (.ack n), Placed d item := by
    simpa [DeviceQueue.enqueued] using h.1.placed d
  have harmed : Queue.Armed { s with
      queues := HashMap.retain (fun value => !value.isIdle)
        (HashMap.mapValues (fun value => (value.onAck n).1.1) s.queues) }
      fun d => (s.device d).timer := h.2.congr rfl rfl
  obtain ⟨s', hactions, hall⟩ := handleActions_spec harmed
    (keys_filterMap (fun d => ((s.device d).on (.ack n)).1.2) (HashMap.order_nodup horder))
  have hdevice (d : AddressSpecification) : s'.device d = ((s.device d).on (.ack n)).1.1 := by
    rw [device, hall.queues]
    exact device_acked s n d
  refine ⟨s', ?_, ⟨⟨?_, ?_⟩, ?_⟩, hdevice, ?_, hall.flushed, hall.tells⟩
  · rw [onAck, answers_eq horder, List.filterMap_map, List.filterMap_map]
    simp only [Function.comp_def, hactions, ok_bind]
    rfl
  · intro d q hget
    rw [hall.queues] at hget
    change HashMap.get (HashMap.retain _ _) d = some q at hget
    rw [HashMap.get_retain, Option.filter_eq_some_iff] at hget
    rintro rfl
    cases hget.2
  · intro d
    rw [hdevice]
    exact (((s.device d).moves (.ack n)).kept placed_retries (hplaced d)).1
  · convert hall.armed using 1
    funext d
    have hrearm := ((s.device d).moves (.ack n)).rearm fun item hi => (hplaced d item hi).1
    rw [hdevice, ← hrearm, lookup_filterMap]
    by_cases hd : d ∈ order
    · rw [if_pos hd]
      rfl
    · rw [if_neg hd, device_of_notMem horder hd]
      rfl
  · rw [hall.outgoing, frames_filterMap]

/-! A poll: each timer that is due is a call for the queue that waits for it. -/

structure Registers (s s' : Queue) : Prop where
  sound : s'.Sound
  device : ∀ d, s'.device d = s.device d
  outgoing : s'.outgoing = s.outgoing
  flushed : s'.flushed = s.flushed
  waker : s'.streamWaker = s.streamWaker

inductive Fires : Queue → List AddressSpecification → List Resolution → Queue → Prop
  | done {s s' : Queue} (h : s.Registers s') : Fires s [] [] s'
  | fires {s s₁ s₂ : Queue} {d : AddressSpecification} {fired : List AddressSpecification}
      {resolutions : List Resolution} (htimer : (s.device d).timer.isSome)
      (h : s.Handles d .timer s₁) (hrest : Fires s₁ fired resolutions s₂) :
      Fires s (d :: fired) (((s.device d).on .timer).2.toList ++ resolutions) s₂

theorem Sound.registers {s : Queue} (h : s.Sound) {timers : DelayQueue TokioDQ AddressSpecification}
    (harmed : Queue.Armed { s with timers := timers } fun d => (s.device d).timer) :
    s.Registers { s with timers := timers } :=
  ⟨⟨⟨h.1.busy, h.1.placed⟩, harmed⟩, fun _ => rfl, rfl, rfl, rfl⟩

theorem handleTimers_spec {s : Queue} (h : s.Sound) (cx : Waker) (due : List Nat) :
    ∃ s' fired resolutions, s.handleTimers cx due = .ok (s', resolutions) ∧
      Fires s fired resolutions s' := by
  induction due generalizing s with
  | nil =>
    obtain ⟨kept, hkeys, hkeeps⟩ := h.2
    obtain ⟨timers, hpoll, hkeeps'⟩ | ⟨d, timers, -, hpoll, -⟩ := hkeeps.pollNext cx none
    · refine ⟨_, [], [], rfl, .done (h.registers ⟨kept, hkeys, ?_⟩)⟩
      rw [hpoll]
      exact hkeeps'
    · have hnone : (s.timers.pollNext cx none).1 = .pending := by
        rw [DelayQueue.pollNext, if_neg (by rw [hkeeps.running]; decide)]
      rw [hpoll] at hnone
      cases hnone
  | cons key due ih =>
    obtain ⟨kept, hkeys, hkeeps⟩ := h.2
    rw [handleTimers]
    obtain ⟨timers, hpoll, hkeeps'⟩ | ⟨d, timers, hkept, hpoll, hkeeps'⟩ :=
      hkeeps.pollNext cx (some key)
    · rw [hpoll]
      exact ⟨_, [], [], rfl, .done (h.registers ⟨kept, hkeys, hkeeps'⟩)⟩
    · rw [hpoll]
      have htimer : (s.device d).timer.isSome := (hkeeps.clock_iff d).mpr hkept
      obtain ⟨s₁, hfire, hhandles⟩ := update_spec (s := { s with
          timers := timers
          runningTimers := HashMap.remove s.runningTimers d }) (d := d) (e := .timer)
        ⟨h.1.busy, h.1.placed⟩ ⟨_, keys_remove hkeys d, hkeeps'⟩ (by simp [DeviceQueue.enqueued])
      obtain ⟨s₂, fired, resolutions, hrest, hfires⟩ := ih hhandles.sound
      refine ⟨s₂, d :: fired, _, ?_, .fires htimer
        ⟨hhandles.sound, hhandles.device, hhandles.outgoing, hhandles.flushed, hhandles.waker⟩
        hfires⟩
      change (updateAndHandleAction _ d (·.on .timer) >>= _) = _
      rw [hfire]
      change (handleTimers s₁ cx due >>= _) = _
      rw [hrest]
      rfl

/-- A frame goes first; a destination is reported when it has no queue any more. -/
theorem nextEvent_cases (s : Queue) :
    (∃ d frame outgoing, s.outgoing = (d, frame) :: outgoing ∧
      s.nextEvent = (.ready (.outgoingFrame d frame), { s with outgoing := outgoing })) ∨
    (s.outgoing = [] ∧ ∃ skipped d flushed, s.flushed = skipped ++ d :: flushed ∧
      (∀ d' ∈ skipped, (HashMap.get s.queues d').isSome) ∧ HashMap.get s.queues d = none ∧
      s.nextEvent = (.ready (.queueFlushed d), { s with flushed := flushed })) ∨
    (s.outgoing = [] ∧ (∀ d ∈ s.flushed, (HashMap.get s.queues d).isSome) ∧
      s.nextEvent = (.pending, { s with flushed := [] })) := by
  unfold nextEvent
  cases houtgoing : s.outgoing with
  | cons first outgoing => exact .inl ⟨first.1, first.2, outgoing, rfl, rfl⟩
  | nil =>
    right
    have hsplit := List.takeWhile_append_dropWhile (l := s.flushed)
      (p := fun d => (HashMap.get s.queues d).isSome)
    have hskipped : ∀ d' ∈ s.flushed.takeWhile fun d => (HashMap.get s.queues d).isSome,
        (HashMap.get s.queues d').isSome := fun d' hd =>
          List.mem_takeWhile_imp (p := fun d => (HashMap.get s.queues d).isSome) hd
    cases hdrop : s.flushed.dropWhile fun d => (HashMap.get s.queues d).isSome with
    | nil =>
      refine .inr ⟨rfl, fun d hd => hskipped d ?_, rfl⟩
      rw [hdrop, List.append_nil] at hsplit
      rwa [hsplit]
    | cons d flushed =>
      rw [hdrop] at hsplit
      have hgone := List.head?_dropWhile_not (fun d => (HashMap.get s.queues d).isSome) s.flushed
      rw [hdrop] at hgone
      exact .inl ⟨rfl, _, d, flushed, hsplit.symm, hskipped, by simpa using hgone, rfl⟩

end Queue

end ZigbeeStack.OldSrc
