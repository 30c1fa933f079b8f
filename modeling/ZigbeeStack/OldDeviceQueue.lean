import ZigbeeStack.OldFrame
import ZigbeeStack.Runs
import ZigbeeStack.Runtime

/-! The first MAC's queue for one device: a frame waits until the device asks for it, is sent, waits
for its acknowledgement and is sent again, and its sender is told what became of it. -/
namespace ZigbeeStack.OldSrc

inductive DeviceQueueError where
  | dataRequestTimeout
  | retryLimitReached
  | channelDropped
deriving DecidableEq, Repr

/- `callback` names the channel to the one who waits for the result. -/
structure DeviceQueueItem where
  frame : Frame
  waitForDatarequest : Bool
  maxWaitForDatarequest : Option Duration
  retries : Nat
  callback : Nat
deriving DecidableEq, Repr

def DeviceQueueItem.new (frame : Frame) (receiverOnWhenIdle : Bool)
    (maxWaitForDatarequest : Option Duration) (retries callback : Nat) : DeviceQueueItem :=
  { frame, waitForDatarequest := !receiverOnWhenIdle, maxWaitForDatarequest, retries, callback }

inductive DeviceQueue where
  | idle
  | waitingForDataRequest (front : DeviceQueueItem) (queue : List DeviceQueueItem)
  | sendStarted (front : DeviceQueueItem) (queue : List DeviceQueueItem)
      (waitForAck : Option UInt8)
  | waitingForAck (front : DeviceQueueItem) (queue : List DeviceQueueItem) (waitForAck : UInt8)
deriving DecidableEq, Repr

inductive DeviceQueueAction where
  | startTimer (duration : Duration)
  | stopTimer
  | stopTimerStartSend (frame : Frame)
deriving DecidableEq, Repr

/- What is sent through the callback of an item. Whether anybody still listens only decides what is
printed. -/
structure Resolution where
  item : DeviceQueueItem
  result : Except DeviceQueueError Unit
deriving DecidableEq, Repr

def ackTimeout : Duration := .fromMillis 250

namespace DeviceQueue

def isIdle : DeviceQueue → Bool
  | .idle => true
  | _ => false

def startSend (front : DeviceQueueItem) (queue : List DeviceQueueItem) :
    DeviceQueue × Option DeviceQueueAction :=
  match front.waitForDatarequest with
  | false =>
    (.sendStarted front queue front.frame.expectAck, some (.stopTimerStartSend front.frame))
  | true =>
    (.waitingForDataRequest front queue, front.maxWaitForDatarequest.map .startTimer)

def restartFromQueue : List DeviceQueueItem → DeviceQueue × Option DeviceQueueAction
  | front :: queue => startSend front queue
  | [] => (.idle, some .stopTimer)

def retrySend (front : DeviceQueueItem) (queue : List DeviceQueueItem) :
    (DeviceQueue × Option DeviceQueueAction) × Option Resolution :=
  if front.retries < 1 then
    (restartFromQueue queue, some ⟨front, .error .retryLimitReached⟩)
  else (startSend { front with retries := front.retries - 1 } queue, none)

def enqueue (self : DeviceQueue) (item : DeviceQueueItem) :
    DeviceQueue × Option DeviceQueueAction :=
  match self with
  | .idle => startSend item []
  | .waitingForDataRequest front queue => (.waitingForDataRequest front (queue ++ [item]), none)
  | .sendStarted front queue waitForAck => (.sendStarted front (queue ++ [item]) waitForAck, none)
  | .waitingForAck front queue waitForAck =>
    (.waitingForAck front (queue ++ [item]) waitForAck, none)

def onTimer (self : DeviceQueue) : (DeviceQueue × Option DeviceQueueAction) × Option Resolution :=
  match self with
  | .waitingForDataRequest front queue =>
    (restartFromQueue queue, some ⟨front, .error .dataRequestTimeout⟩)
  | .waitingForAck front queue _ => retrySend front queue
  | x => ((x, none), none)

def onDataRequest (self : DeviceQueue) : DeviceQueue × Option DeviceQueueAction :=
  match self with
  | .waitingForDataRequest front queue =>
    (.sendStarted front queue front.frame.expectAck, some (.stopTimerStartSend front.frame))
  | x => (x, none)

def onSendResult (self : DeviceQueue) (success : Bool) :
    (DeviceQueue × Option DeviceQueueAction) × Option Resolution :=
  match self with
  | .sendStarted front queue waitForAck =>
    if success = false then retrySend front queue
    else match waitForAck with
      | some waitForAck =>
        ((.waitingForAck front queue waitForAck, some (.startTimer ackTimeout)), none)
      | none => (restartFromQueue queue, some ⟨front, .ok ()⟩)
  | x => ((x, none), none)

def onAck (self : DeviceQueue) (ack : UInt8) :
    (DeviceQueue × Option DeviceQueueAction) × Option Resolution :=
  match self with
  | .sendStarted front queue waitForAck =>
    ((.sendStarted front queue (if waitForAck = some ack then none else waitForAck), none), none)
  | .waitingForAck front queue waitForAck =>
    if waitForAck = ack then (restartFromQueue queue, some ⟨front, .ok ()⟩)
    else ((.waitingForAck front queue waitForAck, none), none)
  | x => ((x, none), none)

end DeviceQueue

/-! One description for all the calls. -/

inductive DeviceQueueEvent where
  | enqueue (item : DeviceQueueItem)
  | timer
  | dataRequest
  | sendResult (success : Bool)
  | ack (ack : UInt8)
deriving DecidableEq, Repr

namespace DeviceQueue

def on (self : DeviceQueue) :
    DeviceQueueEvent → (DeviceQueue × Option DeviceQueueAction) × Option Resolution
  | .enqueue item => (self.enqueue item, none)
  | .timer => self.onTimer
  | .dataRequest => (self.onDataRequest, none)
  | .sendResult success => self.onSendResult success
  | .ack ack => self.onAck ack

def items : DeviceQueue → List DeviceQueueItem
  | .idle => []
  | .waitingForDataRequest front queue => front :: queue
  | .sendStarted front queue _ => front :: queue
  | .waitingForAck front queue _ => front :: queue

def push (self : DeviceQueue) (item : DeviceQueueItem) : DeviceQueue :=
  match self with
  | .idle => .idle
  | .waitingForDataRequest front queue => .waitingForDataRequest front (queue ++ [item])
  | .sendStarted front queue waitForAck => .sendStarted front (queue ++ [item]) waitForAck
  | .waitingForAck front queue waitForAck => .waitingForAck front (queue ++ [item]) waitForAck

def timer : DeviceQueue → Option Duration
  | .idle => none
  | .waitingForDataRequest front _ => front.maxWaitForDatarequest
  | .sendStarted _ _ _ => none
  | .waitingForAck _ _ _ => some ackTimeout

def sending : DeviceQueue → Bool
  | .sendStarted _ _ _ => true
  | _ => false

end DeviceQueue

inductive DeviceQueue.Moves : DeviceQueue → DeviceQueueEvent →
    (DeviceQueue × Option DeviceQueueAction) × Option Resolution → Prop
  | stays {q : DeviceQueue} {e : DeviceQueueEvent} (hitem : ∀ item, e ≠ .enqueue item)
      (hresult : ∀ success, e = .sendResult success → q.sending = false)
      (htimer : e = .timer → q.sending ∨ q = .idle) : Moves q e ((q, none), none)
  | starts (item : DeviceQueueItem) :
      Moves .idle (.enqueue item) (DeviceQueue.startSend item [], none)
  | joins {q : DeviceQueue} (item : DeviceQueueItem) (hbusy : q ≠ .idle) :
      Moves q (.enqueue item) ((q.push item, none), none)
  | asked (front : DeviceQueueItem) (queue : List DeviceQueueItem) :
      Moves (.waitingForDataRequest front queue) .dataRequest
        ((.sendStarted front queue front.frame.expectAck,
          some (.stopTimerStartSend front.frame)), none)
  | expires (front : DeviceQueueItem) (queue : List DeviceQueueItem) :
      Moves (.waitingForDataRequest front queue) .timer
        (DeviceQueue.restartFromQueue queue, some ⟨front, .error .dataRequestTimeout⟩)
  | sent (front : DeviceQueueItem) (queue : List DeviceQueueItem) (n : UInt8) :
      Moves (.sendStarted front queue (some n)) (.sendResult true)
        ((.waitingForAck front queue n, some (.startTimer ackTimeout)), none)
  | done (front : DeviceQueueItem) (queue : List DeviceQueueItem) :
      Moves (.sendStarted front queue none) (.sendResult true)
        (DeviceQueue.restartFromQueue queue, some ⟨front, .ok ()⟩)
  | ackedEarly (front : DeviceQueueItem) (queue : List DeviceQueueItem) (n : UInt8) :
      Moves (.sendStarted front queue (some n)) (.ack n)
        ((.sendStarted front queue none, none), none)
  | acked (front : DeviceQueueItem) (queue : List DeviceQueueItem) (n : UInt8) :
      Moves (.waitingForAck front queue n) (.ack n)
        (DeviceQueue.restartFromQueue queue, some ⟨front, .ok ()⟩)
  | failed (front : DeviceQueueItem) (queue : List DeviceQueueItem) (waitForAck : Option UInt8) :
      Moves (.sendStarted front queue waitForAck) (.sendResult false)
        (DeviceQueue.retrySend front queue)
  | unacked (front : DeviceQueueItem) (queue : List DeviceQueueItem) (n : UInt8) :
      Moves (.waitingForAck front queue n) .timer (DeviceQueue.retrySend front queue)

theorem DeviceQueue.moves (q : DeviceQueue) (e : DeviceQueueEvent) : q.Moves e (q.on e) := by
  cases e with
  | enqueue item =>
    cases q with
    | idle => exact .starts item
    | waitingForDataRequest front queue => exact .joins item (by simp)
    | sendStarted front queue waitForAck => exact .joins item (by simp)
    | waitingForAck front queue waitForAck => exact .joins item (by simp)
  | timer =>
    cases q with
    | idle => exact .stays (by simp) (by simp) (by simp)
    | waitingForDataRequest front queue => exact .expires front queue
    | sendStarted front queue waitForAck => exact .stays (by simp) (by simp) (by simp [sending])
    | waitingForAck front queue waitForAck => exact .unacked front queue waitForAck
  | dataRequest =>
    cases q with
    | idle => exact .stays (by simp) (by simp) (by simp)
    | waitingForDataRequest front queue => exact .asked front queue
    | sendStarted front queue waitForAck => exact .stays (by simp) (by simp) (by simp)
    | waitingForAck front queue waitForAck => exact .stays (by simp) (by simp) (by simp)
  | sendResult success =>
    cases q with
    | idle => exact .stays (by simp) (by simp [sending]) (by simp)
    | waitingForDataRequest front queue => exact .stays (by simp) (by simp [sending]) (by simp)
    | sendStarted front queue waitForAck =>
      cases success with
      | false => exact .failed front queue waitForAck
      | true =>
        cases waitForAck with
        | none => exact .done front queue
        | some n => exact .sent front queue n
    | waitingForAck front queue waitForAck => exact .stays (by simp) (by simp [sending]) (by simp)
  | ack n =>
    cases q with
    | idle => exact .stays (by simp) (by simp) (by simp)
    | waitingForDataRequest front queue => exact .stays (by simp) (by simp) (by simp)
    | sendStarted front queue waitForAck =>
      by_cases h : waitForAck = some n
      · subst h
        simpa [on, onAck] using DeviceQueue.Moves.ackedEarly front queue n
      · simpa [on, onAck, h] using DeviceQueue.Moves.stays
          (q := .sendStarted front queue waitForAck) (e := .ack n) (by simp) (by simp) (by simp)
    | waitingForAck front queue waitForAck =>
      by_cases h : waitForAck = n
      · subst h
        simpa [on, onAck] using DeviceQueue.Moves.acked front queue waitForAck
      · simpa [on, onAck, h] using DeviceQueue.Moves.stays
          (q := .waitingForAck front queue waitForAck) (e := .ack n) (by simp) (by simp) (by simp)

/-! Every frame is served in its turn, sent no more often than it may be, and reported once. -/

namespace DeviceQueue
open Runs

def rearm (action : Option DeviceQueueAction) (timer : Option Duration) : Option Duration :=
  match action with
  | some (.startTimer duration) => some duration
  | some .stopTimer => none
  | some (.stopTimerStartSend _) => none
  | none => timer

def sends (action : Option DeviceQueueAction) : List Frame :=
  match action with
  | some (.stopTimerStartSend frame) => [frame]
  | _ => []

def enqueued : DeviceQueueEvent → List DeviceQueueItem
  | .enqueue item => [item]
  | _ => []

abbrev Report := Option DeviceQueueAction × Option Resolution
abbrev Past := History DeviceQueue DeviceQueueEvent Report

def step (q : DeviceQueue) (e : DeviceQueueEvent) : Option (DeviceQueue × Report) :=
  some ((q.on e).1.1, ((q.on e).1.2, (q.on e).2))

/- A timer goes off only if one runs. -/
def TimerRuns (_ : Past) (q : DeviceQueue) (e : DeviceQueueEvent) : Prop :=
  e = .timer → q.timer.isSome

end DeviceQueue

structure Service where
  item : DeviceQueueItem
  attempts : Nat
  result : Except DeviceQueueError Unit
deriving DecidableEq, Repr

def Service.frames (s : Service) : List Frame := List.replicate s.attempts s.item.frame

def Service.report (s : Service) : Nat × Except DeviceQueueError Unit :=
  (s.item.callback, s.result)

def Resolution.report (r : Resolution) : Nat × Except DeviceQueueError Unit :=
  (r.item.callback, r.result)

def Service.Fair (s : Service) : Prop :=
  match s.result with
  | .ok () => 1 ≤ s.attempts ∧ s.attempts ≤ s.item.retries + 1
  | .error .retryLimitReached => s.attempts = s.item.retries + 1
  | .error .dataRequestTimeout => s.attempts ≤ s.item.retries ∧ s.item.waitForDatarequest
  | .error .channelDropped => False

theorem Service.Fair.attempts_le {s : Service} (h : s.Fair) : s.attempts ≤ s.item.retries + 1 := by
  obtain ⟨item, attempts, result⟩ := s
  cases result with
  | ok _ => exact h.2
  | error e =>
    cases e with
    | retryLimitReached => exact le_of_eq h
    | dataRequestTimeout => exact Nat.le_succ_of_le h.1
    | channelDropped => exact h.elim

namespace DeviceQueue
open Runs

def retried (item : DeviceQueueItem) (used : Nat) : DeviceQueueItem :=
  { item with retries := item.retries - used }

inductive Serves : DeviceQueue → Nat → List DeviceQueueItem → Prop
  | idle : Serves .idle 0 []
  | waits {item : DeviceQueueItem} {used : Nat} (queue : List DeviceQueueItem)
      (hused : used ≤ item.retries) (hwait : item.waitForDatarequest) :
      Serves (.waitingForDataRequest (retried item used) queue) used (item :: queue)
  | sends {item : DeviceQueueItem} {used : Nat} (queue : List DeviceQueueItem)
      (hused : used ≤ item.retries) (waitForAck : Option UInt8) :
      Serves (.sendStarted (retried item used) queue waitForAck) (used + 1) (item :: queue)
  | listens {item : DeviceQueueItem} {used : Nat} (queue : List DeviceQueueItem)
      (hused : used ≤ item.retries) (waitForAck : UInt8) :
      Serves (.waitingForAck (retried item used) queue waitForAck) (used + 1) (item :: queue)

def sent (attempts : Nat) (items : List DeviceQueueItem) : List Frame :=
  items.head?.toList.flatMap fun item => List.replicate attempts item.frame

@[simp] theorem sent_nil (attempts : Nat) : sent attempts [] = [] := rfl

@[simp] theorem sent_cons (attempts : Nat) (item : DeviceQueueItem)
    (queue : List DeviceQueueItem) :
    sent attempts (item :: queue) = List.replicate attempts item.frame := by
  simp [sent]

theorem startSend_serves (item : DeviceQueueItem) {used : Nat} (queue : List DeviceQueueItem)
    (hused : used ≤ item.retries) : ∃ attempts,
      Serves (startSend (retried item used) queue).1 attempts (item :: queue) ∧
        List.replicate used item.frame ++
            DeviceQueue.sends (startSend (retried item used) queue).2 =
          List.replicate attempts item.frame := by
  cases hwait : item.waitForDatarequest with
  | false =>
    have hstart : startSend (retried item used) queue =
        (.sendStarted (retried item used) queue item.frame.expectAck,
          some (.stopTimerStartSend item.frame)) := by
      simp [startSend, retried, hwait]
    rw [hstart]
    exact ⟨used + 1, .sends queue hused _, List.replicate_succ'.symm⟩
  | true =>
    have hstart : startSend (retried item used) queue =
        (.waitingForDataRequest (retried item used) queue,
          item.maxWaitForDatarequest.map .startTimer) := by
      simp [startSend, retried, hwait]
    rw [hstart]
    refine ⟨used, .waits queue hused hwait, ?_⟩
    cases item.maxWaitForDatarequest <;> exact List.append_nil _

theorem restart_serves (queue : List DeviceQueueItem) : ∃ attempts,
    Serves (restartFromQueue queue).1 attempts queue ∧
      DeviceQueue.sends (restartFromQueue queue).2 = sent attempts queue := by
  cases queue with
  | nil => exact ⟨0, .idle, rfl⟩
  | cons item queue =>
    obtain ⟨attempts, hserves, hsends⟩ := startSend_serves item queue (Nat.zero_le item.retries)
    exact ⟨attempts, hserves, by rw [sent_cons]; exact hsends⟩

structure Continues (attempts : Nat) (items : List DeviceQueueItem) (e : DeviceQueueEvent)
    (p : (DeviceQueue × Option DeviceQueueAction) × Option Resolution) (served : Option Service)
    (attempts' : Nat) (items' : List DeviceQueueItem) : Prop where
  serves : Serves p.1.1 attempts' items'
  line : items ++ enqueued e = served.toList.map Service.item ++ items'
  report : p.2.map Resolution.report = served.map Service.report
  sends : sent attempts items ++ DeviceQueue.sends p.1.2 =
    served.toList.flatMap Service.frames ++ sent attempts' items'
  fair : ∀ s ∈ served, s.Fair

theorem restart_continues {item : DeviceQueueItem} (queue : List DeviceQueueItem)
    {attempts : Nat} (used : Nat) {e : DeviceQueueEvent} {result : Except DeviceQueueError Unit}
    (he : enqueued e = []) (hfair : Service.Fair ⟨item, attempts, result⟩) :
    ∃ attempts', Continues attempts (item :: queue) e
      (restartFromQueue queue, some ⟨retried item used, result⟩)
      (some ⟨item, attempts, result⟩) attempts' queue := by
  obtain ⟨attempts', hserves, hsends⟩ := restart_serves queue
  refine ⟨attempts', hserves, by simp [he], rfl, ?_, by simpa using hfair⟩
  simp [hsends, Service.frames]

theorem retry_continues {item : DeviceQueueItem} {queue : List DeviceQueueItem} {used : Nat}
    {e : DeviceQueueEvent} (he : enqueued e = []) (hused : used ≤ item.retries) :
    ∃ served attempts' items', Continues (used + 1) (item :: queue) e
      (retrySend (retried item used) queue) served attempts' items' := by
  unfold retrySend
  split
  case isTrue hlast =>
    have hfair : Service.Fair ⟨item, used + 1, .error .retryLimitReached⟩ := by
      change item.retries - used < 1 at hlast
      change used + 1 = item.retries + 1
      omega
    obtain ⟨attempts', h⟩ := restart_continues queue used he hfair
    exact ⟨_, attempts', queue, h⟩
  case isFalse hmore =>
    change ¬ item.retries - used < 1 at hmore
    have hagain : { retried item used with retries := (retried item used).retries - 1 } =
        retried item (used + 1) := by
      simp only [retried, Nat.sub_sub]
    obtain ⟨attempts', hserves, hsends⟩ :=
      startSend_serves item queue (show used + 1 ≤ item.retries by omega)
    rw [hagain]
    refine ⟨none, attempts', item :: queue, hserves, by simp [he], rfl, ?_, by simp⟩
    simpa using hsends

theorem Serves.push {q : DeviceQueue} {attempts : Nat} {items : List DeviceQueueItem}
    (h : Serves q attempts items) (hbusy : q ≠ .idle) (item : DeviceQueueItem) :
    Serves (q.push item) attempts (items ++ [item]) := by
  cases h with
  | idle => exact absurd rfl hbusy
  | waits queue hused hwait => exact .waits (queue ++ [item]) hused hwait
  | sends queue hused waitForAck => exact .sends (queue ++ [item]) hused waitForAck
  | listens queue hused waitForAck => exact .listens (queue ++ [item]) hused waitForAck

theorem Serves.sent_push {q : DeviceQueue} {attempts : Nat} {items : List DeviceQueueItem}
    (h : Serves q attempts items) (hbusy : q ≠ .idle) (item : DeviceQueueItem) :
    sent attempts (items ++ [item]) = sent attempts items := by
  cases h with
  | idle => exact absurd rfl hbusy
  | _ => simp

theorem Moves.continues {q : DeviceQueue} {e : DeviceQueueEvent}
    {p : (DeviceQueue × Option DeviceQueueAction) × Option Resolution} {attempts : Nat}
    {items : List DeviceQueueItem} (h : Moves q e p) (hs : Serves q attempts items) :
    ∃ served attempts' items', Continues attempts items e p served attempts' items' := by
  cases h with
  | stays hitem _ _ =>
    have he : enqueued e = [] := by
      cases e with
      | enqueue item => exact absurd rfl (hitem item)
      | _ => rfl
    exact ⟨none, attempts, items, hs, by simp [he], rfl, by simp [DeviceQueue.sends], by simp⟩
  | starts item =>
    cases hs
    obtain ⟨attempts', hserves, hsends⟩ := startSend_serves item [] (Nat.zero_le item.retries)
    refine ⟨none, attempts', [item], hserves, rfl, rfl, ?_, by simp⟩
    rw [sent_cons]
    exact hsends
  | joins item hbusy =>
    refine ⟨none, attempts, items ++ [item], hs.push hbusy item, rfl, rfl, ?_, by simp⟩
    rw [hs.sent_push hbusy]
    exact List.append_nil _
  | asked front queue =>
    cases hs with
    | @waits item _ _ hused hwait =>
      refine ⟨none, attempts + 1, item :: queue, .sends queue hused _, by simp [enqueued], rfl, ?_,
        by simp⟩
      simp [DeviceQueue.sends, retried, List.replicate_succ']
  | expires front queue =>
    cases hs with
    | @waits item _ _ hused hwait =>
      have hfair : Service.Fair ⟨item, attempts, .error .dataRequestTimeout⟩ := ⟨hused, hwait⟩
      obtain ⟨attempts', h⟩ := restart_continues queue attempts (e := .timer) rfl hfair
      exact ⟨_, attempts', queue, h⟩
  | sent front queue n =>
    cases hs with
    | sends _ hused _ =>
      exact ⟨none, _, _, .listens queue hused n, by simp [enqueued], rfl,
        by simp [DeviceQueue.sends], by simp⟩
  | done front queue =>
    cases hs with
    | @sends item used _ hused _ =>
      have hfair : Service.Fair ⟨item, used + 1, .ok ()⟩ := ⟨by simp, by simpa using hused⟩
      obtain ⟨attempts', h⟩ := restart_continues queue used (e := .sendResult true) rfl hfair
      exact ⟨_, attempts', queue, h⟩
  | ackedEarly front queue n =>
    cases hs with
    | sends _ hused _ =>
      exact ⟨none, _, _, .sends queue hused none, by simp [enqueued], rfl,
        by simp [DeviceQueue.sends], by simp⟩
  | acked front queue n =>
    cases hs with
    | @listens item used _ hused _ =>
      have hfair : Service.Fair ⟨item, used + 1, .ok ()⟩ := ⟨by simp, by simpa using hused⟩
      obtain ⟨attempts', h⟩ := restart_continues queue used (e := .ack n) rfl hfair
      exact ⟨_, attempts', queue, h⟩
  | failed front queue waitForAck =>
    cases hs with
    | sends _ hused _ => exact retry_continues rfl hused
  | unacked front queue n =>
    cases hs with
    | listens _ hused _ => exact retry_continues rfl hused

def arrived (t : Transition DeviceQueue DeviceQueueEvent Report) : List DeviceQueueItem :=
  enqueued t.event

def resolved (t : Transition DeviceQueue DeviceQueueEvent Report) : List Resolution :=
  t.output.2.toList

def started (t : Transition DeviceQueue DeviceQueueEvent Report) : List Frame :=
  DeviceQueue.sends t.output.1

structure Account (h : Past) (services : List Service) (attempts : Nat)
    (items : List DeviceQueueItem) : Prop where
  line : flow arrived h = services.map Service.item ++ items
  report : (flow resolved h).map Resolution.report = services.map Service.report
  frames : flow started h = services.flatMap Service.frames ++ sent attempts items
  fair : ∀ s ∈ services, s.Fair

theorem Account.next {h : Past} {services : List Service} {attempts attempts' : Nat}
    {items items' : List DeviceQueueItem} {q : DeviceQueue} {e : DeviceQueueEvent}
    {served : Option Service} (ha : Account h services attempts items)
    (hc : Continues attempts items e (q.on e) served attempts' items') :
    Account (⟨q, e, ((q.on e).1.2, (q.on e).2), (q.on e).1.1⟩ :: h) (services ++ served.toList)
      attempts' items' where
  line := by
    rw [flow_cons, ha.line, List.append_assoc, List.map_append, List.append_assoc]
    exact congrArg _ hc.line
  report := by
    rw [flow_cons, List.map_append, ha.report, List.map_append]
    congr 1
    change ((q.on e).2.toList).map _ = _
    rw [← Option.toList_map, hc.report, Option.toList_map]
  frames := by
    rw [flow_cons, ha.frames, List.append_assoc, List.flatMap_append, List.append_assoc]
    exact congrArg _ hc.sends
  fair := by
    intro s hs
    obtain hs | hs := List.mem_append.mp hs
    · exact ha.fair s hs
    · exact hc.fair s (Option.mem_toList.mp hs)

theorem exists_account {h : Past} {q : DeviceQueue} (hr : Run step TimerRuns .idle h q) :
    ∃ services attempts items, Account h services attempts items ∧ Serves q attempts items := by
  induction hr with
  | start => exact ⟨[], 0, [], ⟨rfl, rfl, rfl, by simp⟩, .idle⟩
  | @next h q q' e o _ _ hs ih =>
    obtain ⟨services, attempts, items, ha, hserves⟩ := ih
    obtain ⟨served, attempts', items', hc⟩ := (q.moves e).continues hserves
    cases hs
    exact ⟨_, attempts', items', ha.next hc, hc.serves⟩

/-! The action that comes with a call leaves the timer running that the new state has to have. -/

def Patient (item : DeviceQueueItem) : Prop := item.maxWaitForDatarequest.isSome

theorem startSend_rearm {front : DeviceQueueItem} (hp : Patient front)
    (queue : List DeviceQueueItem) (timer : Option Duration) :
    rearm (startSend front queue).2 timer = (startSend front queue).1.timer := by
  obtain ⟨duration, hduration⟩ := Option.isSome_iff_exists.mp hp
  cases hwait : front.waitForDatarequest with
  | false => simp [startSend, hwait, rearm, DeviceQueue.timer]
  | true => simp [startSend, hwait, hduration, rearm, DeviceQueue.timer]

theorem restart_rearm {queue : List DeviceQueueItem} (hp : ∀ item ∈ queue, Patient item)
    (timer : Option Duration) :
    rearm (restartFromQueue queue).2 timer = (restartFromQueue queue).1.timer := by
  cases queue with
  | nil => rfl
  | cons front queue => exact startSend_rearm (hp front List.mem_cons_self) queue timer

theorem retry_rearm {front : DeviceQueueItem} {queue : List DeviceQueueItem}
    (hp : ∀ item ∈ front :: queue, Patient item) (timer : Option Duration) :
    rearm (retrySend front queue).1.2 timer = (retrySend front queue).1.1.timer := by
  unfold retrySend
  split
  · exact restart_rearm (fun item hi => hp item (List.mem_cons_of_mem _ hi)) timer
  · have hfront : Patient { front with retries := front.retries - 1 } :=
      hp front List.mem_cons_self
    exact startSend_rearm hfront queue timer

def timerLeft (q : DeviceQueue) (e : DeviceQueueEvent) : Option Duration :=
  if e = .timer then none else q.timer

theorem Moves.rearm {q : DeviceQueue} {e : DeviceQueueEvent}
    {p : (DeviceQueue × Option DeviceQueueAction) × Option Resolution} (h : Moves q e p)
    (hp : ∀ item ∈ q.items ++ enqueued e, Patient item) :
    DeviceQueue.rearm p.1.2 (q.timerLeft e) = p.1.1.timer := by
  cases h with
  | stays _ _ htimer =>
    change q.timerLeft e = q.timer
    unfold timerLeft
    split
    case isTrue he =>
      obtain hsending | rfl := htimer he
      · cases q with
        | sendStarted front queue waitForAck => rfl
        | _ => cases hsending
      · rfl
    case isFalse => rfl
  | starts item => exact startSend_rearm (hp item (by simp [enqueued])) [] _
  | joins item hbusy =>
    change q.timerLeft (.enqueue item) = (q.push item).timer
    cases q <;> rfl
  | asked front queue => rfl
  | expires front queue =>
    exact restart_rearm (fun item hi => hp item (by simp [items, hi])) _
  | sent front queue n => rfl
  | done front queue => exact restart_rearm (fun item hi => hp item (by simp [items, hi])) _
  | ackedEarly front queue n => rfl
  | acked front queue n => exact restart_rearm (fun item hi => hp item (by simp [items, hi])) _
  | failed front queue waitForAck =>
    exact retry_rearm (fun item hi => hp item (List.mem_append_left _ hi)) _
  | unacked front queue n =>
    exact retry_rearm (fun item hi => hp item (List.mem_append_left _ hi)) _

/-! A retry changes nothing else in an item. -/

section Kept
variable {P : DeviceQueueItem → Prop} (hretries : ∀ item n, P item → P { item with retries := n })

theorem startSend_items (front : DeviceQueueItem) (queue : List DeviceQueueItem) :
    (startSend front queue).1.items = front :: queue := by
  unfold startSend
  split <;> rfl

theorem restart_items (queue : List DeviceQueueItem) :
    (restartFromQueue queue).1.items = queue := by
  cases queue with
  | nil => rfl
  | cons front queue => exact startSend_items front queue

include hretries in
theorem retry_kept {front : DeviceQueueItem} {queue : List DeviceQueueItem}
    (hp : ∀ item ∈ front :: queue, P item) :
    (∀ item ∈ (retrySend front queue).1.1.items, P item) ∧
      ∀ r ∈ (retrySend front queue).2, P r.item := by
  unfold retrySend
  split
  · rw [restart_items]
    refine ⟨fun item hi => hp item (List.mem_cons_of_mem _ hi), fun r hr => ?_⟩
    cases hr
    exact hp front List.mem_cons_self
  · rw [startSend_items]
    refine ⟨fun item hi => ?_, fun r hr => by cases hr⟩
    obtain rfl | hi := List.mem_cons.mp hi
    · exact hretries front _ (hp front List.mem_cons_self)
    · exact hp item (List.mem_cons_of_mem _ hi)

theorem restart_kept {front : DeviceQueueItem} {queue : List DeviceQueueItem}
    (hp : ∀ item ∈ front :: queue, P item) (result : Except DeviceQueueError Unit) :
    (∀ item ∈ (restartFromQueue queue).1.items, P item) ∧
      ∀ r ∈ some (Resolution.mk front result), P r.item := by
  rw [restart_items]
  refine ⟨fun item hi => hp item (List.mem_cons_of_mem _ hi), fun r hr => ?_⟩
  cases hr
  exact hp front List.mem_cons_self

include hretries in
theorem Moves.kept {q : DeviceQueue} {e : DeviceQueueEvent}
    {p : (DeviceQueue × Option DeviceQueueAction) × Option Resolution} (h : Moves q e p)
    (hp : ∀ item ∈ q.items ++ enqueued e, P item) :
    (∀ item ∈ p.1.1.items, P item) ∧ ∀ r ∈ p.2, P r.item := by
  have hq : ∀ item ∈ q.items, P item := fun item hi => hp item (List.mem_append_left _ hi)
  cases h with
  | stays _ _ _ => exact ⟨hq, fun r hr => by cases hr⟩
  | starts item =>
    refine ⟨?_, fun r hr => by cases hr⟩
    rw [startSend_items]
    exact hp
  | joins item hbusy =>
    refine ⟨?_, fun r hr => by cases hr⟩
    have hitems : (q.push item).items = q.items ++ [item] := by
      cases q with
      | idle => exact absurd rfl hbusy
      | _ => rfl
    rw [hitems]
    exact hp
  | asked front queue => exact ⟨hq, fun r hr => by cases hr⟩
  | expires front queue => exact restart_kept hq _
  | sent front queue n => exact ⟨hq, fun r hr => by cases hr⟩
  | done front queue => exact restart_kept hq _
  | ackedEarly front queue n => exact ⟨hq, fun r hr => by cases hr⟩
  | acked front queue n => exact restart_kept hq _
  | failed front queue waitForAck => exact retry_kept hretries hq
  | unacked front queue n => exact retry_kept hretries hq

include hretries in
theorem run_kept {q q' : DeviceQueue} {p : Past} (hr : Run step TimerRuns q p q')
    (hq : ∀ item ∈ q.items, P item) (harrived : ∀ item ∈ flow arrived p, P item) :
    ∀ item ∈ q'.items, P item := by
  induction hr with
  | start => exact hq
  | @next p q₁ q₂ e o _ _ hs ih =>
    cases hs
    rw [flow_cons] at harrived
    have hbefore := ih fun item hi => harrived item (List.mem_append_left _ hi)
    refine ((q₁.moves e).kept hretries fun item hi => ?_).1
    obtain hi | hi := List.mem_append.mp hi
    · exact hbefore item hi
    · exact harrived item (List.mem_append_right _ hi)

end Kept

/-! A frame is with the radio from the call that starts it to the one that brings its result. -/

def sendingLeft (q : DeviceQueue) (e : DeviceQueueEvent) : Bool :=
  match e with
  | .sendResult _ => false
  | _ => q.sending

theorem startSend_sending (front : DeviceQueueItem) (queue : List DeviceQueueItem) :
    (DeviceQueue.sends (startSend front queue).2).length =
      (startSend front queue).1.sending.toNat := by
  cases hwait : front.waitForDatarequest with
  | false => simp [startSend, hwait, sending, DeviceQueue.sends]
  | true =>
    cases hmax : front.maxWaitForDatarequest <;>
      simp [startSend, hwait, hmax, sending, DeviceQueue.sends]

theorem restart_sending (queue : List DeviceQueueItem) :
    (DeviceQueue.sends (restartFromQueue queue).2).length =
      (restartFromQueue queue).1.sending.toNat := by
  cases queue with
  | nil => rfl
  | cons front queue => exact startSend_sending front queue

theorem retry_sending (front : DeviceQueueItem) (queue : List DeviceQueueItem) :
    (DeviceQueue.sends (retrySend front queue).1.2).length =
      (retrySend front queue).1.1.sending.toNat := by
  unfold retrySend
  split
  · exact restart_sending queue
  · exact startSend_sending _ queue

theorem Moves.sending {q : DeviceQueue} {e : DeviceQueueEvent}
    {p : (DeviceQueue × Option DeviceQueueAction) × Option Resolution} (h : Moves q e p) :
    (q.sendingLeft e).toNat + (DeviceQueue.sends p.1.2).length = p.1.1.sending.toNat := by
  cases h with
  | stays _ hresult _ =>
    cases e with
    | sendResult success => rw [hresult success rfl]; rfl
    | _ => rfl
  | starts item =>
    rw [startSend_sending]
    exact Nat.zero_add _
  | joins item hbusy => cases q <;> rfl
  | asked front queue => rfl
  | expires front queue =>
    rw [restart_sending]
    exact Nat.zero_add _
  | sent front queue n => rfl
  | done front queue =>
    rw [restart_sending]
    exact Nat.zero_add _
  | ackedEarly front queue n => rfl
  | acked front queue n =>
    rw [restart_sending]
    exact Nat.zero_add _
  | failed front queue waitForAck =>
    rw [retry_sending]
    exact Nat.zero_add _
  | unacked front queue n =>
    rw [retry_sending]
    exact Nat.zero_add _

def answers : DeviceQueueEvent → List Bool
  | .sendResult success => [success]
  | _ => []

def answered (t : Transition DeviceQueue DeviceQueueEvent Report) : List Bool := answers t.event

theorem sendingLeft_answers (q : DeviceQueue) (e : DeviceQueueEvent)
    (h : answers e ≠ [] → q.sending) :
    q.sending.toNat = (q.sendingLeft e).toNat + (answers e).length := by
  cases e with
  | sendResult success => rw [h (by simp [answers])]; rfl
  | _ => rfl

/-- In a run with one result for a frame that is with the radio when the run begins. -/
theorem sending_of_run {q q' : DeviceQueue} {p : Past} (hr : Run step TimerRuns q p q')
    (hfirst : flow answered p ≠ [] → q.sending) (hone : (flow answered p).length ≤ 1) :
    q.sending.toNat + (flow started p).length =
      q'.sending.toNat + (flow answered p).length := by
  induction hr with
  | start => rfl
  | @next p q₁ q₂ e o _ _ hs ih =>
    rw [flow_cons, List.length_append] at hone
    cases hs
    have hmoves := (q₁.moves e).sending
    have hbefore := ih (fun hne => hfirst (by simp [hne])) (by omega)
    have hleft := sendingLeft_answers q₁ e fun hne => ?_
    · rw [flow_cons, flow_cons, List.length_append, List.length_append]
      change _ + (_ + (DeviceQueue.sends (q₁.on e).1.2).length) = _ + (_ + (answers e).length)
      omega
    ·
      have hnone : flow answered p = [] := by
        have hpos := List.length_pos_iff.mpr hne
        change _ + (answers e).length ≤ 1 at hone
        exact List.length_eq_zero_iff.mp (by omega)
      have hq : q.sending := hfirst (by simpa [hnone, answered] using hne)
      rw [hq, hnone] at hbefore
      cases hq₁ : q₁.sending with
      | true => rfl
      | false =>
        rw [hq₁] at hbefore
        simp at hbefore

end DeviceQueue

end ZigbeeStack.OldSrc
