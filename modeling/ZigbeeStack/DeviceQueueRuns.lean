import ZigbeeStack.DeviceQueueSpec
import ZigbeeStack.Runs

/-! Runs of one device queue: what a reported success says about the run, and when a poll that
returned pending returns pending again. -/
namespace ZigbeeStack.DeviceQueue
open Runs
variable {τ : Type}

/- The calls of a queue's owner. Time passes between polls, which name their instant. -/
inductive Event where
  | insert (pib : PIB) (entry : DataRequest)
  | remove (key : UniqueKey)
  | processDatarequest
  | processSendResult (key : UniqueKey) (success : Bool)
  | processAcknowledge (seqNr : Option UInt8) (payload : List UInt8)
  | poll (pib : PIB) (now : Instant) (cx : Waker) (sendKey : UniqueKey)
deriving DecidableEq

inductive Output where
  | none
  | changed (result : Bool)
  | polled (action : Poll DeviceQueueAction)
deriving DecidableEq

abbrev Step (τ : Type) := Transition (DeviceQueue τ) Event Output
abbrev Past (τ : Type) := History (DeviceQueue τ) Event Output

def submitted (t : Step τ) : Option DataRequest :=
  match t.event with
  | .insert _ entry => some entry
  | _ => none

def sent (t : Step τ) : Option (UniqueKey × Frame) :=
  match t.output with
  | .polled (.ready (.sendFrame key frame)) => some (key, frame)
  | _ => none

def drawnKeys (t : Step τ) : List UniqueKey :=
  ((submitted t).map (·.key)).toList ++ ((sent t).map (·.1)).toList

/-- A key is new when it is drawn. -/
def FreshKeys (h : Past τ) (_ : DeviceQueue τ) : Event → Prop
  | .insert _ entry => entry.key ∉ h.flatMap drawnKeys
  | .poll _ _ _ sendKey => sendKey ∉ h.flatMap drawnKeys
  | _ => True

instance (h : Past τ) (q : DeviceQueue τ) : (e : Event) → Decidable (FreshKeys h q e)
  | .insert _ entry => inferInstanceAs (Decidable (entry.key ∉ h.flatMap drawnKeys))
  | .poll _ _ _ sendKey => inferInstanceAs (Decidable (sendKey ∉ h.flatMap drawnKeys))
  | .remove _ => .isTrue trivial
  | .processDatarequest => .isTrue trivial
  | .processSendResult _ _ => .isTrue trivial
  | .processAcknowledge _ _ => .isTrue trivial

/-- The newest frame of the history went out under the key `s`, as `f`, and was built from the
request `r` at the front of the queue; `later` is the history since. -/
structure LastSend (h later : Past τ) (s : UniqueKey) (f : Frame) (r : DataRequest) : Prop where
  newest : ∀ v ∈ later, sent v = none
  split : ∃ u earlier, h = later ++ u :: earlier ∧ sent u = some (s, f) ∧
    u.before.requests.head? = some r ∧
    ∃ pib now cx morePending, u.event = .poll pib now cx s ∧
      f = (createFrame r pib morePending).1.2

def SentOut (later : Past τ) (s : UniqueKey) : Prop :=
  ∃ v ∈ later, v.event = .processSendResult s true

/-- The payload `p` is that of an acknowledge of `f` where `r` asks for one, and empty where it
does not. -/
def Answered (later : Past τ) (r : DataRequest) (f : Frame) (p : List UInt8) : Prop :=
  if r.acknowledgeRequest then ∃ v ∈ later, v.event = .processAcknowledge f.sequenceNumber p
  else p = []

def Transmission (h : Past τ) (front : Option DataRequest) : DeviceQueueState τ → Prop
  | .idle _ => True
  | .sending s ack payload => ∃ r later f, front = some r ∧ LastSend h later s f r ∧
      match ack with
      | some n => r.acknowledgeRequest = true ∧ f.sequenceNumber = some n
      | none => Answered later r f payload
  | .waitingForAck n _ => ∃ r later s f, front = some r ∧ LastSend h later s f r ∧
      SentOut later s ∧ r.acknowledgeRequest = true ∧ f.sequenceNumber = some n
  | .haveResult (.ok p) => ∃ r later s f, front = some r ∧ LastSend h later s f r ∧
      SentOut later s ∧ Answered later r f p
  | .haveResult (.error _) => True

theorem LastSend.later {h later : Past τ} {s : UniqueKey} {f : Frame} {r : DataRequest}
    (hl : LastSend h later s f r) {t : Step τ} (ht : sent t = none) :
    LastSend (t :: h) (t :: later) s f r := by
  obtain ⟨u, earlier, rfl, hu⟩ := hl.split
  exact ⟨by simpa [ht] using hl.newest, u, earlier, rfl, hu⟩

theorem SentOut.later {later : Past τ} {s : UniqueKey} (hs : SentOut later s) (t : Step τ) :
    SentOut (t :: later) s := by
  obtain ⟨v, hv, he⟩ := hs
  exact ⟨v, by simp [hv], he⟩

theorem Answered.later {later : Past τ} {r : DataRequest} {f : Frame} {p : List UInt8}
    (ha : Answered later r f p) (t : Step τ) : Answered (t :: later) r f p := by
  unfold Answered at *
  split
  · rename_i hack
    obtain ⟨v, hv, he⟩ := (if_pos hack).mp ha
    exact ⟨v, by simp [hv], he⟩
  · rename_i hack
    exact (if_neg hack).mp ha

/-- A step that sends nothing leaves a transmission as it is, as long as its request stays in
front. -/
theorem Transmission.keep {h : Past τ} {front front' : Option DataRequest}
    {state : DeviceQueueState τ} (ht : Transmission h front state)
    (hfront : ∀ r, front = some r → front' = some r) {t : Step τ} (hsent : sent t = none) :
    Transmission (t :: h) front' state := by
  cases state with
  | idle _ => trivial
  | sending s ack payload =>
    obtain ⟨r, later, f, hr, hl, ha⟩ := ht
    refine ⟨r, t :: later, f, hfront r hr, hl.later hsent, ?_⟩
    cases ack with
    | some n => exact ha
    | none => exact Answered.later ha t
  | waitingForAck n timeout =>
    obtain ⟨r, later, s, f, hr, hl, hs, ha⟩ := ht
    exact ⟨r, t :: later, s, f, hfront r hr, hl.later hsent, hs.later t, ha⟩
  | haveResult result =>
    cases result with
    | error _ => trivial
    | ok p =>
      obtain ⟨r, later, s, f, hr, hl, hs, ha⟩ := ht
      exact ⟨r, t :: later, s, f, hfront r hr, hl.later hsent, hs.later t, ha.later t⟩

/-- A failed transmission is either dropped for a later attempt or kept as an error. -/
theorem Transmission.sendFailed (h : Past τ) (front : Option DataRequest) (q : DeviceQueue τ) :
    Transmission h front q.sendFailed.state := by
  unfold DeviceQueue.sendFailed
  repeat' split
  all_goals trivial

theorem Transmission.processAcknowledge {h : Past τ} {q : DeviceQueue τ} {n : Option UInt8}
    {payload : List UInt8} {t : Step τ} (ht : Transmission h q.requests.head? q.state)
    (he : t.event = .processAcknowledge n payload) (hsent : sent t = none) :
    Transmission (t :: h) q.requests.head? (q.processAcknowledge n payload).state := by
  have hkeep := ht.keep (fun _ hr => hr) hsent
  cases hst : q.state with
  | sending s ack p =>
    cases ack with
    | none => simpa [DeviceQueue.processAcknowledge, hst] using hkeep
    | some a =>
      by_cases hn : some a = n
      · subst hn
        rw [hst] at ht
        obtain ⟨r, later, f, hr, hl, hack, hseq⟩ := ht
        simp only [DeviceQueue.processAcknowledge, hst, Option.isSome_some, and_self, if_true]
        refine ⟨r, t :: later, f, hr, hl.later hsent, ?_⟩
        rw [Answered, if_pos hack]
        exact ⟨t, List.mem_cons_self, by rw [he, hseq]⟩
      · simpa [DeviceQueue.processAcknowledge, hst, hn] using hkeep
  | waitingForAck a timeout =>
    by_cases hn : n = some a
    · subst hn
      rw [hst] at ht
      obtain ⟨r, later, s, f, hr, hl, hout, hack, hseq⟩ := ht
      simp only [DeviceQueue.processAcknowledge, hst, if_true]
      refine ⟨r, t :: later, s, f, hr, hl.later hsent, hout.later t, ?_⟩
      rw [Answered, if_pos hack]
      exact ⟨t, List.mem_cons_self, by rw [he, hseq]⟩
    · simpa [DeviceQueue.processAcknowledge, hst, hn] using hkeep
  | _ => simpa [DeviceQueue.processAcknowledge, hst] using hkeep

variable [Sleep τ]

def step (q : DeviceQueue τ) : Event → Option (DeviceQueue τ × Output)
  | .insert pib entry => some ((q.insert pib entry).2, .changed (q.insert pib entry).1)
  | .remove key => some ((q.remove key).2, .changed (q.remove key).1)
  | .processDatarequest => some (q.processDatarequest, .none)
  | .processSendResult key success => some (q.processSendResult key success, .none)
  | .processAcknowledge seqNr payload => some (q.processAcknowledge seqNr payload, .none)
  | .poll pib now cx sendKey =>
    let (action, q, _) := q.pollNextAction pib now cx sendKey
    some (q, .polled action)

structure Inv (h : Past τ) (q : DeviceQueue τ) : Prop where
  requests : ∀ r ∈ q.requests, r ∈ h.filterMap submitted
  transmission : Transmission h q.requests.head? q.state

theorem Transmission.settles {h : Past τ} {front : Option DataRequest} {now : Instant}
    {q q₁ : DeviceQueue τ} (ht : Transmission h front q.state) (hs : Settles now q q₁) :
    Transmission h front q₁.state := by
  cases hs with
  | waitsForDevice _ _ _ => exact ht
  | waitsForRadio _ _ => exact ht
  | waitsForAck _ hst _ =>
    rw [hst] at ht
    exact ht
  | leavesToDevice _ _ _ _ => trivial
  | retries _ _ _ _ _ => trivial

theorem Transmission.poll {h : Past τ} {q q' : DeviceQueue τ} {pib pib' : PIB} {now : Instant}
    {cx : Waker} {sendKey : UniqueKey} {action : Poll DeviceQueueAction}
    (ht : Transmission h q.requests.head? q.state)
    (hp : PollOutcome q pib now cx sendKey (action, q', pib')) :
    Transmission (⟨q, .poll pib now cx sendKey, .polled action, q'⟩ :: h)
      q'.requests.head? q'.state := by
  have hreq := hp.requests
  cases hp with
  | setPending _ => exact ht.keep (fun _ hr => hr) rfl
  | empty _ _ => trivial
  | @sendFrame front rest _ _ hes _ _ morePending =>
    have hfront : q.requests.head? = some front.data := by simp [DeviceQueue.requests, hes]
    refine ⟨front.data, [], _, hfront, ⟨by simp, _, h, rfl, rfl, hfront, pib, now, cx,
      morePending, rfl, rfl⟩, ?_⟩
    cases hack : front.data.acknowledgeRequest <;> simp [hack, Answered]
  | noAck _ _ _ _ _ _ => trivial
  | result _ _ _ => trivial
  | @expired q₁ i k es _ hs hexp =>
    -- an expired front gives up its transmission, an entry behind it leaves the front as it is
    by_cases hi : i = 0
    · simp only [hi, if_true]
      trivial
    simp only [hi, if_false]
    refine (ht.settles hs).keep (fun r hr => ?_) rfl
    obtain ⟨earlier, e, later, hview, rfl, -, hes⟩ := pollTimeouts_some hexp
    rw [← hs.requests, requests_eq_view, hview] at hr
    rw [requests_eq_view, hes]
    cases earlier with
    | nil => exact absurd rfl hi
    | cons _ _ => simpa using hr
  | waits _ hs _ =>
    refine (ht.settles hs).keep (fun r hr => ?_) rfl
    rwa [hreq]

theorem Transmission.processSendResult {h : Past τ} {q : DeviceQueue τ} {k : UniqueKey}
    {success : Bool} {t : Step τ} (ht : Transmission h q.requests.head? q.state)
    (he : t.event = .processSendResult k success) (hsent : sent t = none) :
    Transmission (t :: h) q.requests.head? (q.processSendResult k success).state := by
  have hkeep := ht.keep (fun _ hr => hr) hsent
  cases hst : q.state with
  | sending s ack payload =>
    by_cases hk : s = k
    · subst hk
      cases success with
      | false =>
        simp only [DeviceQueue.processSendResult, hst, if_true]
        exact .sendFailed _ _ q
      | true =>
        rw [hst] at ht
        obtain ⟨r, later, f, hr, hl, ha⟩ := ht
        have hout : SentOut (t :: later) s := ⟨t, List.mem_cons_self, he⟩
        cases ack with
        | some n =>
          simp only [DeviceQueue.processSendResult, hst, if_true]
          exact ⟨r, t :: later, s, f, hr, hl.later hsent, hout, ha⟩
        | none =>
          simp only [DeviceQueue.processSendResult, hst, if_true]
          exact ⟨r, t :: later, s, f, hr, hl.later hsent, hout, Answered.later ha t⟩
    · simpa [DeviceQueue.processSendResult, hst, hk] using hkeep
  | _ => simpa [DeviceQueue.processSendResult, hst] using hkeep

/-- What one call does to the requests in the queue: at most the submitted one is added. -/
theorem requests_step {q q' : DeviceQueue τ} {e : Event} {o : Output}
    (hs : step q e = some (q', o)) {r : DataRequest} (hr : r ∈ q'.requests) :
    r ∈ q.requests ∨ submitted (⟨q, e, o, q'⟩ : Step τ) = some r := by
  cases e with
  | insert pib entry =>
    simp only [step, Option.some.injEq, Prod.mk.injEq] at hs
    obtain ⟨rfl, -⟩ := hs
    rw [insert_requests] at hr
    split at hr
    · exact .inl hr
    · simpa [submitted, eq_comm] using hr
  | remove key =>
    simp only [step, Option.some.injEq, Prod.mk.injEq] at hs
    obtain ⟨rfl, -⟩ := hs
    rw [remove_requests] at hr
    exact .inl (List.mem_of_mem_filter hr)
  | poll pib now cx sendKey =>
    simp only [step, Option.some.injEq, Prod.mk.injEq] at hs
    obtain ⟨rfl, -⟩ := hs
    exact .inl ((q.pollNextAction_outcome pib now cx sendKey).mem_requests hr)
  | _ =>
    simp only [step, Option.some.injEq, Prod.mk.injEq] at hs
    obtain ⟨rfl, -⟩ := hs
    left
    simpa using hr

theorem Transmission.step {h : Past τ} {q q' : DeviceQueue τ} {e : Event} {o : Output}
    (ht : Transmission h q.requests.head? q.state) (hs : step q e = some (q', o)) :
    Transmission (⟨q, e, o, q'⟩ :: h) q'.requests.head? q'.state := by
  cases e with
  | insert pib entry =>
    simp only [DeviceQueue.step, Option.some.injEq, Prod.mk.injEq] at hs
    obtain ⟨rfl, rfl⟩ := hs
    rw [insert_state]
    refine ht.keep (fun r hr => ?_) rfl
    rw [insert_requests]
    split
    · exact hr
    · rw [List.head?_append, hr]
      rfl
  | remove key =>
    simp only [DeviceQueue.step, Option.some.injEq, Prod.mk.injEq] at hs
    obtain ⟨rfl, rfl⟩ := hs
    rw [remove_state]
    split
    · trivial
    · rename_i hfront
      rw [remove_head? (by simpa using hfront)]
      exact ht.keep (fun _ hr => hr) rfl
  | processDatarequest =>
    simp only [DeviceQueue.step, Option.some.injEq, Prod.mk.injEq] at hs
    obtain ⟨rfl, rfl⟩ := hs
    rw [processDatarequest_requests]
    rcases q.processDatarequest_state with hidle | hsame
    · rw [hidle]
      trivial
    · rw [hsame]
      exact ht.keep (fun _ hr => hr) rfl
  | processSendResult key success =>
    simp only [DeviceQueue.step, Option.some.injEq, Prod.mk.injEq] at hs
    obtain ⟨rfl, rfl⟩ := hs
    rw [processSendResult_requests]
    exact ht.processSendResult rfl rfl
  | processAcknowledge seqNr payload =>
    simp only [DeviceQueue.step, Option.some.injEq, Prod.mk.injEq] at hs
    obtain ⟨rfl, rfl⟩ := hs
    rw [processAcknowledge_requests]
    exact ht.processAcknowledge rfl rfl
  | poll pib now cx sendKey =>
    simp only [DeviceQueue.step, Option.some.injEq, Prod.mk.injEq] at hs
    obtain ⟨rfl, rfl⟩ := hs
    exact ht.poll (q.pollNextAction_outcome pib now cx sendKey)

theorem inv_of_run {h : Past τ} {q : DeviceQueue τ} (hr : Run step FreshKeys new h q) :
    Inv h q := by
  refine Run.invariant ⟨by simp [new, requests], trivial⟩ ?_ hr
  intro h q e q' o _ hi _ hs
  refine ⟨fun r hr' => ?_, hi.transmission.step hs⟩
  rw [List.filterMap_cons]
  rcases requests_step hs hr' with hold | hnew
  · have := hi.requests r hold
    split <;> simp [this]
  · simp [hnew]

/-- A key names one submitted request. -/
theorem submitted_unique {h : Past τ} {q : DeviceQueue τ} (hr : Run step FreshKeys new h q)
    {r r' : DataRequest} (hm : r ∈ h.filterMap submitted) (hm' : r' ∈ h.filterMap submitted)
    (hk : r.key = r'.key) : r = r' := by
  refine List.inj_on_of_nodup_map (Run.labels_nodup ?_ hr) hm hm' hk
  intro h q e q' o a hrely _ ha hmem
  cases e with
  | insert pib entry =>
    obtain rfl : entry = a := by simpa [submitted] using ha
    obtain ⟨r, hr, hkey⟩ := List.mem_map.mp hmem
    obtain ⟨t, ht, hsub⟩ := List.mem_filterMap.mp hr
    exact hrely (List.mem_flatMap.mpr ⟨t, ht, by simp [drawnKeys, hsub, hkey]⟩)
  | _ => cases ha

/- A direct request that asks for an acknowledge, and the calls up to the wait for it. -/
def directRequest : DataRequest where
  key := ⟨0⟩
  destination := some ⟨⟨1⟩, .short ⟨2⟩⟩
  sourceMode := .short
  acknowledgeRequest := true
  indirect := false
  content := .data ⟨[7]⟩

def defaultPib : PIB := PIB.new ⟨1⟩ 11 0 0 0

def untilAck : List Event :=
  [.insert defaultPib directRequest, .poll defaultPib 0 0 ⟨1⟩, .poll defaultPib 0 0 ⟨1⟩,
    .processSendResult ⟨1⟩ true, .poll defaultPib 0 0 ⟨2⟩]

def acknowledged : List Event :=
  untilAck ++ [.processAcknowledge (some 0) [9], .poll defaultPib 0 0 ⟨2⟩]
def overdue : List Event :=
  untilAck ++ [.poll defaultPib ackTimeout 0 ⟨2⟩, .poll defaultPib ackTimeout 0 ⟨2⟩]

def played (es : List Event) : Past SleepTimer × DeviceQueue SleepTimer :=
  replay step FreshKeys new es

theorem played_run (es : List Event) : Run step FreshKeys new (played es).1 (played es).2 :=
  run_replay es

/-- No false success. When the queue reports the request with key `k` as sent, answered by `p`,
then the newest frame of the queue was built from that very request and went out, and `p` is the
payload of an acknowledge of that frame, or empty for a request that asked for none. -/
theorem no_false_success {t : Step τ} {h : Past τ} {q : DeviceQueue τ}
    (hr : Run step FreshKeys new (t :: h) q) {k : UniqueKey} {p : List UInt8}
    (ht : t.output = .polled (.ready (.reportResult k (.ok p)))) :
    ∃ r later s f, (∀ r', r' ∈ h.filterMap submitted ∧ r'.key = k ↔ r' = r) ∧
      LastSend h later s f r ∧ SentOut later s ∧ Answered later r f p := by
  cases hr with
  | @next _ q _ e o hr _ hs =>
    obtain rfl : o = .polled (.ready (.reportResult k (.ok p))) := ht
    cases e with
    | poll pib now cx sendKey =>
      simp only [step, Option.some.injEq, Prod.mk.injEq, Output.polled.injEq] at hs
      obtain ⟨-, ha⟩ := hs
      have hp := q.pollNextAction_outcome pib now cx sendKey
      generalize q.pollNextAction pib now cx sendKey = out at hp ha
      cases hp with
      | @result front rest result _ hes hst =>
        obtain ⟨rfl, rfl⟩ : front.data.key = k ∧ result = .ok p := by simpa using ha
        have hi := inv_of_run hr
        obtain ⟨r, later, s, f, hfront, hl, hout, hans⟩ := hst ▸ hi.transmission
        obtain rfl : front.data = r := by simpa [requests, hes] using hfront
        refine ⟨front.data, later, s, f, fun r' => ⟨fun hr' => ?_, ?_⟩, hl, hout, hans⟩
        · exact submitted_unique hr hr'.1 (hi.requests _ (by simp [requests, hes])) hr'.2
        · rintro rfl
          exact ⟨hi.requests _ (by simp [requests, hes]), rfl⟩
      | _ => simp at ha
    | _ => simp [step] at hs

theorem no_false_success_acknowledged : ∃ t h, (played acknowledged).1 = t :: h ∧
    ∃ r later s f, (∀ r', r' ∈ h.filterMap submitted ∧ r'.key = ⟨0⟩ ↔ r' = r) ∧
      LastSend h later s f r ∧ SentOut later s ∧ Answered later r f [9] :=
  ⟨_, _, rfl, no_false_success (played_run acknowledged) rfl⟩

/-! Polling twice. -/

structure Settled (now : Instant) (q : DeviceQueue τ) : Prop where
  reported : q.lastPendingReported = some q.shouldBePending
  nonempty : q.entries ≠ []
  state : match q.state with
    | .idle datarequest => datarequest = false ∧ q.shouldBePending = true
    | .sending _ _ _ => True
    | .waitingForAck _ timeout => (Sleep.poll now timeout).1 = false
    | .haveResult _ => False
  timeouts : (pollTimeouts now q.entries).1 = none

/-- The retry that a poll prepares and then waits with: the acknowledge of a direct front request
is overdue, a retry is left, and nothing else is ready. -/
structure RetryStalls (now : Instant) (q : DeviceQueue τ) : Prop where
  reported : q.lastPendingReported = some q.shouldBePending
  overdue : ∃ n timeout, q.state = .waitingForAck n timeout ∧ (Sleep.poll now timeout).1 = true
  front : ∃ front rest, q.entries = front :: rest ∧ front.data.indirect = false ∧
    0 < front.retriesLeft
  timeouts : ∀ e ∈ q.entries, (Sleep.poll now e.timeout).1 = false

omit [Sleep τ] in
theorem shouldBePending_cons {q : DeviceQueue τ} {front : DeviceQueueEntry τ}
    {rest : List (DeviceQueueEntry τ)} (hes : q.entries = front :: rest) :
    q.shouldBePending = front.data.indirect := by
  simp [shouldBePending, hes]

theorem Settled.timer_pending {now : Instant} {q : DeviceQueue τ} (hq : Settled now q) {n : UInt8}
    {timeout timeout' : τ} (hst : q.state = .waitingForAck n timeout) :
    Sleep.poll now timeout ≠ (true, timeout') := by
  intro hp
  have hstate := hq.state
  rw [hst] at hstate
  simp [hp] at hstate

theorem Settled.settles {now : Instant} {q q₁ : DeviceQueue τ} (hq : Settled now q)
    (hs : Settles now q q₁) : q₁.entries = q.entries := by
  cases hs with
  | waitsForDevice _ _ _ => rfl
  | waitsForRadio _ _ => rfl
  | waitsForAck _ _ _ => rfl
  | leavesToDevice _ hst hp _ => exact absurd hp (hq.timer_pending hst)
  | retries _ hst hp _ _ => exact absurd hp (hq.timer_pending hst)

theorem Settled.pending {now : Instant} {q : DeviceQueue τ} (hq : Settled now q) (pib : PIB)
    (cx : Waker) (sendKey : UniqueKey) : (q.pollNextAction pib now cx sendKey).1 = .pending := by
  have hp := q.pollNextAction_outcome pib now cx sendKey
  generalize q.pollNextAction pib now cx sendKey = out at hp
  cases hp with
  | setPending hrep => exact absurd hq.reported hrep
  | empty _ hes => exact absurd hes hq.nonempty
  | sendFrame _ hes hst hgo _ =>
    have hstate := hq.state
    rw [hst, shouldBePending_cons hes] at hstate
    obtain ⟨rfl, hind⟩ := hstate
    simp [hind] at hgo
  | noAck _ _ hst hp _ _ => exact absurd hp (hq.timer_pending hst)
  | result _ _ hst =>
    have hstate := hq.state
    rw [hst] at hstate
    exact hstate.elim
  | expired _ hs hexp =>
    have htimeouts := hq.timeouts
    rw [← hq.settles hs, hexp] at htimeouts
    cases htimeouts
  | waits _ _ _ => rfl

theorem settled_of_pending [LawfulSleep τ] {now : Instant} {q q' : DeviceQueue τ} {pib pib' : PIB}
    {cx : Waker} {sendKey : UniqueKey}
    (hp : PollOutcome q pib now cx sendKey (.pending, q', pib'))
    (hretry : ¬ RetryStalls now q) : Settled now q' := by
  have hreq : q'.requests = q.requests := hp.requests
  have hshould : q'.shouldBePending = q.shouldBePending := shouldBePending_of_requests hreq
  cases hp with
  | @waits q₁ es hrep hs htimeouts =>
    have hentries : es.map DeviceQueueEntry.view = q₁.entries.map DeviceQueueEntry.view :=
      pollTimeouts_none htimeouts
    have hlast : q₁.lastPendingReported = q.lastPendingReported := by cases hs <;> rfl
    have hnonempty : q₁.entries ≠ [] := by cases hs <;> simp [*]
    refine ⟨?_, ?_, ?_, pollTimeouts_again htimeouts⟩
    · rw [hshould, ← hrep]
      exact hlast
    · rintro rfl
      exact hnonempty (List.map_eq_nil_iff.mp hentries.symm)
    · rw [hshould]
      cases hs with
      | waitsForDevice hes hst hind =>
        dsimp only
        rw [hst, shouldBePending_cons hes]
        exact ⟨rfl, hind⟩
      | waitsForRadio _ hst =>
        dsimp only
        rw [hst]
        trivial
      | waitsForAck _ _ hp =>
        have hagain := LawfulSleep.pending_again now _ (congrArg Prod.fst hp)
        rwa [hp] at hagain
      | leavesToDevice hes _ _ hind =>
        rw [shouldBePending_cons hes]
        exact ⟨rfl, hind⟩
      | @retries front rest _ _ _ hes hst hp hind hleft =>
        have hnone := pollTimeouts_none_iff.mp (congrArg Prod.fst htimeouts)
        refine absurd ⟨hrep, ⟨_, _, hst, congrArg Prod.fst hp⟩, ⟨front, rest, hes, hind, hleft⟩, ?_⟩
          hretry
        simpa [hes] using hnone

theorem RetryStalls.settles {now : Instant} {q q₁ : DeviceQueue τ} (hq : RetryStalls now q)
    (hs : Settles now q q₁) : q₁.state = .idle false ∧ (pollTimeouts now q₁.entries).1 = none := by
  obtain ⟨n, timeout, hst, hready⟩ := hq.overdue
  obtain ⟨front, rest, hes, hind, -⟩ := hq.front
  have htimeouts := hq.timeouts
  cases hs with
  | waitsForDevice _ hst' _ => simp [hst'] at hst
  | waitsForRadio _ hst' => simp [hst'] at hst
  | waitsForAck _ hst' hp =>
    obtain ⟨-, rfl⟩ : _ ∧ _ = timeout := by simpa [hst'] using hst
    simp [hp] at hready
  | leavesToDevice hes' _ _ hind' =>
    obtain ⟨rfl, -⟩ : _ = front ∧ _ := by simpa [hes'] using hes
    simp [hind'] at hind
  | retries hes' _ _ _ _ =>
    rw [hes'] at htimeouts
    exact ⟨rfl, pollTimeouts_none_iff.mpr (by simpa using htimeouts)⟩

theorem RetryStalls.pending {now : Instant} {q : DeviceQueue τ} (hq : RetryStalls now q)
    (pib : PIB) (cx : Waker) (sendKey : UniqueKey) :
    (q.pollNextAction pib now cx sendKey).1 = .pending ∧
      (q.pollNextAction pib now cx sendKey).2.1.state = .idle false := by
  obtain ⟨n, timeout, hst, -⟩ := hq.overdue
  obtain ⟨front, rest, hes, hind, hleft⟩ := hq.front
  have hp := q.pollNextAction_outcome pib now cx sendKey
  generalize q.pollNextAction pib now cx sendKey = out at hp ⊢
  cases hp with
  | setPending hrep => exact absurd hq.reported hrep
  | empty _ hes' => simp [hes'] at hes
  | sendFrame _ _ hst' _ _ => simp [hst'] at hst
  | noAck _ hes' _ _ _ hnone =>
    obtain ⟨rfl, -⟩ : _ = front ∧ _ := by simpa [hes'] using hes
    omega
  | result _ _ hst' => simp [hst'] at hst
  | expired _ hs hexp =>
    have htimeouts := (hq.settles hs).2
    rw [hexp] at htimeouts
    cases htimeouts
  | waits _ hs _ => exact ⟨rfl, (hq.settles hs).1⟩

/-- After a stalled retry the next poll has something to do. -/
theorem RetryStalls.not_pending {now : Instant} {q : DeviceQueue τ} (hq : RetryStalls now q)
    (pib pib' : PIB) (cx cx' : Waker) (sendKey sendKey' : UniqueKey) :
    ((q.pollNextAction pib now cx sendKey).2.1.pollNextAction pib' now cx' sendKey').1 ≠
      .pending := by
  obtain ⟨hpending, hidle⟩ := hq.pending pib cx sendKey
  have hp := q.pollNextAction_outcome pib now cx sendKey
  generalize q.pollNextAction pib now cx sendKey = out at hp hpending hidle ⊢
  obtain ⟨action, q', pib₁⟩ := out
  obtain rfl : action = .pending := hpending
  have hshould : q'.shouldBePending = q.shouldBePending :=
    shouldBePending_of_requests hp.requests
  intro hagain
  have hp' := q'.pollNextAction_outcome pib' now cx' sendKey'
  dsimp only at hagain hidle
  generalize q'.pollNextAction pib' now cx' sendKey' = out' at hp' hagain
  cases hp' with
  | waits _ hs _ =>
    obtain ⟨front, rest, hes, hind, -⟩ := hq.front
    cases hs with
    | waitsForDevice hes' _ hind' =>
      rw [shouldBePending_cons hes', shouldBePending_cons hes, hind, hind'] at hshould
      cases hshould
    | waitsForRadio _ hst => simp [hst] at hidle
    | waitsForAck _ hst _ => simp [hst] at hidle
    | leavesToDevice _ hst _ _ => simp [hst] at hidle
    | retries _ hst _ _ _ => simp [hst] at hidle
  | _ => cases hagain

/-- A poll that returned pending returns pending again at the same instant, unless it has just
stalled a retry. -/
theorem pending_again_iff [LawfulSleep τ] {h : Past τ} {t u : Step τ} {q : DeviceQueue τ}
    (hr : Run step FreshKeys new (u :: t :: h) q) {pib pib' : PIB} {now : Instant}
    {cx cx' : Waker} {sendKey sendKey' : UniqueKey} (ht : t.event = .poll pib now cx sendKey)
    (hu : u.event = .poll pib' now cx' sendKey') :
    (t.output = .polled .pending → u.output = .polled .pending) ↔
      ¬ RetryStalls now t.before := by
  cases hr with
  | @next _ q₁ q₂ e' o' hr _ hsu =>
    cases hr with
    | @next _ q _ e o _ _ hst =>
      obtain rfl : e = .poll pib now cx sendKey := ht
      obtain rfl : e' = .poll pib' now cx' sendKey' := hu
      simp only [step, Option.some.injEq, Prod.mk.injEq] at hst hsu
      obtain ⟨rfl, rfl⟩ := hst
      obtain ⟨rfl, rfl⟩ := hsu
      simp only [Output.polled.injEq]
      constructor
      · intro hagain hq
        exact hq.not_pending pib pib' cx cx' sendKey sendKey' (hagain (hq.pending _ _ _).1)
      · intro hq hpending
        have hp := q.pollNextAction_outcome pib now cx sendKey
        generalize q.pollNextAction pib now cx sendKey = out at hp hpending ⊢
        obtain ⟨action, q', pib₁⟩ := out
        obtain rfl : action = .pending := hpending
        exact (settled_of_pending hp hq).pending pib' cx' sendKey'

theorem pending_again_iff_overdue : ∃ u t h, (played overdue).1 = u :: t :: h ∧
    ((t.output = .polled .pending → u.output = .polled .pending) ↔
      ¬ RetryStalls ackTimeout t.before) :=
  ⟨_, _, _, rfl, pending_again_iff (played_run overdue) rfl rfl⟩

/-- The poll that finds the acknowledge overdue returns pending, the next one sends again. -/
theorem pending_not_stable : ¬ ∀ (h : Past SleepTimer) (q : DeviceQueue SleepTimer),
    Run step FreshKeys new h q → ∀ pib now cx sendKey,
      (q.pollNextAction pib now cx sendKey).1 = .pending →
      ((q.pollNextAction pib now cx sendKey).2.1.pollNextAction pib now cx sendKey).1 =
        .pending := by
  intro hall
  cases hall _ _ (played_run untilAck) defaultPib ackTimeout 0 ⟨2⟩ rfl

end ZigbeeStack.DeviceQueue
