import ZigbeeStack.DeviceQueueOrder

/-! How often a device queue transmits a request, and which failures it reports. -/
namespace ZigbeeStack.DeviceQueue
open Runs
variable {τ : Type}

def attempts (h : Past τ) (r : DataRequest) : Nat := (h.filterMap transmitted).count r

def views (q : DeviceQueue τ) : List (DataRequest × Nat) := q.entries.map DeviceQueueEntry.view

/-- The retry limit at the time of the request's insertion. -/
def Limit (h : Past τ) (r : DataRequest) (limit : Nat) : Prop :=
  ∃ t ∈ h, ∃ pib, t.event = .insert pib r ∧ limit = pib.macMaxFrameRetries.toNat

theorem transmitted_of_not_sent {t : Step τ} (ht : sent t = none) : transmitted t = none := by
  simp [transmitted, ht]

theorem attempts_of_not_transmitted {h : Past τ} {r : DataRequest} {t : Step τ}
    (ht : transmitted t = none) : attempts (t :: h) r = attempts h r := by
  rw [attempts, List.filterMap_cons_none ht, attempts]

theorem attempts_of_not_sent {h : Past τ} {r : DataRequest} {t : Step τ} (ht : sent t = none) :
    attempts (t :: h) r = attempts h r :=
  attempts_of_not_transmitted (transmitted_of_not_sent ht)

theorem attempts_of_transmitted {h : Past τ} {r r' : DataRequest} {t : Step τ}
    (ht : transmitted t = some r') :
    attempts (t :: h) r = attempts h r + if r' = r then 1 else 0 := by
  rw [attempts, List.filterMap_cons_some ht, List.count_cons, attempts]
  simp

variable [Sleep τ]

/-- The step ends the transmission with key `s` without success: the radio could not send the
frame, or its acknowledge is overdue. -/
def Fails (s : UniqueKey) (u : Step τ) : Prop :=
  (u.event = .processSendResult s false ∧ ∃ ack payload, u.before.state = .sending s ack payload) ∨
    ∃ n timeout pib now cx k, u.before.state = .waitingForAck n timeout ∧
      u.event = .poll pib now cx k ∧ (Sleep.poll now timeout).1 = true ∧
      ∀ pending, u.output ≠ .polled (.ready (.setPending pending))

/-- Since the transmission with key `s` the queue has seen it fail before it sent anything else. -/
def FailedIn (later : Past τ) (s : UniqueKey) : Prop :=
  ∃ after u mid, later = after ++ u :: mid ∧ (∀ v ∈ mid, sent v = none) ∧ Fails s u

def AllFailed (h : Past τ) (r : DataRequest) : Prop :=
  ∀ later t past s f, h = later ++ t :: past → transmitted t = some r → sent t = some (s, f) →
    FailedIn later s

def OthersFailed (h : Past τ) (r : DataRequest) : Prop :=
  ∀ later t past s f, h = later ++ t :: past → transmitted t = some r → sent t = some (s, f) →
    (∃ v ∈ later, sent v ≠ none) → FailedIn later s

def Account (h : Past τ) (x : DataRequest × Nat) (n : Nat) : Prop :=
  ∀ limit, Limit h x.1 limit → attempts h x.1 + x.2 = limit + n

def Rested (h : Past τ) (x : DataRequest × Nat) : Prop :=
  x.1.indirect = false → Account h x 0 ∧ AllFailed h x.1

def Trying (h : Past τ) : Option (DataRequest × Nat) → DeviceQueueState τ → Prop
  | none, .idle _ => True
  | none, _ => False
  | some x, .idle _ => Rested h x
  | some x, .sending _ _ _ => x.1.indirect = false → Account h x 1 ∧ OthersFailed h x.1
  | some x, .waitingForAck _ _ => x.1.indirect = false → Account h x 1 ∧ OthersFailed h x.1
  | some _, .haveResult (.ok _) => True
  | some x, .haveResult (.error e) => e = .sendFailure ∧ x.1.indirect = false ∧ x.2 = 0 ∧
      Account h x 1 ∧ AllFailed h x.1

structure Budgeted (h : Past τ) (views : List (DataRequest × Nat)) (state : DeviceQueueState τ) :
    Prop where
  front : Trying h views.head? state
  behind : ∀ x ∈ views.tail, Rested h x

omit [Sleep τ] in
theorem newest_sent {later : Past τ} (past : Past τ) {t : Step τ} {x : UniqueKey × Frame}
    (hn : ∀ v ∈ later, sent v = none) (ht : sent t = some x) :
    ((later ++ t :: past).filterMap sent).head? = some x := by
  rw [List.filterMap_append, List.filterMap_eq_nil_iff.mpr hn, List.filterMap_cons_some ht]
  rfl

theorem FailedIn.later {later : Past τ} {s : UniqueKey} (hf : FailedIn later s) (t : Step τ) :
    FailedIn (t :: later) s := by
  obtain ⟨after, u, mid, rfl, hmid, hu⟩ := hf
  exact ⟨t :: after, u, mid, rfl, hmid, hu⟩

theorem AllFailed.later {h : Past τ} {r : DataRequest} (ha : AllFailed h r) {t : Step τ}
    (ht : sent t = none) : AllFailed (t :: h) r := by
  intro later u past s f hh hu hs
  cases later with
  | nil =>
    obtain ⟨rfl, rfl⟩ := List.cons.inj hh
    simp [hs] at ht
  | cons v later =>
    obtain ⟨rfl, rfl⟩ := List.cons.inj hh
    exact (ha later u past s f rfl hu hs).later _

theorem OthersFailed.later {h : Past τ} {r : DataRequest} (ho : OthersFailed h r) {t : Step τ}
    (ht : sent t = none) : OthersFailed (t :: h) r := by
  intro later u past s f hh hu hs hv
  cases later with
  | nil =>
    obtain ⟨rfl, rfl⟩ := List.cons.inj hh
    simp [hs] at ht
  | cons w later =>
    obtain ⟨rfl, rfl⟩ := List.cons.inj hh
    obtain ⟨v, hv, hsv⟩ := hv
    rcases List.mem_cons.mp hv with rfl | hv
    · exact absurd ht hsv
    · exact (ho later u past s f rfl hu hs ⟨v, hv, hsv⟩).later _

/-- When a request is sent again, only that transmission is under way. -/
theorem AllFailed.send {h : Past τ} {r : DataRequest} (ha : AllFailed h r) (t : Step τ) :
    OthersFailed (t :: h) r := by
  intro later u past s f hh hu hs hv
  cases later with
  | nil =>
    obtain ⟨v, hv, -⟩ := hv
    cases hv
  | cons w later =>
    obtain ⟨rfl, rfl⟩ := List.cons.inj hh
    exact (ha later u past s f rfl hu hs).later _

/-- When the transmission under way fails, all have failed. -/
theorem OthersFailed.fails {h later : Past τ} {r r' : DataRequest} (ho : OthersFailed h r)
    {s : UniqueKey} {f : Frame} (hl : LastSend h later s f r') {t : Step τ} (hf : Fails s t)
    (ht : sent t = none) : AllFailed (t :: h) r := by
  intro later' u past s' f' hh hu hs
  cases later' with
  | nil =>
    obtain ⟨rfl, rfl⟩ := List.cons.inj hh
    simp [hs] at ht
  | cons w later' =>
    obtain ⟨rfl, rfl⟩ := List.cons.inj hh
    by_cases hv : ∃ v ∈ later', sent v ≠ none
    · exact (ho later' u past s' f' rfl hu hs hv).later _
    · have hnone : ∀ v ∈ later', sent v = none := by simpa using hv
      obtain ⟨v, earlier, heq, hsv, -⟩ := hl.split
      have heq : later' ++ u :: past = later ++ v :: earlier := heq
      have hsame := newest_sent past hnone hs
      rw [heq, newest_sent earlier hl.newest hsv] at hsame
      obtain ⟨rfl, rfl⟩ := Prod.mk.inj (Option.some.inj hsame)
      exact ⟨[], _, later', rfl, hnone, hf⟩

omit [Sleep τ] in
theorem Limit.old {h : Past τ} {r : DataRequest} {limit : Nat} {t : Step τ}
    (hl : Limit (t :: h) r limit) (hnew : submitted t ≠ some r) : Limit h r limit := by
  obtain ⟨u, hu, pib, he, rfl⟩ := hl
  rcases List.mem_cons.mp hu with rfl | hu
  · exact absurd (by simp [submitted, he]) hnew
  · exact ⟨u, hu, pib, he, rfl⟩

omit [Sleep τ] in
theorem Account.later {h : Past τ} {x : DataRequest × Nat} {n : Nat} (ha : Account h x n)
    {t : Step τ} (ht : sent t = none) (hnew : submitted t ≠ some x.1) : Account (t :: h) x n := by
  intro limit hl
  rw [attempts_of_not_sent ht]
  exact ha limit (hl.old hnew)

theorem Rested.later {h : Past τ} {x : DataRequest × Nat} (hx : Rested h x) {t : Step τ}
    (ht : sent t = none) (hnew : submitted t ≠ some x.1) : Rested (t :: h) x :=
  fun hdirect => ⟨(hx hdirect).1.later ht hnew, (hx hdirect).2.later ht⟩

theorem Trying.later {h : Past τ} {x : DataRequest × Nat} {state : DeviceQueueState τ}
    (hx : Trying h (some x) state) {t : Step τ} (ht : sent t = none)
    (hnew : submitted t ≠ some x.1) : Trying (t :: h) (some x) state := by
  cases state with
  | idle _ => exact Rested.later hx ht hnew
  | sending _ _ _ => exact fun hd => ⟨(hx hd).1.later ht hnew, (hx hd).2.later ht⟩
  | waitingForAck _ _ => exact fun hd => ⟨(hx hd).1.later ht hnew, (hx hd).2.later ht⟩
  | haveResult result =>
    cases result with
    | ok _ => trivial
    | error e =>
      obtain ⟨he, hd, hleft, ha, hf⟩ := hx
      exact ⟨he, hd, hleft, ha.later ht hnew, hf.later ht⟩

theorem Budgeted.later {h : Past τ} {views : List (DataRequest × Nat)}
    {state : DeviceQueueState τ} (hb : Budgeted h views state) {t : Step τ} (ht : sent t = none)
    (hnew : ∀ x ∈ views, submitted t ≠ some x.1) : Budgeted (t :: h) views state := by
  cases views with
  | nil =>
    have hfront := hb.front
    cases state with
    | idle d => exact ⟨trivial, fun x hx => by cases hx⟩
    | _ => exact hfront.elim
  | cons x rest =>
    exact ⟨Trying.later hb.front ht (hnew x List.mem_cons_self),
      fun y hy => (hb.behind y hy).later ht (hnew y (List.mem_cons_of_mem _ hy))⟩

/-- A transmission that does not fail costs nothing. -/
theorem Budgeted.onward {h : Past τ} {views : List (DataRequest × Nat)}
    {state state' : DeviceQueueState τ} (hb : Budgeted h views state)
    (ha : Advances state state') (hbusy : ∀ d, state ≠ .idle d) (hgoes : ∀ d, state' ≠ .idle d)
    (hgood : ∀ e, state' ≠ .haveResult (.error e)) : Budgeted h views state' := by
  cases ha with
  | refl _ => exact hb
  | givesUp _ => exact absurd rfl (hgoes false)
  | ends _ result =>
    cases result with
    | error e => exact absurd rfl (hgood e)
    | ok p =>
      refine ⟨?_, hb.behind⟩
      cases views with
      | cons x rest => trivial
      | nil =>
        have hfront := hb.front
        cases state with
        | idle d => exact absurd rfl (hbusy d)
        | _ => exact hfront.elim
  | _ => cases views <;> exact ⟨hb.front, hb.behind⟩

theorem Budgeted.idle {h : Past τ} {views : List (DataRequest × Nat)} {d : Bool}
    (hb : Budgeted h views (.idle d)) (d' : Bool) :
    Budgeted h views (.idle d' : DeviceQueueState τ) := by
  cases views <;> exact ⟨hb.front, hb.behind⟩

theorem budgeted_of_rested {h : Past τ} {views : List (DataRequest × Nat)} (datarequest : Bool)
    (hr : ∀ x ∈ views, Rested h x) : Budgeted h views (.idle datarequest) := by
  cases views with
  | nil => exact ⟨trivial, fun x hx => by cases hx⟩
  | cons x rest =>
    exact ⟨hr x List.mem_cons_self, fun y hy => hr y (List.mem_cons_of_mem _ hy)⟩

theorem Budgeted.push {h : Past τ} {views : List (DataRequest × Nat)} {state : DeviceQueueState τ}
    (hb : Budgeted h views state) {x : DataRequest × Nat} (hx : Rested h x) :
    Budgeted h (views ++ [x]) state := by
  cases views with
  | nil =>
    have hfront := hb.front
    cases state with
    | idle d => exact budgeted_of_rested d (by simpa using hx)
    | _ => exact hfront.elim
  | cons y rest =>
    refine ⟨hb.front, fun z hz => ?_⟩
    rcases List.mem_append.mp hz with hold | hself
    · exact hb.behind z hold
    · rw [List.mem_singleton.mp hself]
      exact hx

theorem Budgeted.pop {h : Past τ} {rest : List (DataRequest × Nat)} {x : DataRequest × Nat}
    {state : DeviceQueueState τ} (hb : Budgeted h (x :: rest) state) :
    Budgeted h rest (.idle false : DeviceQueueState τ) :=
  budgeted_of_rested false hb.behind

/-- An entry leaves; if it is the front one, then so does its transmission. -/
theorem Budgeted.drop {h : Past τ} {earlier later : List (DataRequest × Nat)}
    {x : DataRequest × Nat} {state : DeviceQueueState τ}
    (hb : Budgeted h (earlier ++ x :: later) state) :
    Budgeted h (earlier ++ later) (if earlier.length = 0 then .idle false else state) := by
  cases earlier with
  | nil => exact hb.pop
  | cons y earlier =>
    refine ⟨hb.front, fun z hz => hb.behind z ?_⟩
    rcases List.mem_append.mp hz with hz | hz
    · exact List.mem_append_left _ hz
    · exact List.mem_append_right _ (List.mem_cons_of_mem _ hz)

/-- The transmission under way fails. -/
theorem fails_front {h later : Past τ} {x : DataRequest × Nat} {r : DataRequest} {s : UniqueKey}
    {f : Frame} {t : Step τ} (ha : Account h x 1) (ho : OthersFailed h x.1)
    (hl : LastSend h later s f r) (hf : Fails s t) (ht : sent t = none)
    (hnew : submitted t ≠ some x.1) : Account (t :: h) x 1 ∧ AllFailed (t :: h) x.1 :=
  ⟨ha.later ht hnew, ho.fails hl hf ht⟩

omit [Sleep τ] in
theorem Account.retry {h : Past τ} {r : DataRequest} {left : Nat} (ha : Account h (r, left) 1)
    (hleft : 0 < left) : Account h (r, left - 1) 0 := by
  intro limit hl
  have := ha limit hl
  dsimp only at this ⊢
  omega

theorem Budgeted.remove {h : Past τ} {q : DeviceQueue τ} (hb : Budgeted h q.views q.state)
    (k : UniqueKey) : Budgeted h (q.remove k).2.views (q.remove k).2.state := by
  have hviews : (q.remove k).2.views = q.views.filter fun x => x.1.key != k := by
    have h : (q.remove k).2.entries = q.entries.filter fun e => e.data.key != k := by
      rw [DeviceQueue.remove]
      split <;> rfl
    rw [views, h, views, List.filter_map]
    rfl
  have hfirst : q.requests.head? = q.views.head?.map Prod.fst := by
    simp [requests, views, DeviceQueueEntry.view, Function.comp_def]
  rw [remove_state, hviews, hfirst]
  cases hq : q.views with
  | nil =>
    rw [hq] at hb
    simpa using hb
  | cons x rest =>
    rw [hq] at hb
    by_cases hx : x.1.key = k
    · rw [List.filter_cons_of_neg (by simpa using hx)]
      simp only [List.head?_cons, Option.map_some, Option.any_some, hx, beq_self_eq_true, if_true]
      exact budgeted_of_rested _ fun y hy => hb.behind y (List.mem_of_mem_filter hy)
    · rw [List.filter_cons_of_pos (by simpa using hx)]
      simp only [List.head?_cons, Option.map_some, Option.any_some, beq_iff_eq, hx, if_false]
      exact ⟨hb.front, fun y hy => hb.behind y (List.mem_of_mem_filter hy)⟩

omit [Sleep τ] in
theorem views_cons {q : DeviceQueue τ} {front : DeviceQueueEntry τ}
    {rest : List (DeviceQueueEntry τ)} (hes : q.entries = front :: rest) :
    q.views = front.view :: rest.map DeviceQueueEntry.view := by
  simp [views, hes]

/-- The front request leaves. -/
theorem Budgeted.popFront {h : Past τ} {q : DeviceQueue τ} {front : DeviceQueueEntry τ}
    {rest : List (DeviceQueueEntry τ)} (hb : Budgeted h q.views q.state)
    (hes : q.entries = front :: rest) {t : Step τ} (ht : sent t = none)
    (hnew : submitted t = none) :
    Budgeted (t :: h) (rest.map DeviceQueueEntry.view) (.idle false : DeviceQueueState τ) := by
  have hkept := hb.later ht fun x _ => by simp [hnew]
  rw [views_cons hes] at hkept
  exact hkept.pop

theorem Budgeted.sendFailed {h later : Past τ} {q : DeviceQueue τ} {s : UniqueKey} {f : Frame}
    {r : DataRequest} {ack : Option UInt8} {payload : List UInt8}
    (hb : Budgeted h q.views q.state) (hst : q.state = .sending s ack payload)
    (hl : LastSend h later s f r) {t : Step τ} (hf : Fails s t) (ht : sent t = none)
    (hnew : submitted t = none) :
    Budgeted (t :: h) q.sendFailed.views q.sendFailed.state := by
  unfold DeviceQueue.sendFailed
  cases hes : q.entries with
  | nil =>
    refine ⟨?_, fun x hx => ?_⟩ <;> simp_all [views, Trying]
  | cons front rest =>
    have hbehind : ∀ x ∈ rest.map DeviceQueueEntry.view, Rested (t :: h) x := fun x hx =>
      (hb.behind x (by simpa [views_cons hes] using hx)).later ht (by simp [hnew])
    have hfront : front.data.indirect = false →
        Account h front.view 1 ∧ OthersFailed h front.data := by
      have htrying := hb.front
      rw [views_cons hes, hst] at htrying
      exact htrying
    dsimp only
    split
    · rename_i hind
      refine budgeted_of_rested false fun x hx => ?_
      rcases List.mem_cons.mp hx with rfl | hx
      · intro hdirect
        exact absurd (hind.symm.trans hdirect) (by simp)
      · exact hbehind x hx
    · rename_i hind
      obtain ⟨ha, ho⟩ := hfront (by simpa using hind)
      obtain ⟨ha', hall⟩ := fails_front ha ho hl hf ht (by simp [hnew])
      split
      · rename_i hleft
        refine budgeted_of_rested false fun x hx => ?_
        rcases List.mem_cons.mp hx with rfl | hx
        · exact fun _ => ⟨ha'.retry hleft, hall⟩
        · exact hbehind x hx
      · rename_i hleft
        have hdirect : front.data.indirect = false := by simpa using hind
        have hnone : front.retriesLeft = 0 := by omega
        exact ⟨⟨rfl, hdirect, hnone, ha', hall⟩, hbehind⟩

theorem Budgeted.processSendResult {h : Past τ} {q : DeviceQueue τ} {k : UniqueKey}
    {success : Bool} (hb : Budgeted h q.views q.state)
    (htr : Transmission h q.requests.head? q.state) {t : Step τ}
    (he : t.event = .processSendResult k success) (hbefore : t.before = q)
    (ht : sent t = none) : Budgeted (t :: h) (q.processSendResult k success).views
      (q.processSendResult k success).state := by
  have hnew : submitted t = none := by simp [submitted, he]
  have hkeep := hb.later ht fun x _ => by simp [hnew]
  cases hst : q.state with
  | sending s ack payload =>
    by_cases hk : s = k
    · subst hk
      cases success with
      | false =>
        simp only [DeviceQueue.processSendResult, hst, if_true]
        rw [hst] at htr
        obtain ⟨r, later, f, -, hl, -⟩ := htr
        have hf : Fails s t := .inl ⟨he, ack, payload, by rw [hbefore, hst]⟩
        exact hb.sendFailed hst hl hf ht hnew
      | true =>
        rw [hst] at hkeep
        cases ack with
        | some n =>
          simp only [DeviceQueue.processSendResult, hst, if_true]
          exact hkeep.onward (.sentOut _ _ _ _) (by simp) (by simp) (by simp)
        | none =>
          simp only [DeviceQueue.processSendResult, hst, if_true]
          exact hkeep.onward (.ends _ _) (by simp) (by simp) (by simp)
    · simpa [DeviceQueue.processSendResult, hst, hk] using hkeep
  | _ => simpa [DeviceQueue.processSendResult, hst] using hkeep

theorem Budgeted.processAcknowledge {h : Past τ} {q : DeviceQueue τ}
    (hb : Budgeted h q.views q.state)
    (n : Option UInt8) (payload : List UInt8) : Budgeted h (q.processAcknowledge n payload).views
      (q.processAcknowledge n payload).state := by
  unfold DeviceQueue.processAcknowledge
  cases hst : q.state with
  | waitingForAck a timeout =>
    dsimp only
    split
    · rw [hst] at hb
      exact hb.onward (.ends _ _) (by simp) (by simp) (by simp)
    · exact hb
  | sending s ack p =>
    dsimp only
    split
    · rw [hst] at hb
      exact hb.onward (.acknowledged _ _ _ _) (by simp) (by simp) (by simp)
    · exact hb
  | _ => exact hb

theorem Budgeted.processDatarequest {h : Past τ} {q : DeviceQueue τ}
    (hb : Budgeted h q.views q.state) :
    Budgeted h q.processDatarequest.views q.processDatarequest.state := by
  unfold DeviceQueue.processDatarequest
  cases hst : q.state with
  | idle d =>
    rw [hst] at hb
    exact hb.idle true
  | _ =>
    rw [hst] at hb
    exact hb

/-- A direct request that waits for its acknowledge has one attempt on the way, the last frame. -/
theorem Budgeted.awaits {h : Past τ} {q : DeviceQueue τ} {front : DeviceQueueEntry τ}
    {rest : List (DeviceQueueEntry τ)} {n : UInt8} {timeout : τ}
    (hb : Budgeted h q.views q.state) (htr : Transmission h q.requests.head? q.state)
    (hes : q.entries = front :: rest) (hst : q.state = .waitingForAck n timeout)
    (hdirect : front.data.indirect = false) :
    Account h front.view 1 ∧ OthersFailed h front.data ∧
      ∃ later s f r, LastSend h later s f r := by
  have hfront := hb.front
  rw [views_cons hes, hst] at hfront
  rw [hst] at htr
  obtain ⟨ha, ho⟩ := hfront hdirect
  obtain ⟨r, later, s, f, -, hl, -⟩ := htr
  exact ⟨ha, ho, later, s, f, r, hl⟩

theorem Budgeted.settles {h : Past τ} {q q₁ : DeviceQueue τ} {pib : PIB} {now : Instant}
    {cx : Waker}
    {k : UniqueKey} (hb : Budgeted h q.views q.state)
    (htr : Transmission h q.requests.head? q.state) (hs : Settles now q q₁) {t : Step τ}
    (hbefore : t.before = q) (he : t.event = .poll pib now cx k) (ht : sent t = none)
    (hout : ∀ pending, t.output ≠ .polled (.ready (.setPending pending))) :
    Budgeted (t :: h) q₁.views q₁.state := by
  have hnew : submitted t = none := by simp [submitted, he]
  have hkeep := hb.later ht fun x _ => by simp [hnew]
  cases hs with
  | waitsForDevice _ _ _ => exact hkeep
  | waitsForRadio _ _ => exact hkeep
  | waitsForAck _ hst _ =>
    rw [hst] at hkeep
    exact hkeep.onward (.waits _ _ _) (by simp) (by simp) (by simp)
  | leavesToDevice hes _ _ hind =>
    refine budgeted_of_rested false fun x hx => ?_
    rw [show ({ q with state := .idle false } : DeviceQueue τ).views = q.views from rfl,
      views_cons hes] at hx
    rcases List.mem_cons.mp hx with rfl | hx
    · intro hdirect
      exact absurd (hind.symm.trans hdirect) (by simp)
    · exact hkeep.behind x (by simpa [views_cons hes] using hx)
  | @retries front rest n timeout timeout' hes hst hp hdirect hleft =>
    obtain ⟨ha, ho, later, s, f, r, hl⟩ := hb.awaits htr hes hst hdirect
    have hf : Fails s t :=
      .inr ⟨n, timeout, pib, now, cx, k, by rw [hbefore, hst], he, congrArg Prod.fst hp, hout⟩
    obtain ⟨ha', hall⟩ := fails_front ha ho hl hf ht (by simp [hnew])
    refine budgeted_of_rested false fun x hx => ?_
    rcases List.mem_cons.mp hx with rfl | hx
    · exact fun _ => ⟨ha'.retry hleft, hall⟩
    · exact hkeep.behind x (by simpa [views_cons hes] using hx)

/-- A frame of the front request goes out. -/
theorem Budgeted.send {h : Past τ} {x : DataRequest × Nat} {rest : List (DataRequest × Nat)}
    {d : Bool} (hb : Budgeted h (x :: rest) (.idle d : DeviceQueueState τ)) {t : Step τ}
    (ht : transmitted t = some x.1) (hnew : submitted t = none)
    (hne : ∀ y ∈ rest, y.1 ≠ x.1) (k : UniqueKey) (ack : Option UInt8) (payload : List UInt8) :
    Budgeted (t :: h) (x :: rest) (.sending k ack payload) := by
  refine ⟨fun hdirect => ?_, fun y hy hdirect => ?_⟩
  · have hfront : Rested h x := hb.front
    obtain ⟨ha, hall⟩ := hfront hdirect
    refine ⟨fun limit hl => ?_, hall.send t⟩
    have := ha limit (hl.old (by simp [hnew]))
    rw [attempts_of_transmitted ht, if_pos rfl]
    omega
  · obtain ⟨ha, hall⟩ := hb.behind y hy hdirect
    refine ⟨fun limit hl => ?_, ?_⟩
    · rw [attempts_of_transmitted ht, if_neg (Ne.symm (hne y hy))]
      exact ha limit (hl.old (by simp [hnew]))
    · intro later u past s f hh hu hs
      cases later with
      | nil =>
        obtain ⟨rfl, rfl⟩ := List.cons.inj hh
        exact absurd (Option.some.inj (hu.symm.trans ht)) (hne y hy)
      | cons w later =>
        obtain ⟨rfl, rfl⟩ := List.cons.inj hh
        exact (hall later u past s f rfl hu hs).later _

theorem Budgeted.poll {h : Past τ} {q q' : DeviceQueue τ} {pib pib' : PIB} {now : Instant}
    {cx : Waker} {k : UniqueKey} {action : Poll DeviceQueueAction}
    (hb : Budgeted h q.views q.state) (htr : Transmission h q.requests.head? q.state)
    (hl : Roster.Line moves h q.requests) (hp : PollOutcome q pib now cx k (action, q', pib')) :
    Budgeted (⟨q, .poll pib now cx k, .polled action, q'⟩ :: h) q'.views q'.state := by
  cases hp with
  | setPending _ => exact hb.later rfl fun x _ => by simp [submitted]
  | empty _ hes => exact budgeted_of_rested false fun x hx => by simp [views, hes] at hx
  | @sendFrame front rest d _ hes hst _ morePending =>
    have hn : (q.requests.map (·.key)).Nodup := hl.nodup
    rw [requests, hes, List.map_cons, List.map_cons, List.nodup_cons] at hn
    rw [views_cons hes, hst] at hb
    rw [show DeviceQueue.views { q with
      state := .sending k (createFrame front.data pib morePending).1.1 [] } = q.views from rfl,
      views_cons hes]
    refine hb.send ?_ rfl (fun y hy hdata => hn.1 ?_) _ _ _
    · simp [transmitted, sent, requests, hes, DeviceQueueEntry.view]
    · obtain ⟨e, he, rfl⟩ := List.mem_map.mp hy
      refine List.mem_map.mpr ⟨e.data, List.mem_map_of_mem he, congrArg DataRequest.key hdata⟩
  | noAck _ hes _ _ _ _ => exact hb.popFront hes rfl rfl
  | result _ hes _ => exact hb.popFront hes rfl rfl
  | @expired q₁ i key es _ hs hexp =>
    obtain ⟨earlier, e, later, hes, rfl, -, hes'⟩ := pollTimeouts_some hexp
    have hq₁ := hb.settles htr hs (t := ⟨q, .poll pib now cx k, .polled (.ready (.reportResult
      key (.error .transactionExpired))), { q₁ with
        state := if earlier.length = 0 then .idle false else q₁.state
        entries := es }⟩) rfl rfl rfl (by simp)
    rw [views, hes] at hq₁
    rw [views, hes']
    exact hq₁.drop
  | @waits q₁ es _ hs hnone =>
    have hq₁ := hb.settles htr hs (t := ⟨q, .poll pib now cx k, .polled .pending,
      { q₁ with entries := es, waker := q₁.waker.pend cx }⟩) rfl rfl rfl (by simp)
    rw [views, pollTimeouts_none hnone]
    exact hq₁

/-- A failure that is reported is that of a direct request, whose attempts are spent. -/
theorem Budgeted.report {h : Past τ} {q q' : DeviceQueue τ} {pib pib' : PIB} {now : Instant}
    {cx : Waker} {k key : UniqueKey} {e : DeviceQueueError} (hb : Budgeted h q.views q.state)
    (htr : Transmission h q.requests.head? q.state)
    (hp : PollOutcome q pib now cx k (.ready (.reportResult key (.error e)), q', pib'))
    (he : e ≠ .transactionExpired) {t : Step τ} (hbefore : t.before = q)
    (hev : t.event = .poll pib now cx k)
    (hout : t.output = .polled (.ready (.reportResult key (.error e)))) :
    ∃ r, q.requests.head? = some r ∧ r.key = key ∧ r.indirect = false ∧
      (∀ limit, Limit h r limit → attempts (t :: h) r = limit + 1) ∧ AllFailed (t :: h) r := by
  have ht : sent t = none := by simp [sent, hout]
  have hnew : submitted t = none := by simp [submitted, hev]
  cases hp with
  | @noAck front rest n timeout timeout' _ hes hst hready hdirect hleft =>
    obtain ⟨ha, ho, later, s, f, r, hl⟩ := hb.awaits htr hes hst hdirect
    have hf : Fails s t := .inr ⟨n, timeout, pib, now, cx, k, by rw [hbefore, hst], hev,
      congrArg Prod.fst hready, by simp [hout]⟩
    refine ⟨front.data, by simp [requests, hes], rfl, hdirect, fun limit hl => ?_,
      ho.fails hl hf ht⟩
    have hspent : attempts h front.data + front.retriesLeft = limit + 1 := ha limit hl
    rw [attempts_of_not_sent ht]
    omega
  | @result front rest _ _ hes hst =>
    have hfront := hb.front
    rw [views_cons hes, hst] at hfront
    obtain ⟨-, hdirect, hleft, ha, hall⟩ := hfront
    have hleft : front.retriesLeft = 0 := hleft
    refine ⟨front.data, by simp [requests, hes], rfl, hdirect, fun limit hl => ?_, hall.later ht⟩
    have hspent : attempts h front.data + front.retriesLeft = limit + 1 := ha limit hl
    rw [attempts_of_not_sent ht]
    omega
  | expired _ _ _ => exact absurd rfl he

theorem step_poll {q q' : DeviceQueue τ} {pib : PIB} {now : Instant} {cx : Waker} {k : UniqueKey}
    {o : Output} (hs : step q (.poll pib now cx k) = some (q', o)) : ∃ action pib',
      o = .polled action ∧ PollOutcome q pib now cx k (action, q', pib') := by
  have hp := q.pollNextAction_outcome pib now cx k
  simp only [step, Option.some.injEq, Prod.mk.injEq] at hs
  generalize q.pollNextAction pib now cx k = out at hp hs
  obtain ⟨action, q₁, pib'⟩ := out
  obtain ⟨rfl, rfl⟩ := hs
  exact ⟨action, pib', rfl, hp⟩

end ZigbeeStack.DeviceQueue
