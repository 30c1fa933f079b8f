import ZigbeeStack.DataRuns

/-! A frame that waits for its device is sent only when the device asks, once for each time it
asks. -/
namespace ZigbeeStack.DataService
open Runs DeviceQueue
variable {τ : Type}

def SendsFor (d : Option FullAddress) (r : DataRequest) (t : Step τ) : Prop :=
  ∃ k f pib morePending, sent t = some (k, f) ∧ f = (createFrame r pib morePending).1.2 ∧
    (t.after.1.requestsAt d).head? = some r ∧ r.destination = d

def SendsIndirect (d : Option FullAddress) (t : Step τ) : Prop :=
  ∃ r, SendsFor d r t ∧ r.indirect = true

def Asks (d : Option FullAddress) (t : Step τ) : Prop :=
  ∃ f, t.event = .frame f ∧ asksFor t.before.2 d f

def Asked (d : Option FullAddress) (h : Past τ) : Prop :=
  Since (fun t => ¬ SendsIndirect d t) (Asks d) h

theorem not_sendsIndirect {t : Step τ} (ht : sent t = none) (d : Option FullAddress) :
    ¬ SendsIndirect d t := by
  rintro ⟨r, ⟨k, f, pib, morePending, hsent, -⟩, -⟩
  rw [ht] at hsent
  cases hsent

theorem Asked.later {d : Option FullAddress} {h : Past τ} (ha : Asked d h) {t : Step τ}
    (ht : ¬ SendsIndirect d t) : Asked d (t :: h) :=
  .inr ⟨ht, ha⟩

theorem Advances.idle_true {st : DeviceQueueState τ} (h : Advances st (.idle true)) :
    st = .idle true := by
  cases h
  rfl

structure Justified (t : Step τ) (past : Past τ) : Prop where
  front : (sent t).isSome → ∃ d r, SendsFor d r t
  asked : ∀ d, SendsIndirect d t → Asked d past

theorem justified_of_not_sent {t : Step τ} (ht : sent t = none) (past : Past τ) :
    Justified t past :=
  ⟨fun h => by simp [ht] at h, fun d h => absurd h (not_sendsIndirect ht d)⟩

structure Permitted (h : Past τ) (s : DataService τ × PIB) : Prop where
  idle : ∀ d, (s.1.queueAt d).state = .idle true → Asked d h
  newest : ∀ t past, h = t :: past → Justified t past

theorem Permitted.not_sent {h : Past τ} {s : DataService τ × PIB} (hi : Permitted h s) {t : Step τ}
    (ht : sent t = none) : Permitted (t :: h) s := by
  refine ⟨fun d hidle => (hi.idle d hidle).later (not_sendsIndirect ht d), fun u past heq => ?_⟩
  obtain ⟨rfl, rfl⟩ := List.cons.inj heq
  exact justified_of_not_sent ht _

theorem Permitted.keeps {h : Past τ} {a b : DataService τ × PIB} (hi : Permitted h a)
    (hk : ∀ d, Keeps (a.1.queueAt d) (b.1.queueAt d)) : Permitted h b := by
  refine ⟨fun d hidle => ?_, hi.newest⟩
  have hadv := (hk d).advances
  rw [hidle] at hadv
  exact hi.idle d (Advances.idle_true hadv)

theorem Permitted.sends {h : Past τ} {a b : DataService τ × PIB} {k : UniqueKey} {f : Frame}
    {d₁ : Option FullAddress} {r₁ : DataRequest} {t : Step τ} (hi : Permitted h a)
    (hs : Sends a k f b d₁ r₁) (hdest : f.destination = d₁) (ht : sent t = some (k, f))
    (hafter : t.after = b) : Permitted (t :: h) b := by
  obtain ⟨q', hupd, -, hst⟩ := hs.queues
  obtain ⟨morePending, hframe⟩ := hs.frame
  have hfront : (t.after.1.requestsAt d₁).head? = some r₁ := by
    rw [hafter, hs.requestsAt, hs.front]
  have hr₁ : r₁.destination = d₁ := by
    rw [← hdest, hframe]
    rfl
  -- a frame that goes to `d` comes from the queue of `d`
  have honly : ∀ d r, SendsFor d r t → d = d₁ ∧ r = r₁ := by
    rintro d r ⟨k', f', pib, morePending', ht', hframe', hr, hd⟩
    obtain ⟨rfl, rfl⟩ := Prod.mk.inj (Option.some.inj (ht.symm.trans ht'))
    obtain rfl : d = d₁ := by
      rw [← hd, ← hdest, hframe']
      rfl
    exact ⟨rfl, Option.some.inj (hr.symm.trans hfront)⟩
  refine ⟨fun d hidle => ?_, fun u past heq => ?_⟩
  · rw [hupd, Function.update_apply] at hidle
    split at hidle
    · rw [hst] at hidle
      cases hidle
    · rename_i hd
      exact (hi.idle d hidle).later fun ⟨r, hsends, _⟩ => hd (honly d r hsends).1
  · obtain ⟨rfl, rfl⟩ := List.cons.inj heq
    refine ⟨fun _ => ⟨d₁, r₁, k, f, _, morePending, ht, hframe, hfront, hr₁⟩, ?_⟩
    rintro d ⟨r, hsends, hind⟩
    obtain ⟨rfl, rfl⟩ := honly d r hsends
    obtain ⟨datarequest, hidle, hdirect | rfl⟩ := hs.idle
    · rw [hind] at hdirect
      cases hdirect
    · exact hi.idle d hidle

variable [Sleep τ]

theorem Permitted.quiet {h : Past τ} {s s' : DataService τ × PIB} {e : Event} {o : Output}
    (hi : Permitted h s) (hq : Quiet e s s') (ht : sent (⟨s, e, o, s'⟩ : Step τ) = none) :
    Permitted (⟨s, e, o, s'⟩ :: h) s' := by
  refine ⟨fun d hidle => ?_, (hi.not_sent ht).newest⟩
  rcases (hq.queues d).advances with hadv | ⟨⟨f, he, hf⟩, -⟩
  · rw [hidle] at hadv
    exact (hi.idle d (Advances.idle_true hadv)).later (not_sendsIndirect ht d)
  · exact .inl ⟨f, he, hf⟩

theorem permitted_of_run {rely : Past τ → DataService τ × PIB → Event → Prop} {pib : PIB}
    {h : Past τ} {s : DataService τ × PIB} (hr : Run step rely (new, pib) h s) : Permitted h s :=
  transmission_invariant ⟨(fun _ hidle => nomatch hidle), (fun _ _ heq => nomatch heq)⟩
    (fun _ _ _ _ _ _ hq ht hi => hi.quiet hq ht) (fun _ _ _ _ hk hi => hi.keeps hk)
    (fun _ _ _ ht hi => hi.not_sent ht)
    (fun _ _ _ _ _ _ _ _ hs hdest ht hafter hi => hi.sends hs hdest ht hafter) hr

theorem justified_of_run {rely : Past τ → DataService τ × PIB → Event → Prop} {pib : PIB}
    {later : Past τ} {t : Step τ} {past : Past τ} {s : DataService τ × PIB}
    (hr : Run step rely (new, pib) (later ++ t :: past) s) : Justified t past := by
  obtain ⟨hpast, hrely, hstep⟩ := hr.cut
  exact (permitted_of_run (.next hpast hrely hstep)).newest _ _ rfl

/-- Every frame is made of the request at the front of a queue. Where that request is marked
indirect, the frame can be matched with a request of the device that comes before it, and no
request of a device is matched twice. -/
theorem indirect_sends_asked_for {rely : Past τ → DataService τ × PIB → Event → Prop} {pib : PIB}
    {h : Past τ} {s : DataService τ × PIB} (hr : Run step rely (new, pib) h s) :
    (∀ t ∈ h, (sent t).isSome → ∃ d r, SendsFor d r t) ∧
      ∃ f : Option FullAddress → ℕ → ℕ,
        (∀ d n t, h.reverse[n]? = some t → SendsIndirect d t →
          f d n < n ∧ ∃ u, h.reverse[f d n]? = some u ∧ Asks d u) ∧
        (∀ d d' n n' t t', h.reverse[n]? = some t → SendsIndirect d t →
          h.reverse[n']? = some t' → SendsIndirect d' t' → f d n = f d' n' → d = d' ∧ n = n') := by
  refine ⟨fun t ht => ?_, exists_matching ?_ ?_⟩
  · obtain ⟨later, past, rfl⟩ := List.append_of_mem ht
    exact (justified_of_run hr).front
  · rintro later t past rfl d hsends
    exact (justified_of_run hr).asked d hsends
  · rintro d d' t ⟨f, he, hf⟩ ⟨f', he', hf'⟩
    obtain rfl : f = f' := Event.frame.inj (he.symm.trans he')
    exact hf.2.1.symm.trans hf'.2.1

/- A request that waits for its device, which is told so, asks, and is answered. -/
def answered : List Event :=
  [submit 0 0 [] device false true, pollAt 1 0 [[device]], .initPendingTableResult ⟨1⟩ true,
    pollAt 2 0 [[device], [device]], .setPendingResult ⟨2⟩ true, dataRequestFrom device,
    pollAt 3 0 [[device]]]

def playedAnswered : Past SleepTimer × DataService SleepTimer × PIB :=
  replay step unrestricted (new, coordinator) answered

theorem indirect_sends_asked_for_answered :
    (∃ t ∈ playedAnswered.1, SendsIndirect (some device) t) ∧
      (∀ t ∈ playedAnswered.1, (sent t).isSome → ∃ d r, SendsFor d r t) ∧
      ∃ f : Option FullAddress → ℕ → ℕ,
        (∀ d n t, playedAnswered.1.reverse[n]? = some t → SendsIndirect d t →
          f d n < n ∧ ∃ u, playedAnswered.1.reverse[f d n]? = some u ∧ Asks d u) ∧
        (∀ d d' n n' t t', playedAnswered.1.reverse[n]? = some t → SendsIndirect d t →
          playedAnswered.1.reverse[n']? = some t' → SendsIndirect d' t' → f d n = f d' n' →
          d = d' ∧ n = n') :=
  ⟨⟨_, List.mem_cons_self, _, ⟨⟨3⟩, _, coordinator, false, rfl, rfl, rfl, rfl⟩, rfl⟩,
    indirect_sends_asked_for (run_replay answered)⟩

end ZigbeeStack.DataService
