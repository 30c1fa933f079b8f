import ZigbeeStack.DataRuns

/-! All queues draw their sequence numbers from one 8-bit counter, and an acknowledge bears nothing
but such a number. When two queues can wait for the same one. -/
namespace ZigbeeStack.DataService
open Runs DeviceQueue
variable {τ : Type}

def awaited : DeviceQueueState τ → Option UInt8
  | .sending _ ackRequested _ => ackRequested
  | .waitingForAck ackRequested _ => some ackRequested
  | _ => none

theorem Advances.awaited {st st' : DeviceQueueState τ} (h : Advances st st') {n : UInt8}
    (hn : DataService.awaited st' = some n) : DataService.awaited st = some n := by
  cases h with
  | refl _ => exact hn
  | givesUp _ => cases hn
  | ends _ _ => cases hn
  | acknowledged _ _ _ _ => cases hn
  | sentOut _ _ _ _ => exact hn
  | waits _ _ _ => exact hn

/-- An acknowledge changes a queue only if it bears the number that the queue waits for. -/
theorem awaited_of_acknowledge {q : DeviceQueue τ} {seqNr : Option UInt8} {payload : List UInt8}
    (h : q.processAcknowledge seqNr payload ≠ q) :
    ∃ n, seqNr = some n ∧ awaited q.state = some n := by
  unfold processAcknowledge at h
  cases hst : q.state with
  | waitingForAck a timeout =>
    by_cases ha : seqNr = some a
    · exact ⟨a, ha, rfl⟩
    · simp [hst, ha] at h
  | sending k a p =>
    cases a with
    | none => simp [hst] at h
    | some a =>
      by_cases ha : some a = seqNr
      · exact ⟨a, ha.symm, rfl⟩
      · simp [hst, ha] at h
  | _ => simp [hst] at h

def lastSent (d : Option FullAddress) : Past τ → Option (Option UInt8 × ℕ)
  | [] => none
  | t :: h =>
    match sent t with
    | some (_, f) =>
      if f.destination = d then some (f.sequenceNumber, 0)
      else (lastSent d h).map fun (n, g) => (n, g + 1)
    | none => lastSent d h

theorem lastSent_of_not_sent {t : Step τ} (ht : sent t = none) (d : Option FullAddress)
    (h : Past τ) : lastSent d (t :: h) = lastSent d h := by
  simp [lastSent, ht]

theorem lastSent_self {t : Step τ} {k : UniqueKey} {f : Frame} (ht : sent t = some (k, f))
    (h : Past τ) : lastSent f.destination (t :: h) = some (f.sequenceNumber, 0) := by
  simp [lastSent, ht]

theorem lastSent_other {t : Step τ} {k : UniqueKey} {f : Frame} (ht : sent t = some (k, f))
    {d : Option FullAddress} (hd : f.destination ≠ d) (h : Past τ) :
    lastSent d (t :: h) = (lastSent d h).map fun (n, g) => (n, g + 1) := by
  simp [lastSent, ht, hd]

theorem lastSent_cases {t : Step τ} {k : UniqueKey} {f : Frame} (ht : sent t = some (k, f))
    {d : Option FullAddress} {h : Past τ} {n : Option UInt8} {g : ℕ}
    (hl : lastSent d (t :: h) = some (n, g)) :
    (f.destination = d ∧ n = f.sequenceNumber ∧ g = 0) ∨
      ∃ g₀, lastSent d h = some (n, g₀) ∧ g = g₀ + 1 := by
  by_cases hd : f.destination = d
  · subst hd
    rw [lastSent_self ht] at hl
    obtain ⟨rfl, rfl⟩ := Prod.mk.inj (Option.some.inj hl)
    exact .inl ⟨rfl, rfl, rfl⟩
  · rw [lastSent_other ht hd] at hl
    obtain ⟨⟨n₀, g₀⟩, hl₀, heq⟩ := Option.map_eq_some_iff.mp hl
    obtain ⟨rfl, rfl⟩ := Prod.mk.inj heq
    exact .inr ⟨g₀, hl₀, rfl⟩

/-- One frame goes to one destination. -/
theorem lastSent_unique {d d' : Option FullAddress} {h : Past τ} {n n' : Option UInt8} {g : ℕ}
    (hd : lastSent d h = some (n, g)) (hd' : lastSent d' h = some (n', g)) : d = d' := by
  induction h generalizing g with
  | nil => cases hd
  | cons t h ih =>
    cases ht : sent t with
    | none =>
      rw [lastSent_of_not_sent ht] at hd hd'
      exact ih hd hd'
    | some kf =>
      obtain ⟨k, f⟩ := kf
      rcases lastSent_cases ht hd with ⟨hf, -, rfl⟩ | ⟨g₀, hg₀, rfl⟩
      · rcases lastSent_cases ht hd' with ⟨hf', -, -⟩ | ⟨g₁, -, hg⟩
        · exact hf.symm.trans hf'
        · omega
      · rcases lastSent_cases ht hd' with ⟨-, -, hg⟩ | ⟨g₁, hg₁, hg⟩
        · omega
        · obtain rfl : g₀ = g₁ := by omega
          exact ih hg₀ hg₁

/-- Nothing but a frame that is sent draws a data sequence number. -/
def KeepsDsn (_ : Past τ) (s : DataService τ × PIB) : Event → Prop
  | .setPib pib => pib.macDsn = s.2.macDsn
  | _ => True

structure Numbered (h : Past τ) (s : DataService τ × PIB) : Prop where
  counter : ∀ d n g, lastSent d h = some (some n, g) → s.2.macDsn.toNat = (n.toNat + 1 + g) % 256
  awaits : ∀ d n, awaited (s.1.queueAt d).state = some n → ∃ g, lastSent d h = some (some n, g)

theorem Numbered.not_sent {h : Past τ} {s : DataService τ × PIB} (hi : Numbered h s) {t : Step τ}
    (ht : sent t = none) : Numbered (t :: h) s := by
  refine ⟨fun d n g hl => ?_, fun d n hn => ?_⟩
  · rw [lastSent_of_not_sent ht] at hl
    exact hi.counter d n g hl
  · rw [lastSent_of_not_sent ht]
    exact hi.awaits d n hn

theorem Numbered.keeps {h : Past τ} {a b : DataService τ × PIB} (hi : Numbered h a)
    (hpib : b.2 = a.2) (hk : ∀ d, Keeps (a.1.queueAt d) (b.1.queueAt d)) : Numbered h b := by
  refine ⟨?_, fun d n hn => hi.awaits d n (Advances.awaited (hk d).advances hn)⟩
  rw [hpib]
  exact hi.counter

theorem Numbered.sends {h : Past τ} {a b : DataService τ × PIB} {k : UniqueKey} {f : Frame}
    {d₁ : Option FullAddress} {r : DataRequest} {t : Step τ} (hi : Numbered h a)
    (hs : Sends a k f b d₁ r) (hdest : f.destination = d₁) (ht : sent t = some (k, f)) :
    Numbered (t :: h) b := by
  obtain ⟨q', hupd, -, hst⟩ := hs.queues
  obtain ⟨morePending, hf⟩ := hs.frame
  have hseq : f.sequenceNumber = some a.2.macDsn := by rw [hf, createFrame_sequenceNumber]
  have hnext : b.2.macDsn.toNat = (a.2.macDsn.toNat + 1) % 256 := by
    rw [hs.pib]
    exact UInt8.toNat_add _ _
  refine ⟨fun d n g hl => ?_, fun d n hn => ?_⟩
  · rcases lastSent_cases ht hl with ⟨-, hn, rfl⟩ | ⟨g₀, hl₀, rfl⟩
    · obtain rfl : n = a.2.macDsn := Option.some.inj (hn.trans hseq)
      exact hnext
    · have hold := hi.counter d n g₀ hl₀
      omega
  · rw [hupd, Function.update_apply] at hn
    split at hn
    · rename_i hd
      rw [hst] at hn
      have hself := lastSent_self ht h
      rw [hdest, hseq, ← hd] at hself
      cases hack : r.acknowledgeRequest with
      | false =>
        rw [hack] at hn
        cases hn
      | true =>
        rw [hack] at hn
        obtain rfl : a.2.macDsn = n := Option.some.inj hn
        exact ⟨0, hself⟩
    · rename_i hd
      obtain ⟨g, hg⟩ := hi.awaits d n hn
      rw [lastSent_other ht (by rw [hdest]; exact Ne.symm hd), hg]
      exact ⟨g + 1, rfl⟩

/-- Numbers that were drawn at different times are the same when a multiple of 256 was drawn
between them. -/
theorem Numbered.clash_iff {h : Past τ} {s : DataService τ × PIB} (hi : Numbered h s)
    {d d' : Option FullAddress} (hne : d ≠ d') {n n' : UInt8}
    (hn : awaited (s.1.queueAt d).state = some n) (hn' : awaited (s.1.queueAt d').state = some n') :
    ∃ g g', lastSent d h = some (some n, g) ∧ lastSent d' h = some (some n', g') ∧ g ≠ g' ∧
      (n = n' ↔ g % 256 = g' % 256) := by
  obtain ⟨g, hg⟩ := hi.awaits d n hn
  obtain ⟨g', hg'⟩ := hi.awaits d' n' hn'
  refine ⟨g, g', hg, hg', ?_, ?_⟩
  · rintro rfl
    exact hne (lastSent_unique hg hg')
  · have hc := hi.counter d n g hg
    have hc' := hi.counter d' n' g' hg'
    have hlt := n.toNat_lt
    have hlt' := n'.toNat_lt
    rw [← UInt8.toNat_inj]
    omega

theorem awaited_of_ack {s : DataService τ} {pib : PIB} {f : Frame} {payload : Payload}
    (hf : f.frameType = .ack payload) {d : Option FullAddress}
    (hd : (s.processFrame pib f).queueAt d ≠ s.queueAt d) :
    ∃ n, f.sequenceNumber = some n ∧ awaited (s.queueAt d).state = some n := by
  rcases s.queueAt_processFrame pib f d with hsame | ⟨payload', -, hack⟩ | ⟨hreq, -⟩
  · exact absurd hsame hd
  · rw [hack] at hd
    exact awaited_of_acknowledge hd
  · rw [hf] at hreq
    cases hreq

variable [Sleep τ]

theorem Numbered.quiet {h : Past τ} {s s' : DataService τ × PIB} {e : Event}
    (hi : Numbered h s) (hrely : KeepsDsn h s e) (hq : Quiet e s s') : Numbered h s' := by
  have hdsn : s'.2.macDsn = s.2.macDsn := by
    rcases hq.pib with hpib | rfl
    · rw [hpib]
    · exact hrely
  refine ⟨?_, fun d n hn => ?_⟩
  · rw [hdsn]
    exact hi.counter
  · rcases (hq.queues d).advances with hadv | ⟨-, hidle⟩
    · exact hi.awaits d n (Advances.awaited hadv hn)
    · rw [hidle] at hn
      cases hn

theorem numbered_of_run {pib : PIB} {h : Past τ} {s : DataService τ × PIB}
    (hr : Run step KeepsDsn (new, pib) h s) : Numbered h s :=
  transmission_invariant ⟨(fun _ _ _ hl => nomatch hl), (fun _ _ hn => nomatch hn)⟩
    (fun _ _ _ _ _ hrely hq ht hi => (hi.quiet hrely hq).not_sent ht)
    (fun _ _ _ hpib hk hi => hi.keeps hpib hk) (fun _ _ _ ht hi => hi.not_sent ht)
    (fun _ _ _ _ _ _ _ _ hs hdest ht _ hi => hi.sends hs hdest ht) hr

/-- Two queues wait for one number only when a multiple of 256 frames lies between the ones that
they wait for, and only then does one acknowledge change both. -/
theorem awaited_twice_after_wrap {pib : PIB} {h : Past τ} {s : DataService τ × PIB}
    (hr : Run step KeepsDsn (new, pib) h s) {d d' : Option FullAddress} (hne : d ≠ d') :
    (∀ n n', awaited (s.1.queueAt d).state = some n → awaited (s.1.queueAt d').state = some n' →
      ∃ g g', lastSent d h = some (some n, g) ∧ lastSent d' h = some (some n', g') ∧ g ≠ g' ∧
        (n = n' ↔ g % 256 = g' % 256)) ∧
      ∀ f payload, f.frameType = .ack payload →
        (s.1.processFrame s.2 f).queueAt d ≠ s.1.queueAt d →
        (s.1.processFrame s.2 f).queueAt d' ≠ s.1.queueAt d' →
        ∃ n g g', f.sequenceNumber = some n ∧ lastSent d h = some (some n, g) ∧
          lastSent d' h = some (some n, g') ∧ g ≠ g' ∧ g % 256 = g' % 256 := by
  have hi := numbered_of_run hr
  refine ⟨fun n n' hn hn' => hi.clash_iff hne hn hn', fun f payload hf hd hd' => ?_⟩
  obtain ⟨n, hseq, hn⟩ := awaited_of_ack hf hd
  obtain ⟨n', hseq', hn'⟩ := awaited_of_ack hf hd'
  obtain rfl : n = n' := Option.some.inj (hseq.symm.trans hseq')
  obtain ⟨g, g', hg, hg', hgne, hiff⟩ := hi.clash_iff hne hn hn'
  exact ⟨n, g, g', hseq, hg, hg', hgne, hiff.mp rfl⟩

instance (h : Past τ) (s : DataService τ × PIB) : (e : Event) → Decidable (KeepsDsn h s e)
  | .setPib pib => inferInstanceAs (Decidable (pib.macDsn = s.2.macDsn))
  | .mcpsRequest _ _ _ => .isTrue trivial
  | .mlmeResponse _ _ => .isTrue trivial
  | .initPendingTableResult _ _ => .isTrue trivial
  | .setPendingResult _ _ => .isTrue trivial
  | .sendResult _ _ => .isTrue trivial
  | .frame _ => .isTrue trivial
  | .poll _ _ _ => .isTrue trivial

/- A frame to one device is on its way while those to a second one fail again and again. -/
def secondDevice : FullAddress := ⟨⟨1⟩, .short ⟨3⟩⟩

def failingSend (key : Nat) : List Event :=
  [dataRequestFrom secondDevice, pollAt key 0 [[device, secondDevice]], .sendResult ⟨key⟩ false]

def wrapped (failures : Nat) : List Event :=
  [submit 0 0 [] device true false, pollAt 1 0 [[device]], .initPendingTableResult ⟨1⟩ true,
    pollAt 2 0 [[device], [device]], submit 3 1 [some device] secondDevice true true,
    pollAt 4 0 [[device, secondDevice], [device, secondDevice]], .setPendingResult ⟨4⟩ true] ++
  (List.range failures).flatMap (fun i => failingSend (5 + i)) ++
  [dataRequestFrom secondDevice, pollAt (5 + failures) 0 [[device, secondDevice]]]

def playedWrapped (failures : Nat) : Past SleepTimer × DataService SleepTimer × PIB :=
  replay step KeepsDsn (new, coordinator) (wrapped failures)

theorem playedWrapped_run (failures : Nat) :
    Run step KeepsDsn (new, coordinator) (playedWrapped failures).1 (playedWrapped failures).2 :=
  run_replay (wrapped failures)

theorem device_ne_second : some device ≠ some secondDevice := by decide

def awaitedAtEnd (failures : Nat) : Option UInt8 × Option UInt8 :=
  (awaited ((playedWrapped failures).2.1.queueAt (some device)).state,
    awaited ((playedWrapped failures).2.1.queueAt (some secondDevice)).state)

theorem awaited_twice_after_wrap_once : awaitedAtEnd 0 = (some 0, some 1) ∧
    (∀ n n', (awaitedAtEnd 0).1 = some n → (awaitedAtEnd 0).2 = some n' →
      ∃ g g', lastSent (some device) (playedWrapped 0).1 = some (some n, g) ∧
        lastSent (some secondDevice) (playedWrapped 0).1 = some (some n', g') ∧ g ≠ g' ∧
        (n = n' ↔ g % 256 = g' % 256)) :=
  ⟨by decide +kernel, (awaited_twice_after_wrap (playedWrapped_run 0) device_ne_second).1⟩

/-- After 255 failed frames the counter is back at the number of the frame that is on its way. -/
theorem awaited_twice : ¬ ∀ (h : Past SleepTimer) (s : DataService SleepTimer × PIB),
    Run step KeepsDsn (new, coordinator) h s → ∀ d d' n, d ≠ d' →
      awaited (s.1.queueAt d).state = some n → awaited (s.1.queueAt d').state ≠ some n := by
  intro hall
  have hend : awaitedAtEnd 255 = (some 0, some 0) := by decide +kernel
  obtain ⟨hfirst, hsecond⟩ := Prod.mk.inj hend
  exact hall _ _ (playedWrapped_run 255) _ _ 0 device_ne_second hfirst hsecond

end ZigbeeStack.DataService
