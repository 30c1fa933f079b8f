import Mathlib.Data.List.Nodup
import Mathlib.Tactic.Common

/-! Finite runs of a state machine, with their history, and past-time temporal facts about it.
The machine is a partial step function; what its environment may do is a separate predicate. -/
namespace Runs
variable {σ ε ω α κ : Type*}

structure Transition (σ ε ω : Type*) where
  before : σ
  event : ε
  output : ω
  after : σ

abbrev History (σ ε ω : Type*) := List (Transition σ ε ω)

/-- The runs of `step` from `start`, in an environment that makes only the moves `rely` allows.
`step s e = none` means that `e` cannot happen in `s`. -/
inductive Run (step : σ → ε → Option (σ × ω)) (rely : History σ ε ω → σ → ε → Prop) (start : σ) :
    History σ ε ω → σ → Prop where
  | start : Run step rely start [] start
  | next {h : History σ ε ω} {s s' : σ} {e : ε} {o : ω} : Run step rely start h s → rely h s e →
      step s e = some (s', o) → Run step rely start (⟨s, e, o, s'⟩ :: h) s'

section Rules
variable {step : σ → ε → Option (σ × ω)} {rely : History σ ε ω → σ → ε → Prop} {start : σ}

/-- The invariant rule: `P` holds at the start and every allowed step keeps it. -/
theorem Run.invariant {P : History σ ε ω → σ → Prop} (hstart : P [] start)
    (hstep : ∀ h s e s' o, Run step rely start h s → P h s → rely h s e →
      step s e = some (s', o) → P (⟨s, e, o, s'⟩ :: h) s')
    {h : History σ ε ω} {s : σ} (hr : Run step rely start h s) : P h s := by
  induction hr with
  | start => exact hstart
  | next hr hrely hs ih => exact hstep _ _ _ _ _ hr ih hrely hs

/-- A run may be cut at any of its steps. -/
theorem Run.cut {t : Transition σ ε ω} {h : History σ ε ω} :
    ∀ {later : History σ ε ω} {s : σ}, Run step rely start (later ++ t :: h) s →
      Run step rely start h t.before ∧ rely h t.before t.event ∧
        step t.before t.event = some (t.after, t.output) := by
  intro later
  induction later with
  | nil =>
    intro s hr
    cases hr with
    | next hr hrely hs => exact ⟨hr, hrely, hs⟩
  | cons u later ih =>
    intro s hr
    cases hr with
    | next hr _ _ => exact ih hr

theorem Run.step_of_mem {t : Transition σ ε ω} {h : History σ ε ω} {s : σ}
    (hr : Run step rely start h s) (ht : t ∈ h) :
    step t.before t.event = some (t.after, t.output) := by
  obtain ⟨later, past, rfl⟩ := List.append_of_mem ht
  exact hr.cut.2.2

/-- One run after another, where the environment does not look back. -/
theorem Run.append (hrely : ∀ h h' s e, rely h s e → rely h' s e) {h h' : History σ ε ω}
    {s s' : σ} (hr : Run step rely start h s) (hr' : Run step rely s h' s') :
    Run step rely start (h' ++ h) s' := by
  induction hr' with
  | start => exact hr
  | next _ hmay hs ih => exact .next ih (hrely _ _ _ _ hmay) hs

/-- Labels that are new whenever one is given are never given twice. -/
theorem Run.labels_nodup {label : Transition σ ε ω → Option α} {name : α → κ}
    (hfresh : ∀ h s e s' o a, rely h s e → step s e = some (s', o) → label ⟨s, e, o, s'⟩ = some a →
      name a ∉ (h.filterMap label).map name)
    {h : History σ ε ω} {s : σ} (hr : Run step rely start h s) :
    ((h.filterMap label).map name).Nodup := by
  induction hr with
  | start => simp
  | @next h s s' e o _ hrely hs ih =>
    rw [List.filterMap_cons]
    split
    · exact ih
    · rename_i a ha
      rw [List.map_cons, List.nodup_cons]
      exact ⟨hfresh _ _ _ _ _ _ hrely hs ha, ih⟩

def flow (f : Transition σ ε ω → List α) : History σ ε ω → List α
  | [] => []
  | t :: h => flow f h ++ f t

@[simp] theorem flow_nil (f : Transition σ ε ω → List α) : flow f [] = [] := rfl

@[simp] theorem flow_cons (f : Transition σ ε ω → List α) (t : Transition σ ε ω)
    (h : History σ ε ω) : flow f (t :: h) = flow f h ++ f t := rfl

theorem flow_append (f : Transition σ ε ω → List α) (h' h : History σ ε ω) :
    flow f (h' ++ h) = flow f h ++ flow f h' := by
  induction h' with
  | nil => exact (List.append_nil _).symm
  | cons t h' ih => rw [List.cons_append, flow_cons, flow_cons, ih, List.append_assoc]

theorem mem_flow {f : Transition σ ε ω → List α} {h : History σ ε ω} {a : α} :
    a ∈ flow f h ↔ ∃ t ∈ h, a ∈ f t := by
  induction h with
  | nil => simp
  | cons t h ih => simp [ih, or_comm]

theorem filterMap_flow (f : Transition σ ε ω → List α) (part : α → Option κ)
    (h : History σ ε ω) : (flow f h).filterMap part = flow (fun t => (f t).filterMap part) h := by
  induction h with
  | nil => rfl
  | cons t h ih => simp [ih]

theorem flatMap_flow (f : Transition σ ε ω → List α) (g : α → List κ) (h : History σ ε ω) :
    (flow f h).flatMap g = flow (fun t => (f t).flatMap g) h := by
  induction h with
  | nil => rfl
  | cons t h ih => simp [ih]

/-- A channel neither loses nor doubles nor reorders, as long as it works: if each step takes from
the front of the queue what it takes and adds to its back what it puts in, then what has been taken
and what still waits is together what the queue began with and what has been put in. -/
theorem Run.channel (queue : σ → List α) (put taken : Transition σ ε ω → List α) {works : σ → Prop}
    (hworks : ∀ s e s' o, step s e = some (s', o) → works s' → works s)
    (hstep : ∀ h s e s' o, Run step rely start h s → step s e = some (s', o) → works s' →
      taken ⟨s, e, o, s'⟩ ++ queue s' = queue s ++ put ⟨s, e, o, s'⟩)
    {h : History σ ε ω} {s : σ} (hr : Run step rely start h s) (hw : works s) :
    flow taken h ++ queue s = queue start ++ flow put h := by
  induction hr with
  | start => simp
  | @next h s s' e o hrun _ hs ih =>
    rw [flow_cons, flow_cons, List.append_assoc, hstep h s e s' o hrun hs hw, ← List.append_assoc,
      ih (hworks s e s' o hs hw), List.append_assoc]

variable [∀ h s e, Decidable (rely h s e)]

def play (step : σ → ε → Option (σ × ω)) (rely : History σ ε ω → σ → ε → Prop)
    [∀ h s e, Decidable (rely h s e)] :
    List ε → History σ ε ω × σ → Option (History σ ε ω × σ)
  | [], r => some r
  | e :: es, (h, s) =>
    if rely h s e then
      match step s e with
      | some (s', o) => play step rely es (⟨s, e, o, s'⟩ :: h, s')
      | none => none
    else none

theorem Run.of_play {es : List ε} {h h' : History σ ε ω} {s s' : σ}
    (hr : Run step rely start h s) (hp : play step rely es (h, s) = some (h', s')) :
    Run step rely start h' s' := by
  induction es generalizing h s with
  | nil =>
    simp only [play, Option.some.injEq, Prod.mk.injEq] at hp
    obtain ⟨rfl, rfl⟩ := hp
    exact hr
  | cons e es ih =>
    simp only [play] at hp
    split at hp
    · rename_i hrely
      split at hp
      · rename_i hs
        exact ih (.next hr hrely hs) hp
      · cases hp
    · cases hp

def replay (step : σ → ε → Option (σ × ω)) (rely : History σ ε ω → σ → ε → Prop)
    [∀ h s e, Decidable (rely h s e)] (start : σ) (es : List ε) : History σ ε ω × σ :=
  (play step rely es ([], start)).getD ([], start)

theorem run_replay (es : List ε) :
    Run step rely start (replay step rely start es).1 (replay step rely start es).2 := by
  unfold replay
  cases h : play step rely es ([], start) with
  | none => exact .start
  | some r => exact .of_play .start h

end Rules

/-! Past-time operators on a history, read from the newest step back. -/

def Since (p q : α → Prop) : List α → Prop
  | [] => False
  | t :: h => q t ∨ (p t ∧ Since p q h)

instance decidableSince {p q : α → Prop} [DecidablePred p] [DecidablePred q] :
    DecidablePred (Since p q)
  | [] => .isFalse id
  | t :: h =>
    have : Decidable (Since p q h) := decidableSince h
    inferInstanceAs (Decidable (q t ∨ (p t ∧ Since p q h)))

theorem since_iff {p q : α → Prop} {h : List α} :
    Since p q h ↔ ∃ later t past, h = later ++ t :: past ∧ (∀ u ∈ later, p u) ∧ q t := by
  induction h with
  | nil => simp [Since]
  | cons u h ih =>
    rw [Since, ih]
    constructor
    · rintro (hq | ⟨hp, later, t, past, rfl, hl, hq⟩)
      · exact ⟨[], u, h, rfl, by simp, hq⟩
      · exact ⟨u :: later, t, past, rfl, by simpa using ⟨hp, hl⟩, hq⟩
    · rintro ⟨later, t, past, heq, hl, hq⟩
      cases later with
      | nil =>
        obtain ⟨rfl, rfl⟩ := List.cons.inj heq
        exact .inl hq
      | cons v later =>
        obtain ⟨rfl, rfl⟩ := List.cons.inj heq
        exact .inr ⟨hl u (by simp), later, t, past, rfl, fun w hw => hl w (by simp [hw]), hq⟩

theorem since_append {p q : α → Prop} {later h : List α} :
    Since p q (later ++ h) ↔ Since p q later ∨ ((∀ u ∈ later, p u) ∧ Since p q h) := by
  induction later with
  | nil => simp [Since]
  | cons u later ih =>
    rw [List.cons_append, Since, ih, Since, List.forall_mem_cons]
    tauto

theorem Since.mono {p p' q q' : α → Prop} (hp : ∀ t, p t → p' t) (hq : ∀ t, q t → q' t)
    {h : List α} (hs : Since p q h) : Since p' q' h := by
  induction h with
  | nil => exact hs
  | cons t h ih => exact hs.imp (hq t) (And.imp (hp t) ih)

theorem Since.exists {p q : α → Prop} {h : List α} (hs : Since p q h) : ∃ t ∈ h, q t := by
  obtain ⟨later, t, past, rfl, -, hq⟩ := since_iff.mp hs
  exact ⟨t, by simp, hq⟩

/-- `Since` in terms of times: step `n` of the history is `h.reverse[n]`. -/
theorem Since.exists_time {p q : α → Prop} {h : List α} (hs : Since p q h) :
    ∃ i < h.length, (∃ t, h.reverse[i]? = some t ∧ q t) ∧
      ∀ j u, i < j → h.reverse[j]? = some u → p u := by
  obtain ⟨later, t, past, rfl, hl, hq⟩ := since_iff.mp hs
  refine ⟨past.length, by simp; omega, ⟨t, by simp, hq⟩, ?_⟩
  intro j u hj hu
  have hrev : (later ++ t :: past).reverse = (past.reverse ++ [t]) ++ later.reverse := by simp
  rw [hrev, List.getElem?_append_right (by simp; omega)] at hu
  exact hl u (List.mem_reverse.mp (List.mem_of_getElem? hu))

/-- Every effect has a cause of its own. If each effect of a kind has a cause of its kind before
it with no effect of that kind between the two, then sending an effect to that cause matches the
effects with earlier causes, no cause being used twice. -/
theorem exists_matching {effect cause : κ → α → Prop} {h : List α}
    (hown : ∀ later t past, h = later ++ t :: past → ∀ c, effect c t →
      Since (fun u => ¬ effect c u) (cause c) past)
    (hkind : ∀ c c' t, cause c t → cause c' t → c = c') :
    ∃ f : κ → ℕ → ℕ,
      (∀ c n t, h.reverse[n]? = some t → effect c t →
        f c n < n ∧ ∃ u, h.reverse[f c n]? = some u ∧ cause c u) ∧
      (∀ c c' n n' t t', h.reverse[n]? = some t → effect c t → h.reverse[n']? = some t' →
        effect c' t' → f c n = f c' n' → c = c' ∧ n = n') := by
  have hone : ∀ (c : κ) (n : ℕ), ∃ i : ℕ, ∀ t, h.reverse[n]? = some t → effect c t →
      i < n ∧ (∃ u, h.reverse[i]? = some u ∧ cause c u) ∧
        ∀ j u, i < j → j < n → h.reverse[j]? = some u → ¬ effect c u := by
    intro c n
    cases ht : h.reverse[n]? with
    | none => exact ⟨0, by simp⟩
    | some t =>
      by_cases he : effect c t
      · obtain ⟨hn, hget⟩ := List.getElem?_eq_some_iff.mp ht
        have hsplit : h.reverse = h.reverse.take n ++ t :: h.reverse.drop (n + 1) := by
          rw [← hget, List.getElem_cons_drop, List.take_append_drop]
        have hh : h = (h.reverse.drop (n + 1)).reverse ++ t :: (h.reverse.take n).reverse := by
          simpa using congrArg List.reverse hsplit
        obtain ⟨i, hi, ⟨u, hu, hc⟩, hno⟩ := (hown _ _ _ hh c he).exists_time
        rw [List.reverse_reverse] at hu hno
        have hlen : (h.reverse.take n).reverse.length = n := by
          rw [List.length_reverse, List.length_take]
          exact Nat.min_eq_left (Nat.le_of_lt hn)
        rw [hlen] at hi
        refine ⟨i, fun _ _ _ => ⟨hi, ⟨u, ?_, hc⟩, ?_⟩⟩
        · rwa [List.getElem?_take_of_lt hi] at hu
        · intro j v hij hjn hv
          exact hno j v hij (by rwa [List.getElem?_take_of_lt hjn])
      · refine ⟨0, fun t' ht' he' => ?_⟩
        obtain rfl := Option.some.inj ht'
        exact absurd he' he
  choose f hf using hone
  refine ⟨f, fun c n t ht he => ⟨(hf c n t ht he).1, (hf c n t ht he).2.1⟩, ?_⟩
  intro c c' n n' t t' ht he ht' he' heq
  obtain ⟨hlt, ⟨u, hu, hc⟩, hno⟩ := hf c n t ht he
  obtain ⟨hlt', ⟨u', hu', hc'⟩, hno'⟩ := hf c' n' t' ht' he'
  rw [← heq, hu] at hu'
  obtain rfl := Option.some.inj hu'
  obtain rfl := hkind c c' u hc hc'
  refine ⟨rfl, ?_⟩
  -- the later of two effects with one cause would see the earlier one after that cause
  rcases Nat.lt_trichotomy n n' with hnn | hnn | hnn
  · exact absurd he (hno' n t (by rw [← heq]; exact hlt) hnn ht)
  · exact hnn
  · exact absurd he' (hno n' t' (by rw [heq]; exact hlt') hnn ht')

end Runs
