import ZigbeeStack.Collections
import ZigbeeStack.Runtime
import Mathlib.Logic.Function.Basic

/-! A queue of values that come out when their time has come. Somebody keeps the key of each value
in it and takes care never to use one that is gone. -/
namespace ZigbeeStack.OldSrc

/-- The queue of the timer library, by its documentation and without the time: a value goes in under
a key that no other one has, and comes out when it is removed or when its time has come. Which value
that is, and when, is up to the library. A key that is used after its value has left is out of
bounds. -/
class TimerLibrary (D : Type → Type) where
  entry {T : Type} : D T → Nat → Option (T × Duration)
  new {T : Type} : D T
  insert {T : Type} : D T → T → Duration → Nat × D T
  remove {T : Type} : D T → Nat → Except Panic (T × D T)
  reset {T : Type} : D T → Nat → Duration → Except Panic (D T)
  clear {T : Type} : D T → D T
  expire {T : Type} : D T → Nat → Option (T × D T)
  entry_new {T : Type} (key : Nat) : entry (new : D T) key = none
  entry_fresh {T : Type} (q : D T) (value : T) (timeout : Duration) :
    entry q (insert q value timeout).1 = none
  entry_insert {T : Type} (q : D T) (value : T) (timeout : Duration) :
    entry (insert q value timeout).2 =
      Function.update (entry q) (insert q value timeout).1 (some (value, timeout))
  remove_some {T : Type} {q : D T} {key : Nat} {value : T} {duration : Duration} :
    entry q key = some (value, duration) →
      ∃ q', remove q key = .ok (value, q') ∧ entry q' = Function.update (entry q) key none
  remove_none {T : Type} {q : D T} {key : Nat} :
    entry q key = none → remove q key = .error .bounds
  reset_some {T : Type} {q : D T} {key : Nat} {value : T} {duration : Duration} :
    entry q key = some (value, duration) → ∀ timeout, ∃ q', reset q key timeout = .ok q' ∧
      entry q' = Function.update (entry q) key (some (value, timeout))
  reset_none {T : Type} {q : D T} {key : Nat} :
    entry q key = none → ∀ timeout, reset q key timeout = .error .bounds
  entry_clear {T : Type} (q : D T) (key : Nat) : entry (clear q) key = none
  expire_some {T : Type} {q : D T} {key : Nat} {value : T} {duration : Duration} :
    entry q key = some (value, duration) →
      ∃ q', expire q key = some (value, q') ∧ entry q' = Function.update (entry q) key none
  expire_none {T : Type} {q : D T} {key : Nat} : entry q key = none → expire q key = none

/- A library that never gives a key twice. -/
structure TokioDQ (T : Type) where
  entries : HashMap.Map Nat (T × Duration)
  next : Nat
  below : ∀ key ∈ entries, key < next

namespace TokioDQ
variable {T : Type}

def insert (self : TokioDQ T) (value : T) (timeout : Duration) : Nat × TokioDQ T :=
  (self.next, {
    entries := HashMap.set self.entries self.next (value, timeout)
    next := self.next + 1
    below := by
      intro key hmem
      rw [HashMap.set, AList.mem_insert] at hmem
      obtain rfl | hmem := hmem
      · exact Nat.lt_succ_self _
      · exact Nat.lt_succ_of_lt (self.below key hmem) })

def erase (self : TokioDQ T) (key : Nat) : TokioDQ T where
  entries := HashMap.remove self.entries key
  next := self.next
  below key' hmem := self.below key' (AList.mem_erase.mp hmem).2

def expire (self : TokioDQ T) (key : Nat) : Option (T × TokioDQ T) :=
  (HashMap.get self.entries key).map fun entry => (entry.1, self.erase key)

def set (self : TokioDQ T) {key : Nat} (h : key < self.next) (entry : T × Duration) :
    TokioDQ T where
  entries := HashMap.set self.entries key entry
  next := self.next
  below := by
    intro key' hmem
    rw [HashMap.set, AList.mem_insert] at hmem
    obtain rfl | hmem := hmem
    · exact h
    · exact self.below key' hmem

theorem lt_next {self : TokioDQ T} {key : Nat} {entry : T × Duration}
    (h : HashMap.get self.entries key = some entry) : key < self.next :=
  self.below key (AList.lookup_isSome.mp (by rw [← HashMap.get, h]; rfl))

def remove (self : TokioDQ T) (key : Nat) : Except Panic (T × TokioDQ T) :=
  match self.expire key with
  | some removed => .ok removed
  | none => .error .bounds

def reset (self : TokioDQ T) (key : Nat) (timeout : Duration) : Except Panic (TokioDQ T) :=
  match h : HashMap.get self.entries key with
  | some (value, _) => .ok (self.set (lt_next h) (value, timeout))
  | none => .error .bounds

theorem get_set_eq_update (m : HashMap.Map Nat (T × Duration)) (key : Nat) (entry : T × Duration) :
    HashMap.get (HashMap.set m key entry) = Function.update (HashMap.get m) key (some entry) := by
  funext key'
  rw [HashMap.get_set, Function.update_apply]

theorem get_remove_eq_update (m : HashMap.Map Nat (T × Duration)) (key : Nat) :
    HashMap.get (HashMap.remove m key) = Function.update (HashMap.get m) key none := by
  funext key'
  rw [HashMap.get_remove, Function.update_apply]

theorem expire_some {self : TokioDQ T} {key : Nat} {value : T} {duration : Duration}
    (h : HashMap.get self.entries key = some (value, duration)) :
    self.expire key = some (value, self.erase key) := by
  rw [expire, h, Option.map_some]

theorem reset_eq {self : TokioDQ T} {key : Nat} {value : T} {duration : Duration}
    (h : HashMap.get self.entries key = some (value, duration)) (timeout : Duration) :
    self.reset key timeout = .ok (self.set (lt_next h) (value, timeout)) := by
  unfold reset
  split
  · rename_i value' duration' h'
    obtain rfl := congrArg Prod.fst (Option.some.inj (h'.symm.trans h))
    rfl
  · rename_i h'
    cases h'.symm.trans h

instance : TimerLibrary TokioDQ where
  entry self := HashMap.get self.entries
  new := ⟨∅, 0, fun _ hmem => absurd hmem (AList.notMem_empty _)⟩
  insert := insert
  remove := remove
  reset := reset
  clear self := ⟨∅, self.next, fun _ hmem => absurd hmem (AList.notMem_empty _)⟩
  expire := expire
  entry_new _ := rfl
  entry_fresh self _ _ := by
    cases hget : HashMap.get self.entries self.next with
    | none => exact hget
    | some entry => exact absurd (lt_next hget) (lt_irrefl _)
  entry_insert self _ _ := get_set_eq_update self.entries _ _
  remove_some h := ⟨_, by rw [remove, expire_some h], get_remove_eq_update _ _⟩
  remove_none h := by rw [remove, expire, h]; rfl
  reset_some h timeout := ⟨_, reset_eq h timeout, get_set_eq_update _ _ _⟩
  reset_none h timeout := by
    unfold reset
    split
    · rename_i h'
      cases h'.symm.trans h
    · rfl
  entry_clear _ _ := rfl
  expire_some h := ⟨_, expire_some h, get_remove_eq_update _ _⟩
  expire_none h := by rw [expire, h]; rfl

end TokioDQ

/- The waker is kept as in a `WakerStore`. -/
structure DelayQueue (D : Type → Type) (T : Type) where
  inner : D T
  finished : Bool
  waker : WakerStore

abbrev DelayQueue.Key := Option Nat

namespace DelayQueue
variable {D : Type → Type} [TimerLibrary D] {T : Type}

def new : DelayQueue D T := ⟨TimerLibrary.new, false, .new⟩

omit [TimerLibrary D] in
def wakeMe (self : DelayQueue D T) : DelayQueue D T := { self with waker := self.waker.wake }

def insert (self : DelayQueue D T) (value : T) (timeout : Duration) : Key × DelayQueue D T :=
  if self.finished then (none, self)
  else
    let (key, inner) := TimerLibrary.insert self.inner value timeout
    (some key, { self with inner := inner }.wakeMe)

def remove (self : DelayQueue D T) (key : Key) : Except Panic (Option T × DelayQueue D T) :=
  if self.finished then .ok (none, self)
  else match key with
    | some innerKey => do
      let (value, inner) ← TimerLibrary.remove self.inner innerKey
      return (some value, { self with inner := inner })
    | none => .ok (none, self)

def reset (self : DelayQueue D T) (key : Key) (timeout : Duration) :
    Except Panic (DelayQueue D T) :=
  if self.finished then .ok self
  else match key with
    | some innerKey => do
      let inner ← TimerLibrary.reset self.inner innerKey timeout
      return { self with inner := inner }.wakeMe
    | none => .ok self

def «end» (self : DelayQueue D T) : DelayQueue D T :=
  { self with finished := true, inner := TimerLibrary.clear self.inner }.wakeMe

/- `due` is the key of the value that the library finds to be due, if any. -/
def pollNext (self : DelayQueue D T) (cx : Waker) (due : Option Nat) :
    Poll (Option T) × DelayQueue D T :=
  if self.finished then (.ready none, self)
  else
    let self := { self with waker := self.waker.register cx }
    match due with
    | some key => match TimerLibrary.expire self.inner key with
      | some (value, inner) => (.ready (some value), { self with inner := inner })
      | none => (.pending, self)
    | none => (.pending, self)

end DelayQueue

structure Keeps {D : Type → Type} [TimerLibrary D] {T : Type} (timers : DelayQueue D T)
    (kept : T → Option Nat) (clock : T → Option Duration) : Prop where
  running : timers.finished = false
  entry_iff : ∀ value key duration,
    TimerLibrary.entry timers.inner key = some (value, duration) ↔
      kept value = some key ∧ clock value = some duration
  clock_iff : ∀ value, (clock value).isSome ↔ (kept value).isSome

namespace Keeps
variable {D : Type → Type} [TimerLibrary D] {T : Type}

theorem empty : Keeps (.new : DelayQueue D T) (fun _ => none) fun _ => none where
  running := rfl
  entry_iff value key duration := by simp [DelayQueue.new, TimerLibrary.entry_new]
  clock_iff value := Iff.rfl

variable {timers : DelayQueue D T} {kept : T → Option Nat} {clock : T → Option Duration}
  {value : T} {key : Nat}

theorem exists_entry (h : Keeps timers kept clock) (hkey : kept value = some key) :
    ∃ duration, TimerLibrary.entry timers.inner key = some (value, duration) := by
  obtain ⟨duration, hclock⟩ := Option.isSome_iff_exists.mp
    ((h.clock_iff value).mpr (by rw [hkey]; rfl))
  exact ⟨duration, (h.entry_iff value key duration).mpr ⟨hkey, hclock⟩⟩

theorem kept_inj (h : Keeps timers kept clock) {value' : T} (hkey : kept value = some key)
    (hkey' : kept value' = some key) : value' = value := by
  obtain ⟨duration, hentry⟩ := h.exists_entry hkey
  obtain ⟨duration', hentry'⟩ := h.exists_entry hkey'
  exact congrArg Prod.fst (Option.some.inj (hentry'.symm.trans hentry))

variable [DecidableEq T]

theorem set (h : Keeps timers kept clock) {timers' : DelayQueue D T} (duration : Duration)
    (hown : ∀ key' ∈ kept value, key' = key) (hother : ∀ value' ≠ value, kept value' ≠ some key)
    (hrunning : timers'.finished = false)
    (hentry : TimerLibrary.entry timers'.inner =
      Function.update (TimerLibrary.entry timers.inner) key (some (value, duration))) :
    Keeps timers' (Function.update kept value (some key))
      (Function.update clock value (some duration)) := by
  refine ⟨hrunning, fun value' key' duration' => ?_, fun value' => ?_⟩
  · rw [hentry, Function.update_apply]
    by_cases hv : value' = value
    · subst hv
      rw [Function.update_self, Function.update_self]
      by_cases hk : key' = key
      · subst hk
        simp
      · have hgone : kept value' ≠ some key' := fun hsome => hk (hown key' hsome)
        simp [hk, Ne.symm hk, h.entry_iff, hgone]
    · rw [Function.update_of_ne hv, Function.update_of_ne hv]
      by_cases hk : key' = key
      · subst hk
        simp [Ne.symm hv, hother value' hv]
      · simp [hk, h.entry_iff]
  · by_cases hv : value' = value
    · simp [hv]
    · rw [Function.update_of_ne hv, Function.update_of_ne hv]
      exact h.clock_iff value'

theorem drop (h : Keeps timers kept clock) {timers' : DelayQueue D T}
    (hkept : kept value = some key) (hrunning : timers'.finished = false)
    (hentry : TimerLibrary.entry timers'.inner =
      Function.update (TimerLibrary.entry timers.inner) key none) :
    Keeps timers' (Function.update kept value none) (Function.update clock value none) := by
  refine ⟨hrunning, fun value' key' duration' => ?_, fun value' => ?_⟩
  · rw [hentry, Function.update_apply]
    by_cases hv : value' = value
    · subst hv
      rw [Function.update_self, Function.update_self]
      by_cases hk : key' = key
      · simp [hk]
      · have hgone : kept value' ≠ some key' := fun hsome =>
          hk (Option.some.inj (hsome.symm.trans hkept))
        simp [hk, h.entry_iff, hgone]
    · rw [Function.update_of_ne hv, Function.update_of_ne hv]
      by_cases hk : key' = key
      · subst hk
        have hgone : kept value' ≠ some key' := fun hsome => hv (h.kept_inj hkept hsome)
        simp [hgone]
      · simp [hk, h.entry_iff]
  · by_cases hv : value' = value
    · simp [hv]
    · rw [Function.update_of_ne hv, Function.update_of_ne hv]
      exact h.clock_iff value'

/-! Each call, with the key that is kept or with none to keep. -/

theorem insert (h : Keeps timers kept clock) (hnone : kept value = none) (timeout : Duration) :
    ∃ key, (timers.insert value timeout).1 = some key ∧
      Keeps (timers.insert value timeout).2 (Function.update kept value (some key))
        (Function.update clock value (some timeout)) := by
  have hinsert : timers.insert value timeout =
      (some (TimerLibrary.insert timers.inner value timeout).1,
        { timers with inner := (TimerLibrary.insert timers.inner value timeout).2 }.wakeMe) := by
    rw [DelayQueue.insert, if_neg (by rw [h.running]; decide)]
  rw [hinsert]
  refine ⟨_, rfl, h.set timeout (by simp [hnone]) (fun value' _ hsome => ?_) h.running
    (TimerLibrary.entry_insert _ _ _)⟩
  obtain ⟨duration, hentry⟩ := h.exists_entry hsome
  cases (TimerLibrary.entry_fresh _ _ _).symm.trans hentry

theorem remove (h : Keeps timers kept clock) (hkept : kept value = some key) :
    ∃ timers', timers.remove (some key) = .ok (some value, timers') ∧
      Keeps timers' (Function.update kept value none) (Function.update clock value none) := by
  obtain ⟨duration, hentry⟩ := h.exists_entry hkept
  obtain ⟨inner, hremove, hrest⟩ := TimerLibrary.remove_some hentry
  refine ⟨{ timers with inner := inner }, ?_, h.drop hkept h.running hrest⟩
  rw [DelayQueue.remove, if_neg (by rw [h.running]; decide)]
  simp only [hremove]
  rfl

theorem reset (h : Keeps timers kept clock) (hkept : kept value = some key) (timeout : Duration) :
    ∃ timers', timers.reset (some key) timeout = .ok timers' ∧
      Keeps timers' kept (Function.update clock value (some timeout)) := by
  obtain ⟨duration, hentry⟩ := h.exists_entry hkept
  obtain ⟨inner, hreset, hrest⟩ := TimerLibrary.reset_some hentry timeout
  have hset : Keeps { timers with inner := inner }.wakeMe _ _ :=
    h.set timeout (fun key' hk => Option.some.inj (hk.symm.trans hkept))
      (fun value' hv hsome => hv (h.kept_inj hkept hsome)) h.running hrest
  rw [← hkept, Function.update_eq_self] at hset
  refine ⟨_, ?_, hset⟩
  rw [DelayQueue.reset, if_neg (by rw [h.running]; decide)]
  simp only [hreset]
  rfl

/-- What comes out is a value whose timer was kept. -/
theorem pollNext (h : Keeps timers kept clock) (cx : Waker) (due : Option Nat) :
    (∃ timers', timers.pollNext cx due = (.pending, timers') ∧ Keeps timers' kept clock) ∨
      ∃ value timers', (kept value).isSome ∧
        timers.pollNext cx due = (.ready (some value), timers') ∧
        Keeps timers' (Function.update kept value none) (Function.update clock value none) := by
  have hidle : Keeps { timers with waker := timers.waker.register cx } kept clock :=
    ⟨h.running, h.entry_iff, h.clock_iff⟩
  rw [DelayQueue.pollNext, if_neg (by rw [h.running]; decide)]
  cases due with
  | none => exact .inl ⟨_, rfl, hidle⟩
  | some key =>
    cases hentry : TimerLibrary.entry timers.inner key with
    | none => exact .inl ⟨_, by simp only [TimerLibrary.expire_none hentry], hidle⟩
    | some entry =>
      obtain ⟨value, duration⟩ := entry
      obtain ⟨hkept, -⟩ := (h.entry_iff value key duration).mp hentry
      obtain ⟨inner, hexpire, hrest⟩ := TimerLibrary.expire_some hentry
      have hdrop : Keeps { timers with inner := inner, waker := timers.waker.register cx } _ _ :=
        h.drop hkept h.running hrest
      exact .inr ⟨value, _, by rw [hkept]; rfl, by simp only [hexpire], hdrop⟩

end Keeps

end ZigbeeStack.OldSrc
