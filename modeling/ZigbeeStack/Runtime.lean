import Mathlib.Init

/-! What the program takes from its runtime: unique keys, task wakers, timers and the result of a
poll. Timers belong to the executor and stay a parameter of the model. -/
namespace ZigbeeStack

/- A process-wide unique id. `UniqueKey::new` gives a key that was never given before; the callers
   pass that key in, and the runs below say that it is fresh. -/
structure UniqueKey where
  id : Nat
deriving DecidableEq, Repr

abbrev Waker := Nat

/-- Holds the waker of the last poll that returned pending. `woken` logs the calls of
`Waker::wake`, the only thing a wake does to its surroundings. -/
structure WakerStore where
  storage : Option Waker
  woken : List Waker
deriving DecidableEq, Repr

namespace WakerStore

def new : WakerStore := ⟨none, []⟩
def register (self : WakerStore) (waker : Waker) : WakerStore :=
  { self with storage := some waker }
def wake (self : WakerStore) : WakerStore :=
  match self.storage with
  | some waker => ⟨none, waker :: self.woken⟩
  | none => self
def pend (self : WakerStore) (cx : Waker) : WakerStore := self.register cx

end WakerStore

/- A task ends with a panic: of `unwrap`, of `panic!`, or of an index out of bounds. -/
inductive Panic where
  | unwrap
  | explicit
  | bounds
deriving DecidableEq, Repr

def unwrap {ε α : Type} : Except ε α → Except Panic α
  | .ok value => .ok value
  | .error _ => .error .unwrap

inductive Poll (α : Type*) where
  | ready (value : α)
  | pending
deriving DecidableEq, Repr

/- Instants and durations count nanoseconds. -/
abbrev Instant := Nat
abbrev Duration := Nat
def Duration.fromMillis (n : Nat) : Duration := n * 1000000
def Duration.fromSecs (n : Nat) : Duration := n * 1000000000

/-- The executor's `sleep` future: polled at an instant it tells whether it is ready, and it may
keep something for its next poll, such as the deadline it starts at its first one. -/
class Sleep (τ : Type) where
  sleep : Duration → τ
  poll : Instant → τ → Bool × τ

/-- A timer that was pending at an instant is pending when polled again at that instant. -/
class LawfulSleep (τ : Type) [Sleep τ] : Prop where
  pending_again (now : Instant) (timer : τ) : (Sleep.poll now timer).1 = false →
    (Sleep.poll now (Sleep.poll now timer).2).1 = false

/-- A timer as the executor documents it: it starts at its first poll and is ready once its
duration has passed, never earlier. -/
structure SleepTimer where
  duration : Duration
  deadline : Option Instant
deriving DecidableEq, Repr

instance : Sleep SleepTimer where
  sleep duration := ⟨duration, none⟩
  poll now timer :=
    let deadline := timer.deadline.getD (now + timer.duration)
    (decide (deadline ≤ now), { timer with deadline := some deadline })

instance : LawfulSleep SleepTimer where
  pending_again _ _ h := h

end ZigbeeStack
