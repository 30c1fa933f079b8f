import ZigbeeStack.RawRadio
import ZigbeeStack.Runs

/-! Writing to the serial line: messages are encoded into a buffer, and a writer takes what it
likes of it. Nothing is lost or sent twice, wherever the writer stops. -/
namespace ZigbeeStack
open ByteStreams

class AsyncWrite (W : Type) where
  pollWrite : W → List UInt8 → Poll (Except Unit Nat) × W
  pollFlush : W → Poll (Except Unit Unit) × W
  pollClose : W → Poll (Except Unit Unit) × W

/-- What a writer takes is at least one byte, and no more than it is offered. -/
class LawfulAsyncWrite (W : Type) [AsyncWrite W] : Prop where
  takes (writer : W) (data : List UInt8) (count : Nat) : data ≠ [] →
    (AsyncWrite.pollWrite writer data).1 = .ready (.ok count) → 0 < count ∧ count ≤ data.length

structure RawRadioSink (W : Type) where
  target : W
  buffer : List UInt8
  written : Nat
deriving Repr

namespace RawRadioSink
variable {W : Type}

def new (target : W) : RawRadioSink W := ⟨target, [], 0⟩

def startSend [CookieFactory] (self : RawRadioSink W) (item : RawRadioMessage) : RawRadioSink W :=
  { self with buffer := self.buffer ++ item.into }

variable [AsyncWrite W]

/-- At most `fuel` turns of the loop; without a result the call has not returned after these. -/
def pollReady : Nat → RawRadioSink W → Option (Poll (Except Unit Unit)) × RawRadioSink W
  | 0, self => (none, self)
  | fuel+1, self =>
    if self.written < self.buffer.length then
      match AsyncWrite.pollWrite self.target (self.buffer.drop self.written) with
      | (.ready (.ok numSent), target) =>
        pollReady fuel { self with target, written := self.written + numSent }
      | (.ready (.error e), target) => (some (.ready (.error e)), { self with target })
      | (.pending, target) => (some .pending, { self with target })
    else (some (.ready (.ok ())), { self with buffer := [], written := 0 })

def afterReady (finish : W → Poll (Except Unit Unit) × W) (fuel : Nat) (self : RawRadioSink W) :
    Option (Poll (Except Unit Unit)) × RawRadioSink W :=
  match pollReady fuel self with
  | (some (.ready (.ok ())), self) =>
    (some (finish self.target).1, { self with target := (finish self.target).2 })
  | r => r

def pollFlush (fuel : Nat) (self : RawRadioSink W) :
    Option (Poll (Except Unit Unit)) × RawRadioSink W :=
  afterReady AsyncWrite.pollFlush fuel self

def pollClose (fuel : Nat) (self : RawRadioSink W) :
    Option (Poll (Except Unit Unit)) × RawRadioSink W :=
  afterReady AsyncWrite.pollClose fuel self

end RawRadioSink

structure Recorder (W : Type) where
  inner : W
  accepted : List UInt8
deriving Repr

namespace Recorder
variable {W : Type} [AsyncWrite W]

def taken (answer : Poll (Except Unit Nat)) (data : List UInt8) : List UInt8 :=
  match answer with
  | .ready (.ok count) => data.take count
  | _ => []

instance : AsyncWrite (Recorder W) where
  pollWrite self data :=
    let answer := AsyncWrite.pollWrite self.inner data
    (answer.1, ⟨answer.2, self.accepted ++ taken answer.1 data⟩)
  pollFlush self :=
    let answer := AsyncWrite.pollFlush self.inner
    (answer.1, { self with inner := answer.2 })
  pollClose self :=
    let answer := AsyncWrite.pollClose self.inner
    (answer.1, { self with inner := answer.2 })

theorem pollWrite_eq {self : Recorder W} {data : List UInt8} {answer : Poll (Except Unit Nat)}
    {inner : W} (h : AsyncWrite.pollWrite self.inner data = (answer, inner)) :
    AsyncWrite.pollWrite self data = (answer, ⟨inner, self.accepted ++ taken answer data⟩) := by
  change ((AsyncWrite.pollWrite self.inner data).1, _) = _
  rw [h]

end Recorder

namespace RawRadioSink
open Runs
variable {W : Type}

inductive Call where
  | startSend (item : RawRadioMessage)
  | pollReady
  | pollFlush
  | pollClose
deriving DecidableEq, Repr

def unsent (self : RawRadioSink W) : List UInt8 := self.buffer.drop self.written

section Step
variable [CookieFactory] [AsyncWrite W]

def call (fuel : Nat) (self : RawRadioSink W) :
    Call → Option (Poll (Except Unit Unit)) × RawRadioSink W
  | .startSend item => (some (.ready (.ok ())), self.startSend item)
  | .pollReady => pollReady fuel self
  | .pollFlush => pollFlush fuel self
  | .pollClose => pollClose fuel self

/-- A call that returns: the loop needs at most a turn for each unsent byte, and one to see that
there is none left. -/
def step (self : RawRadioSink W) (e : Call) :
    Option (RawRadioSink W × Poll (Except Unit Unit)) :=
  let r := self.call (self.unsent.length + 1) e
  r.1.map fun result => (r.2, result)

def AnyOrder (_ : History (RawRadioSink W) Call (Poll (Except Unit Unit))) (_ : RawRadioSink W)
    (_ : Call) : Prop := True

instance (h : History (RawRadioSink W) Call (Poll (Except Unit Unit))) (self : RawRadioSink W)
    (e : Call) : Decidable (AnyOrder h self e) := .isTrue trivial

def Call.encoding : Call → List UInt8
  | .startSend item => item.into
  | _ => []

def encodings (h : History (RawRadioSink W) Call (Poll (Except Unit Unit))) : List UInt8 :=
  h.reverse.flatMap fun t => t.event.encoding

end Step

structure Lossless (bytes : List UInt8) (sink : RawRadioSink (Recorder W)) : Prop where
  bytes : sink.target.accepted ++ sink.unsent = bytes
  written : sink.written ≤ sink.buffer.length

section Lossless
variable {bytes : List UInt8} {self : RawRadioSink (Recorder W)}

theorem lossless_new (writer : W) : Lossless [] (new (Recorder.mk writer [])) :=
  ⟨rfl, Nat.le_refl _⟩

theorem Lossless.startSend [CookieFactory] (h : Lossless bytes self) (item : RawRadioMessage) :
    Lossless (bytes ++ item.into) (self.startSend item) := by
  have hle := h.written
  refine ⟨?_, ?_⟩
  · rw [← h.bytes, List.append_assoc]
    simp only [unsent, RawRadioSink.startSend, List.drop_append_of_le_length hle]
  · simp only [RawRadioSink.startSend, List.length_append]
    omega

theorem Lossless.take (h : Lossless bytes self) {count : Nat} (hcount : count ≤ self.unsent.length)
    (inner : W) :
    Lossless bytes ⟨⟨inner, self.target.accepted ++ self.unsent.take count⟩, self.buffer,
      self.written + count⟩ := by
  refine ⟨?_, ?_⟩
  · have hdrop : self.buffer.drop (self.written + count) = self.unsent.drop count := by
      rw [unsent, List.drop_drop]
    change self.target.accepted ++ self.unsent.take count ++
      self.buffer.drop (self.written + count) = bytes
    rw [hdrop, List.append_assoc, List.take_append_drop, h.bytes]
  · have hle := h.written
    rw [unsent, List.length_drop] at hcount
    change self.written + count ≤ self.buffer.length
    omega

theorem Lossless.clear (h : Lossless bytes self) (hall : ¬ self.written < self.buffer.length) :
    Lossless bytes { self with buffer := [], written := 0 } := by
  have hnone : self.unsent = [] := List.drop_eq_nil_of_le (Nat.le_of_not_lt hall)
  exact ⟨by rw [← h.bytes, hnone]; rfl, Nat.le_refl _⟩

theorem Lossless.finish (h : Lossless bytes self)
    {finish : Recorder W → Poll (Except Unit Unit) × Recorder W}
    (hkeeps : (finish self.target).2.accepted = self.target.accepted) :
    Lossless bytes { self with target := (finish self.target).2 } :=
  ⟨by rw [← h.bytes, ← hkeeps]; rfl, h.written⟩

variable [AsyncWrite W] [LawfulAsyncWrite W]

/-- The loop keeps all bytes, whatever the writer answers, and it returns after a turn for each of
them. -/
theorem Lossless.pollReady (fuel : Nat) : ∀ {self : RawRadioSink (Recorder W)},
    Lossless bytes self → Lossless bytes (pollReady fuel self).2 ∧
      (self.unsent.length < fuel → (pollReady fuel self).1.isSome) := by
  induction fuel with
  | zero => exact fun h => ⟨h, fun hlt => absurd hlt (Nat.not_lt_zero _)⟩
  | succ fuel ih =>
    intro self h
    by_cases hmore : self.written < self.buffer.length
    · have hsome : self.unsent ≠ [] := by
        rw [Ne, ← List.length_eq_zero_iff, unsent, List.length_drop]
        omega
      rcases hw : AsyncWrite.pollWrite self.target.inner self.unsent with ⟨answer, inner⟩
      have hrec := Recorder.pollWrite_eq hw
      rw [RawRadioSink.pollReady, if_pos hmore]
      rw [unsent] at hrec
      rw [hrec]
      match answer, hw with
      | .pending, _ | .ready (.error _), _ =>
        exact ⟨h.take (Nat.zero_le _) inner, fun _ => rfl⟩
      | .ready (.ok count), hw =>
        obtain ⟨hpos, hle⟩ := LawfulAsyncWrite.takes self.target.inner self.unsent count hsome
          (by rw [hw])
        obtain ⟨hkept, hreturns⟩ := ih (h.take hle inner)
        refine ⟨hkept, fun hlt => hreturns ?_⟩
        have hlen : (self.buffer.drop (self.written + count)).length =
            self.unsent.length - count := by
          rw [← List.drop_drop, List.length_drop]
          rfl
        change (self.buffer.drop (self.written + count)).length < fuel
        omega
    · rw [RawRadioSink.pollReady, if_neg hmore]
      exact ⟨h.clear hmore, fun _ => rfl⟩

theorem Lossless.afterReady (h : Lossless bytes self) (fuel : Nat)
    {finish : Recorder W → Poll (Except Unit Unit) × Recorder W}
    (hkeeps : ∀ target, (finish target).2.accepted = target.accepted) :
    Lossless bytes (afterReady finish fuel self).2 ∧
      (self.unsent.length < fuel → (afterReady finish fuel self).1.isSome) := by
  obtain ⟨hkept, hreturns⟩ := h.pollReady fuel
  rw [RawRadioSink.afterReady]
  split
  · rename_i self' heq
    rw [heq] at hkept
    exact ⟨hkept.finish (hkeeps _), fun _ => rfl⟩
  · exact ⟨hkept, hreturns⟩

variable [CookieFactory]

theorem Lossless.call (h : Lossless bytes self) (fuel : Nat) (e : Call) :
    Lossless (bytes ++ e.encoding) (self.call fuel e).2 ∧
      (self.unsent.length < fuel → (self.call fuel e).1.isSome) := by
  cases e with
  | startSend item => exact ⟨h.startSend item, fun _ => rfl⟩
  | pollReady =>
    change Lossless (bytes ++ []) _ ∧ _
    rw [List.append_nil]
    exact h.pollReady fuel
  | pollFlush =>
    change Lossless (bytes ++ []) _ ∧ _
    rw [List.append_nil]
    exact h.afterReady fuel fun _ => rfl
  | pollClose =>
    change Lossless (bytes ++ []) _ ∧ _
    rw [List.append_nil]
    exact h.afterReady fuel fun _ => rfl

/-- Whatever the calls and the answers of the writer, what it has taken and what is unsent are the
encodings of the messages; and the next call returns. -/
theorem output_lossless {writer : W}
    {h : History (RawRadioSink (Recorder W)) Call (Poll (Except Unit Unit))}
    {sink : RawRadioSink (Recorder W)} (hr : Run step AnyOrder (new ⟨writer, []⟩) h sink) :
    sink.target.accepted ++ sink.buffer.drop sink.written = encodings h ∧
      sink.written ≤ sink.buffer.length ∧ ∀ e, (step sink e).isSome := by
  have hlossless : Lossless (encodings h) sink := by
    refine hr.invariant (P := fun h sink => Lossless (encodings h) sink) (lossless_new writer) ?_
    intro h sink e sink' o _ hs _ hstep
    have hcall := (hs.call (sink.unsent.length + 1) e).1
    obtain ⟨result, -, heq⟩ := Option.map_eq_some_iff.mp hstep
    obtain ⟨rfl, rfl⟩ := Prod.mk.inj heq
    have hgrow : ∀ t : Transition (RawRadioSink (Recorder W)) Call (Poll (Except Unit Unit)),
        encodings (t :: h) = encodings h ++ t.event.encoding := fun t => by simp [encodings]
    rw [hgrow]
    exact hcall
  refine ⟨hlossless.bytes, hlossless.written, fun e => ?_⟩
  rw [step, Option.isSome_map]
  exact (hlossless.call _ e).2 (Nat.lt_succ_self _)

end Lossless
end RawRadioSink

structure ScriptedPort where
  answers : List (Poll (Except Unit Nat))
deriving DecidableEq, Repr

namespace ScriptedPort

def clamp (data : List UInt8) : Poll (Except Unit Nat) → Poll (Except Unit Nat)
  | .ready (.ok count) => .ready (.ok (max 1 (min count data.length)))
  | answer => answer

instance : AsyncWrite ScriptedPort where
  pollWrite self data :=
    (clamp data (self.answers.headD (.ready (.ok data.length))), ⟨self.answers.tail⟩)
  pollFlush self := (.ready (.ok ()), self)
  pollClose self := (.ready (.ok ()), self)

instance : LawfulAsyncWrite ScriptedPort where
  takes self data count hdata h := by
    have hpos : 0 < data.length := List.length_pos_iff.mpr hdata
    change clamp data _ = _ at h
    unfold clamp at h
    split at h
    · obtain rfl := Except.ok.inj (Poll.ready.inj h)
      omega
    · rename_i hno
      exact absurd h (hno count)

end ScriptedPort

namespace RawRadioSink
open Runs

/- The port takes three bytes and is busy, fails, and then takes everything. -/
def busyPort : ScriptedPort := ⟨[.ready (.ok 3), .pending, .ready (.error ())]⟩

def busyCalls : List Call :=
  [.startSend ⟨.on, 1, []⟩, .pollReady, .startSend ⟨.send, 2, [7, 8]⟩, .pollFlush, .pollReady]

def played : History (RawRadioSink (Recorder ScriptedPort)) Call (Poll (Except Unit Unit)) ×
    RawRadioSink (Recorder ScriptedPort) :=
  letI := documentedCookieFactory
  replay step AnyOrder (new ⟨busyPort, []⟩) busyCalls

theorem output_lossless_busy :
    letI := documentedCookieFactory
    played.2.target.accepted ++ played.2.buffer.drop played.2.written = encodings played.1 ∧
      played.2.written ≤ played.2.buffer.length ∧ ∀ e, (step played.2 e).isSome := by
  let _ := documentedCookieFactory
  exact output_lossless (run_replay busyCalls)

example : played.1.length = 5 ∧ played.2.target.accepted =
    [0x5A, 0x50, 0x42, 4, 0, 1, 0, 0, 0x5A, 0x50, 0x42, 2, 0, 2, 0, 2, 7, 8] := by decide

end RawRadioSink
end ZigbeeStack
