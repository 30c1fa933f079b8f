import ZigbeeStack.Collections
import ZigbeeStack.Runs
import ZigbeeStack.SerialProtocol

/-! The first radio bridge: a call has a number and a future, and what the radio answers goes by its
number to the future that waits for it. -/
namespace ZigbeeStack.OldSrc.RadioBridge
open Runs

inductive RequestCommand where
  | radioPrepare
  | radioTransmit
  | radioSend
  | radioChannelClear
  | radioOn
  | radioOff
  | radioGetValue
  | radioSetValue
  | radioGetObject
  | radioSetObject
  | radioInitPendingTable
  | radioSetPending
deriving DecidableEq, Repr

def RequestCommand.number : RequestCommand → UInt8
  | radioPrepare => 0
  | radioTransmit => 1
  | radioSend => 2
  | radioChannelClear => 3
  | radioOn => 4
  | radioOff => 5
  | radioGetValue => 6
  | radioSetValue => 7
  | radioGetObject => 8
  | radioSetObject => 9
  | radioInitPendingTable => 10
  | radioSetPending => 11

structure Request where
  commandId : RequestCommand
  data : List UInt8

inductive Error where
  | bridgeError (data : List UInt8)
  | oneshotError
deriving DecidableEq, Repr

abbrev Outcome := Except Error (List UInt8)

/- `channels` counts the one-shot channels. Each is named by the number of those before it. -/
structure Dispatcher where
  nextAvailableRequestId : UInt16
  inFlight : HashMap.Map UInt16 Nat
  channels : Nat

namespace Dispatcher

def new : Dispatcher := ⟨0, ∅, 0⟩

/- Additions wrap, as where nothing checks for overflows. A sender whose place is taken is dropped,
which cancels its future. -/
def newRequest (self : Dispatcher) : (UInt16 × Option (Nat × Outcome)) × Dispatcher :=
  let requestId := self.nextAvailableRequestId
  ((requestId, (HashMap.get self.inFlight requestId).map (·, .error .oneshotError)),
    { nextAvailableRequestId := requestId + 1
      inFlight := HashMap.set self.inFlight requestId self.channels
      channels := self.channels + 1 })

def settle (self : Dispatcher) (requestId : UInt16) (outcome : Outcome) :
    Option (Nat × Outcome) × Dispatcher :=
  ((HashMap.get self.inFlight requestId).map (·, outcome),
    { self with inFlight := HashMap.remove self.inFlight requestId })

def resolve (self : Dispatcher) (requestId : UInt16) (data : List UInt8) :
    Option (Nat × Outcome) × Dispatcher :=
  self.settle requestId (.ok data)

def reject (self : Dispatcher) (requestId : UInt16) (error : List UInt8) :
    Option (Nat × Outcome) × Dispatcher :=
  self.settle requestId (.error (.bridgeError error))

end Dispatcher

structure IncomingPacket where
  packet : List UInt8
  rssi : UInt8
  linkQuality : UInt8
deriving DecidableEq, Repr

/- What a step brings: an outcome to a future, a packet to the service, a command to the radio. The
task that writes the commands and the receiver of the packets are there, so that `unbounded_send`
fails for neither. -/
structure Output where
  outcome : Option (Nat × Outcome)
  packet : Option IncomingPacket
  command : Option SerialProtocol.Command

def handleIncomingCommand (cmd : SerialProtocol.Command) (dispatcher : Dispatcher) :
    Dispatcher × Output :=
  if cmd.commandId = 0x80 then
    let (outcome, dispatcher) := dispatcher.resolve cmd.requestId cmd.data
    (dispatcher, ⟨outcome, none, none⟩)
  else if cmd.commandId = 0x81 then
    let (outcome, dispatcher) := dispatcher.reject cmd.requestId cmd.data
    (dispatcher, ⟨outcome, none, none⟩)
  else if cmd.commandId = 0xC0 then
    if cmd.data.length > 2 then
      (dispatcher, ⟨none, some {
        packet := cmd.data.take (cmd.data.length - 2)
        rssi := cmd.data.getD (cmd.data.length - 2) 0
        linkQuality := cmd.data.getD (cmd.data.length - 1) 0 }, none⟩)
    else (dispatcher, ⟨none, none, none⟩)
  else (dispatcher, ⟨none, none, none⟩)

def call (self : Dispatcher) (request : Request) : Dispatcher × Output :=
  let ((requestId, dropped), self) := self.newRequest
  (self, ⟨dropped, none, some ⟨request.commandId.number, requestId, request.data⟩⟩)

/-! Runs: calls and commands of the radio, in any order. -/

inductive Call where
  | call (request : Request)
  | incoming (cmd : SerialProtocol.Command)

abbrev Past := History Dispatcher Call Output
abbrev Step := Transition Dispatcher Call Output

def step (s : Dispatcher) : Call → Option (Dispatcher × Output)
  | .call request => some (call s request)
  | .incoming cmd => some (handleIncomingCommand cmd s)

def Anything (_ : Past) (_ : Dispatcher) (_ : Call) : Prop := True

instance (h : Past) (s : Dispatcher) (c : Call) : Decidable (Anything h s c) := .isTrue trivial

def outcomes (k : Nat) (t : Step) : List Outcome :=
  t.output.outcome.toList.filterMap fun p => if p.1 = k then some p.2 else none

def Brings (n k : Nat) : Call → Outcome → Prop
  | .incoming cmd, .ok data => cmd = ⟨0x80, UInt16.ofNat k, data⟩
  | .incoming cmd, .error (.bridgeError data) => cmd = ⟨0x81, UInt16.ofNat k, data⟩
  | .call _, .error .oneshotError => n = k + 65536
  | _, _ => False

structure Inv (h : Past) (s : Dispatcher) : Prop where
  next : s.nextAvailableRequestId = UInt16.ofNat s.channels
  waits : ∀ id k, HashMap.get s.inFlight id = some k ↔ k < s.channels ∧ s.channels ≤ k + 65536 ∧
    UInt16.ofNat k = id ∧ flow (outcomes k) h = []
  given : ∀ k, k + 65536 < s.channels → flow (outcomes k) h ≠ []
  later : ∀ k, s.channels ≤ k → flow (outcomes k) h = []

theorem ofNat_eq_iff {m n : Nat} : UInt16.ofNat m = UInt16.ofNat n ↔ m % 65536 = n % 65536 := by
  rw [← UInt16.toNat_inj, UInt16.toNat_ofNat', UInt16.toNat_ofNat']

section Steps
variable {h : Past} {s : Dispatcher}

theorem outcomes_map (s s' : Dispatcher) (c : Call) {o : Output} {sender : Option Nat}
    {outcome : Outcome} (ho : o.outcome = sender.map (·, outcome)) (k : Nat) :
    outcomes k ⟨s, c, o, s'⟩ = if sender = some k then [outcome] else [] := by
  unfold outcomes
  rw [ho]
  cases sender with
  | none => rfl
  | some k' => by_cases hk : k' = k <;> simp [hk]

theorem Inv.taken_iff (hs : Inv h s) (k : Nat) :
    HashMap.get s.inFlight s.nextAvailableRequestId = some k ↔
      s.channels = k + 65536 ∧ flow (outcomes k) h = [] := by
  rw [hs.next, hs.waits, ofNat_eq_iff]
  constructor
  · rintro ⟨hlt, hle, hmod, hnone⟩
    exact ⟨by omega, hnone⟩
  · rintro ⟨heq, hnone⟩
    exact ⟨by omega, by omega, by omega, hnone⟩

theorem Inv.call (hs : Inv h s) {c : Call} {o : Output} {s' : Dispatcher}
    (ho : o.outcome =
      (HashMap.get s.inFlight s.nextAvailableRequestId).map (·, .error .oneshotError))
    (hs' : s' = s.newRequest.2) : Inv (⟨s, c, o, s'⟩ :: h) s' := by
  have houtcomes := outcomes_map s s' c ho
  have hnew : flow (outcomes s.channels) h = [] := hs.later _ le_rfl
  subst hs'
  refine ⟨?_, fun id k => ?_, fun k hk => ?_, fun k hk => ?_⟩
  · change s.nextAvailableRequestId + 1 = UInt16.ofNat (s.channels + 1)
    rw [hs.next, UInt16.ofNat_add]
    rfl
  · rw [flow_cons, houtcomes]
    simp only [hs.taken_iff]
    change HashMap.get (HashMap.set _ s.nextAvailableRequestId s.channels) id = some k ↔
      k < s.channels + 1 ∧ s.channels + 1 ≤ k + 65536 ∧ _
    rw [HashMap.get_set, hs.next, List.append_eq_nil_iff]
    by_cases hid : id = UInt16.ofNat s.channels
    · subst hid
      rw [if_pos rfl, Option.some.injEq, ofNat_eq_iff]
      constructor
      · rintro rfl
        exact ⟨by omega, by omega, rfl, hnew, if_neg (by omega)⟩
      · rintro ⟨hlt, hle, hmod, -⟩
        omega
    · rw [if_neg hid, hs.waits]
      constructor
      · rintro ⟨hlt, hle, rfl, hnone⟩
        have hne : s.channels ≠ k + 65536 := fun heq => hid (ofNat_eq_iff.mpr (by omega))
        exact ⟨by omega, by omega, rfl, hnone, if_neg fun htaken => hne htaken.1⟩
      · rintro ⟨hlt, hle, rfl, hnone, -⟩
        have hne : k ≠ s.channels := fun heq => hid (by rw [heq])
        exact ⟨by omega, by omega, rfl, hnone⟩
  · rw [flow_cons, houtcomes]
    simp only [hs.taken_iff]
    change k + 65536 < s.channels + 1 at hk
    by_cases hnone : flow (outcomes k) h = []
    · have heq : s.channels = k + 65536 := by
        have hle : ¬ k + 65536 < s.channels := fun hlt => hs.given k hlt hnone
        omega
      rw [if_pos ⟨heq, hnone⟩]
      simp
    · simp [hnone]
  · rw [flow_cons, houtcomes]
    simp only [hs.taken_iff]
    change s.channels + 1 ≤ k at hk
    rw [hs.later k (by omega), if_neg (by omega)]
    rfl

theorem Inv.settle (hs : Inv h s) (requestId : UInt16) {c : Call} {o : Output} {s' : Dispatcher}
    {outcome : Outcome} (ho : o.outcome = (s.settle requestId outcome).1)
    (hs' : s' = (s.settle requestId outcome).2) : Inv (⟨s, c, o, s'⟩ :: h) s' := by
  have houtcomes := outcomes_map s s' c ho
  subst hs'
  refine ⟨hs.next, fun id k => ?_, fun k hk => ?_, fun k hk => ?_⟩
  · rw [flow_cons, houtcomes]
    change HashMap.get (HashMap.remove _ requestId) id = some k ↔
      k < s.channels ∧ s.channels ≤ k + 65536 ∧ _
    rw [HashMap.get_remove, List.append_eq_nil_iff]
    by_cases hid : id = requestId
    · subst hid
      rw [if_pos rfl]
      constructor
      · intro hnone
        cases hnone
      · rintro ⟨hlt, hle, hmod, hnone, hother⟩
        rw [if_pos ((hs.waits id k).mpr ⟨hlt, hle, hmod, hnone⟩)] at hother
        cases hother
    · rw [if_neg hid, hs.waits]
      constructor
      · rintro ⟨hlt, hle, rfl, hnone⟩
        refine ⟨hlt, hle, rfl, hnone, if_neg fun htaken => hid ?_⟩
        exact ((hs.waits _ _).mp htaken).2.2.1
      · rintro ⟨hlt, hle, hmod, hnone, -⟩
        exact ⟨hlt, hle, hmod, hnone⟩
  · rw [flow_cons]
    exact fun hnone => hs.given k hk (List.append_eq_nil_iff.mp hnone).1
  · rw [flow_cons, houtcomes, hs.later k hk, if_neg fun htaken => ?_]
    · rfl
    · have hlt := ((hs.waits _ _).mp htaken).1
      change s.channels ≤ k at hk
      omega

theorem Inv.other (hs : Inv h s) {c : Call} {o : Output} (ho : o.outcome = none) :
    Inv (⟨s, c, o, s⟩ :: h) s := by
  have hnone (k : Nat) : flow (outcomes k) (⟨s, c, o, s⟩ :: h) = flow (outcomes k) h := by
    rw [flow_cons, outcomes, ho]
    exact List.append_nil _
  refine ⟨hs.next, fun id k => ?_, fun k hk => ?_, fun k hk => ?_⟩
  · rw [hnone]
    exact hs.waits id k
  · rw [hnone]
    exact hs.given k hk
  · rw [hnone]
    exact hs.later k hk

/-- What a command of the radio does: it settles a call, or it has nothing for any. -/
theorem handleIncomingCommand_cases (cmd : SerialProtocol.Command) (s : Dispatcher) :
    (∃ outcome, (handleIncomingCommand cmd s).1 = (s.settle cmd.requestId outcome).2 ∧
      (handleIncomingCommand cmd s).2.outcome = (s.settle cmd.requestId outcome).1 ∧
      ∀ n k r, Brings n k (.incoming cmd) r ↔ r = outcome ∧ UInt16.ofNat k = cmd.requestId) ∨
    ((handleIncomingCommand cmd s).1 = s ∧ (handleIncomingCommand cmd s).2.outcome = none ∧
      ∀ n k r, ¬ Brings n k (.incoming cmd) r) := by
  obtain ⟨commandId, requestId, data⟩ := cmd
  unfold handleIncomingCommand
  by_cases hresolve : commandId = 0x80
  · subst hresolve
    refine .inl ⟨.ok data, rfl, rfl, fun n k r => ?_⟩
    cases r with
    | ok data' => simp [Brings, eq_comm, and_comm]
    | error e => cases e <;> simp [Brings]
  · by_cases hreject : commandId = 0x81
    · subst hreject
      refine .inl ⟨.error (.bridgeError data), rfl, rfl, fun n k r => ?_⟩
      cases r with
      | ok data' => simp [Brings]
      | error e => cases e <;> simp [Brings, eq_comm, and_comm]
    · right
      simp only [hresolve, hreject, if_false]
      refine ⟨by split_ifs <;> rfl, by split_ifs <;> rfl, fun n k r => ?_⟩
      cases r with
      | ok data' => simp [Brings, hresolve]
      | error e => cases e <;> simp [Brings, hreject]

theorem Inv.step (hs : Inv h s) {c : Call} {s' : Dispatcher} {o : Output}
    (hstep : RadioBridge.step s c = some (s', o)) : Inv (⟨s, c, o, s'⟩ :: h) s' ∧
      ∀ k r, o.outcome = some (k, r) ↔
        k < s.channels ∧ flow (outcomes k) h = [] ∧ Brings s.channels k c r := by
  cases c with
  | call request =>
    cases hstep
    refine ⟨hs.call rfl rfl, fun k r => ?_⟩
    change (HashMap.get s.inFlight s.nextAvailableRequestId).map _ = some (k, r) ↔ _
    rw [Option.map_eq_some_iff]
    constructor
    · rintro ⟨k', htaken, heq⟩
      cases heq
      obtain ⟨heq, hnone⟩ := (hs.taken_iff k).mp htaken
      exact ⟨by omega, hnone, heq⟩
    · rintro ⟨-, hnone, hbrings⟩
      cases r with
      | ok data => exact hbrings.elim
      | error e =>
        cases e with
        | bridgeError data => exact hbrings.elim
        | oneshotError => exact ⟨k, (hs.taken_iff k).mpr ⟨hbrings, hnone⟩, rfl⟩
  | incoming cmd =>
    have heq : handleIncomingCommand cmd s = (s', o) := Option.some.inj hstep
    obtain ⟨outcome, hafter, houtcome, hbrings⟩ | ⟨hafter, houtcome, hbrings⟩ :=
      handleIncomingCommand_cases cmd s <;> rw [heq] at hafter houtcome
    · refine ⟨hs.settle cmd.requestId houtcome hafter, fun k r => ?_⟩
      rw [hbrings]
      change o.outcome = _ at houtcome
      rw [houtcome]
      change (HashMap.get s.inFlight cmd.requestId).map _ = some (k, r) ↔ _
      rw [Option.map_eq_some_iff]
      constructor
      · rintro ⟨k', htaken, heq⟩
        cases heq
        obtain ⟨hlt, -, hid, hnone⟩ := (hs.waits _ _).mp htaken
        exact ⟨hlt, hnone, rfl, hid⟩
      · rintro ⟨hlt, hnone, rfl, hid⟩
        have hle : s.channels ≤ k + 65536 := not_lt.mp fun hlt' => hs.given k hlt' hnone
        exact ⟨k, (hs.waits _ _).mpr ⟨hlt, hle, hid, hnone⟩, rfl⟩
    · change s' = s at hafter
      change o.outcome = none at houtcome
      rw [hafter]
      refine ⟨hs.other houtcome, fun k r => ?_⟩
      rw [houtcome]
      constructor
      · intro hnone
        cases hnone
      · rintro ⟨-, -, hr⟩
        exact absurd hr (hbrings _ _ _)

end Steps

section Runs
variable {h : Past} {s : Dispatcher}

theorem inv_of_run (hr : Run step Anything .new h s) : Inv h s := by
  refine hr.invariant (P := Inv) ⟨rfl, fun id k => ?_, fun k hk => ?_, fun k _ => rfl⟩ ?_
  · change none = some k ↔ k < 0 ∧ _
    simp
  · cases hk
  · exact fun _ _ _ _ _ _ hs _ hstep => (hs.step hstep).1

theorem outcomes_length (k : Nat) (t : Step) : (outcomes k t).length ≤ 1 := by
  refine (List.length_filterMap_le _ _).trans ?_
  cases t.output.outcome <;> simp

/-- In every run each call sends its command once, and its future has at most one outcome: the
first answer of the radio with the number of the call, unless 65536 further calls come before it, of
which the last cancels the future. -/
theorem each_call_has_its_answer (hr : Run step Anything .new h s) :
    (∀ k, (flow (outcomes k) h).length ≤ 1) ∧
    (∀ later t past, h = later ++ t :: past → ∀ k r, t.output.outcome = some (k, r) ↔
      k < t.before.channels ∧ flow (outcomes k) past = [] ∧
        Brings t.before.channels k t.event r) ∧
    ∀ t ∈ h, ∀ request, t.event = .call request →
      t.after.channels = t.before.channels + 1 ∧ t.output.command =
        some ⟨request.commandId.number, UInt16.ofNat t.before.channels, request.data⟩ := by
  refine ⟨fun k => ?_, fun later t past heq k r => ?_, fun t ht request hcall => ?_⟩
  · induction hr with
    | start => exact Nat.zero_le _
    | @next h s s' c o hrun _ hstep ih =>
      have hone := outcomes_length k ⟨s, c, o, s'⟩
      rw [flow_cons, List.length_append]
      by_cases hnone : flow (outcomes k) h = []
      · rw [hnone]
        change 0 + _ ≤ 1
        omega
      · have hlast : outcomes k ⟨s, c, o, s'⟩ = [] := by
          rw [List.eq_nil_iff_forall_not_mem]
          intro r hmem
          obtain ⟨p, hp, hpr⟩ := List.mem_filterMap.mp hmem
          split_ifs at hpr with hk
          subst hk
          have houtcome := (((inv_of_run hrun).step hstep).2 p.1 p.2).mp (Option.mem_toList.mp hp)
          exact hnone houtcome.2.1
        rw [hlast]
        exact ih
  · subst heq
    obtain ⟨hbefore, -, hstep⟩ := hr.cut
    exact ((inv_of_run hbefore).step hstep).2 k r
  · obtain ⟨later, past, rfl⟩ := List.append_of_mem ht
    obtain ⟨hbefore, -, hstep⟩ := hr.cut
    rw [hcall] at hstep
    have heq : RadioBridge.call t.before request = (t.after, t.output) := Option.some.inj hstep
    have hafter : t.after = (RadioBridge.call t.before request).1 := (congrArg Prod.fst heq).symm
    have houtput : t.output = (RadioBridge.call t.before request).2 := (congrArg Prod.snd heq).symm
    rw [hafter, houtput, ← (inv_of_run hbefore).next]
    exact ⟨rfl, rfl⟩

end Runs

/- Two calls are answered, the second first and with an error. -/
def asked : List Call :=
  [.call ⟨.radioOn, []⟩, .call ⟨.radioGetValue, [2, 0]⟩, .incoming ⟨0x81, 1, [7]⟩,
    .incoming ⟨0x80, 0, []⟩, .incoming ⟨0x80, 0, [1]⟩]

theorem each_call_has_its_answer_asked :
    (flow (outcomes 0) (replay step Anything .new asked).1).length ≤ 1 ∧
      flow (outcomes 1) (replay step Anything .new asked).1 = [.error (.bridgeError [7])] :=
  ⟨(each_call_has_its_answer (run_replay asked)).1 0, by decide⟩

end ZigbeeStack.OldSrc.RadioBridge
