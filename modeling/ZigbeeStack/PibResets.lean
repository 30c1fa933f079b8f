import ZigbeeStack.Management
import ZigbeeStack.Runs

/-! What a reset brings back. The PIB is rebuilt from three of its own fields, and the third of
them is the power in use, not the maximum. -/
namespace ZigbeeStack.PIB
open Runs

/- A management service that answers an MLME-START request changes the PIB in the same way
whatever its own state is. -/
inductive Event where
  | set (param : PIBProperty) (value : PIBValue)
  | start (service : ManagementService) (request : Mlme.StartRequest)
  | drawBeaconSequenceNr
  | drawDataSequenceNr
  | reset (bsn dsn : UInt8)

/-- A set that fails is no event. -/
def step (self : PIB) : Event → Option (PIB × Unit)
  | .set param value =>
    match self.set param value with
    | (pib, .ok _) => some (pib, ())
    | (_, .error _) => none
  | .start service request => some ((service.processMlmeStartRequest self request).2.2, ())
  | .drawBeaconSequenceNr => some (self.nextBeaconSequenceNr.2, ())
  | .drawDataSequenceNr => some (self.nextDataSequenceNr.2, ())
  | .reset bsn dsn => some (self.reset bsn dsn, ())

def KeepsMaxTxPower (_ : History PIB Event Unit) (_ : PIB) : Event → Prop
  | .set param _ => param ≠ .phyMaxTxPower
  | _ => True

instance (h : History PIB Event Unit) (pib : PIB) (e : Event) :
    Decidable (KeepsMaxTxPower h pib e) := by
  cases e <;> unfold KeepsMaxTxPower <;> infer_instance

def setTxPower : Event → Option UInt16
  | .set .phyTxPower (.u16 power) => some power
  | _ => none

def lastTxPower (max : UInt16) (h : History PIB Event Unit) : UInt16 :=
  (h.findSome? fun t => setTxPower t.event).getD max

theorem lastTxPower_cons (max : UInt16) (t : Transition PIB Event Unit)
    (h : History PIB Event Unit) :
    lastTxPower max (t :: h) = (setTxPower t.event).getD (lastTxPower max h) := by
  unfold lastTxPower
  rw [List.findSome?_cons]
  cases setTxPower t.event <;> rfl

/-- What a successful set does to the two fields that a reset reads and nothing else changes. -/
theorem set_keeps {self pib : PIB} {param : PIBProperty} {value : PIBValue}
    (h : self.set param value = (pib, .ok ())) :
    pib.macExtendedAddress = self.macExtendedAddress ∧
      pib.phyTxPower = (setTxPower (.set param value)).getD self.phyTxPower := by
  unfold set at h
  split at h <;> obtain ⟨rfl, hres⟩ := Prod.mk.inj h <;>
    first | exact ⟨rfl, rfl⟩ | cases hres

theorem processMlmeStartRequest_keeps (service : ManagementService) (self : PIB)
    (request : Mlme.StartRequest) :
    (service.processMlmeStartRequest self request).2.2.macExtendedAddress =
        self.macExtendedAddress ∧
      (service.processMlmeStartRequest self request).2.2.phyTxPower = self.phyTxPower := by
  unfold ManagementService.processMlmeStartRequest
  split
  · exact ⟨rfl, rfl⟩
  · split <;> exact ⟨rfl, rfl⟩

/-- A reset keeps the power in use too, and makes it the maximum. -/
theorem step_keeps {self pib : PIB} {e : Event} {o : Unit} (hs : step self e = some (pib, o)) :
    pib.macExtendedAddress = self.macExtendedAddress ∧
      pib.phyTxPower = (setTxPower e).getD self.phyTxPower := by
  cases e with
  | set param value =>
    simp only [step] at hs
    split at hs
    · rename_i h
      obtain ⟨rfl, -⟩ := Prod.mk.inj (Option.some.inj hs)
      exact set_keeps h
    · cases hs
  | start service request =>
    obtain ⟨rfl, -⟩ := Prod.mk.inj (Option.some.inj hs)
    exact processMlmeStartRequest_keeps service self request
  | drawBeaconSequenceNr | drawDataSequenceNr | reset _ _ =>
    obtain ⟨rfl, -⟩ := Prod.mk.inj (Option.some.inj hs)
    exact ⟨rfl, rfl⟩

theorem run_keeps {address : ExtendedAddress} {channel max : UInt16} {bsn dsn : UInt8}
    {h : History PIB Event Unit} {pib : PIB}
    (hr : Run step KeepsMaxTxPower (.new address channel max bsn dsn) h pib) :
    pib.macExtendedAddress = address ∧ pib.phyTxPower = lastTxPower max h := by
  refine hr.invariant (P := fun h pib =>
    pib.macExtendedAddress = address ∧ pib.phyTxPower = lastTxPower max h) ⟨rfl, rfl⟩ ?_
  intro h pib e pib' o _ ⟨haddress, hpower⟩ _ hs
  obtain ⟨haddress', hpower'⟩ := step_keeps hs
  rw [lastTxPower_cons, ← hpower]
  exact ⟨haddress'.trans haddress, hpower'⟩

theorem reset_eq_new_iff {self : PIB} {max : UInt16} :
    (∀ bsn dsn, self.reset bsn dsn =
      .new self.macExtendedAddress self.phyCurrentChannel max bsn dsn) ↔
      self.phyTxPower = max := by
  constructor
  · intro h
    exact congrArg phyMaxTxPower (h 0 0)
  · rintro rfl bsn dsn
    rfl

/-- After any run, a reset brings the PIB back to the original maximum just when the power that
was set last is that maximum. -/
theorem reset_restores_iff {address : ExtendedAddress} {channel max : UInt16} {bsn₀ dsn₀ : UInt8}
    {h : History PIB Event Unit} {pib : PIB}
    (hr : Run step KeepsMaxTxPower (.new address channel max bsn₀ dsn₀) h pib) :
    (∀ bsn dsn, pib.reset bsn dsn = .new address pib.phyCurrentChannel max bsn dsn) ↔
      lastTxPower max h = max := by
  obtain ⟨haddress, hpower⟩ := run_keeps hr
  rw [← haddress, ← hpower]
  exact reset_eq_new_iff

def lowered : History PIB Event Unit × PIB :=
  replay step KeepsMaxTxPower (.new ⟨1⟩ 11 7 0 0)
    [.set .phyCurrentChannel (.u16 15), .drawDataSequenceNr, .set .phyTxPower (.u16 5)]

theorem reset_restores_iff_lowered :
    (∀ bsn dsn, lowered.2.reset bsn dsn = .new ⟨1⟩ lowered.2.phyCurrentChannel 7 bsn dsn) ↔
      lastTxPower 7 lowered.1 = 7 :=
  reset_restores_iff (run_replay _)

theorem reset_forgets_max_power :
    Run step KeepsMaxTxPower (.new ⟨1⟩ 11 7 0 0) lowered.1 lowered.2 ∧
      (lowered.2.reset 0 0).phyMaxTxPower = 5 ∧ (lowered.2.reset 0 0).phyTxPower = 5 ∧
      ¬ ∀ bsn dsn, lowered.2.reset bsn dsn = .new ⟨1⟩ lowered.2.phyCurrentChannel 7 bsn dsn :=
  ⟨run_replay _, by decide, by decide, fun h => absurd (h 0 0) (by decide)⟩

end ZigbeeStack.PIB
