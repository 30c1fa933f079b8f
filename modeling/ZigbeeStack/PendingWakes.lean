import ZigbeeStack.CombinedPendingTable
import ZigbeeStack.PendingTableSlots

/-! No lost wake-up: a task that the pending tables have parked is woken before they have an
action for it. -/
namespace ZigbeeStack
open Runs

namespace WakerStore
variable (store : WakerStore) (cx : Waker)

def wakes : Nat := store.woken.count cx

theorem wakes_le_wake : store.wakes cx ≤ store.wake.wakes cx := by
  unfold wakes wake
  split
  · exact List.count_le_count_cons
  · exact Nat.le_refl _

theorem wakes_lt_wake (h : store.storage = some cx) : store.wakes cx < store.wake.wakes cx := by
  simp [wakes, wake, h]

end WakerStore

namespace PendingTable
variable {T : Type} {n : Nat} {cx : Waker}

def Waits (t : PendingTable T n) : Prop := t.updating.isSome ∨ t.firstDirty = none

structure Parks (cx : Waker) (t : PendingTable T n) : Prop where
  stored : t.waker.storage = some cx
  waits : t.Waits

def Stirs (t t' : PendingTable T n) : Prop :=
  (t'.waker = t.waker ∧ (t.Waits → t'.Waits)) ∨ t'.waker = t.waker.wake

theorem Stirs.wakes_le {t t' : PendingTable T n} (h : Stirs t t') (cx : Waker) :
    t.waker.wakes cx ≤ t'.waker.wakes cx := by
  rcases h with ⟨hwaker, -⟩ | hwaker
  · rw [hwaker]
  · rw [hwaker]
    exact t.waker.wakes_le_wake cx

theorem Stirs.parks {t t' : PendingTable T n} (h : Stirs t t') (hp : t.Parks cx) :
    t'.Parks cx ∨ t.waker.wakes cx < t'.waker.wakes cx := by
  rcases h with ⟨hwaker, hwaits⟩ | hwaker
  · exact .inl ⟨hwaker ▸ hp.stored, hwaits hp.waits⟩
  · rw [hwaker]
    exact .inr (t.waker.wakes_lt_wake cx hp.stored)

/-- An entry is written without a wake only while an answer is awaited. -/
theorem setEntry_stirs (t : PendingTable T n) (i : Fin n) (e : PendingTableEntry T) :
    Stirs t (t.setEntry i e) := by
  cases hu : t.updating with
  | none => exact .inr (by simp [setEntry, hu])
  | some update => exact .inl ⟨by simp [setEntry, hu], fun _ => .inl (congrArg Option.isSome hu)⟩

section Operations
variable [DecidableEq T]

theorem promote_stirs [NeZero n] (t : PendingTable T n) (v : T) : Stirs t (t.promote v).2 := by
  have hp := t.promoted v
  generalize (t.promote v).2 = t' at hp ⊢
  cases hp with
  | absent _ => exact .inl ⟨rfl, id⟩
  | moved _ _ => exact .inl ⟨rfl, id⟩
  | placed _ _ => exact t.setEntry_stirs t.nextIndex (.new v)

theorem remove_stirs (t : PendingTable T n) (v : T) : Stirs t (t.remove v).2 := by
  have hp := t.removed v
  generalize (t.remove v).2 = t' at hp ⊢
  cases hp with
  | absent _ => exact .inl ⟨rfl, id⟩
  | @cleared i _ _ => exact t.setEntry_stirs i .default
  | unplaced _ _ => exact .inl ⟨rfl, id⟩

theorem set_stirs [NeZero n] (t : PendingTable T n) (v : T) (inserted : Bool) :
    Stirs t (t.set v inserted) := by
  cases inserted with
  | true => exact { t with values := Insert.insert v t.values }.promote_stirs v
  | false => exact t.remove_stirs v

end Operations

theorem reportUpdateResult_stirs (t : PendingTable T n) (token : UniqueKey) (result : Bool) :
    Stirs t (t.reportUpdateResult token result) := by
  unfold reportUpdateResult
  split
  · split
    · split
      · exact .inr rfl
      · exact .inr rfl
    · exact .inl ⟨rfl, id⟩
  · exact .inl ⟨rfl, id⟩

theorem pollUpdate_pending {t t' : PendingTable T n} {key : UniqueKey}
    (h : t.pollUpdate cx key = (.pending, t')) : t'.Parks cx := by
  unfold pollUpdate at h
  split at h
  · cases h
  · rename_i hwait
    cases h
    refine ⟨rfl, ?_⟩
    cases hu : t.updating with
    | some update => exact .inl rfl
    | none =>
      cases hd : t.firstDirty with
      | some i => exact absurd hd (hwait i hu)
      | none => exact .inr hd

theorem Waits.pollUpdate {t : PendingTable T n} (h : t.Waits) (cx : Waker) (key : UniqueKey) :
    (t.pollUpdate cx key).1 = .pending := by
  unfold PendingTable.pollUpdate
  split
  · rename_i hidle hdirty
    rw [Waits, hidle, hdirty] at h
    cases h with
    | inl h => cases h
    | inr h => cases h
  · rfl

end PendingTable

namespace CombinedPendingTable

inductive Event where
  | set (address : Option FullAddress) (inserted : Bool)
  | pollAction (cx : Waker) (key : UniqueKey)
  | reportInitResult (key : UniqueKey) (result : Bool)
  | reportUpdateResult (key : UniqueKey) (success : Bool)

abbrev Output := Option (Poll CombinedPendingTableAction)

def next (t : CombinedPendingTable) : Event → CombinedPendingTable × Output
  | .set address inserted => (t.set address inserted, Option.none)
  | .pollAction cx key => ((t.pollAction cx key).2, some (t.pollAction cx key).1)
  | .reportInitResult key result => (t.reportInitResult key result, Option.none)
  | .reportUpdateResult key success => (t.reportUpdateResult key success, Option.none)

def step (t : CombinedPendingTable) (e : Event) : Option (CombinedPendingTable × Output) :=
  some (t.next e)

def AnyOrder (_ : History CombinedPendingTable Event Output) (_ : CombinedPendingTable)
    (_ : Event) : Prop := True

def wakes (t : CombinedPendingTable) (cx : Waker) : Nat :=
  t.waker.wakes cx + t.short.waker.wakes cx + t.extended.waker.wakes cx

inductive Parks (cx : Waker) (t : CombinedPendingTable) : Prop where
  | starting : t.initializing.isSome → t.waker.storage = some cx → Parks cx t
  | started : t.initializing = Option.none → t.isInitialized → t.short.Parks cx →
      t.extended.Parks cx → Parks cx t

variable {t t' : CombinedPendingTable} {cx : Waker} {key : UniqueKey}

theorem pollAction_pending (h : t.pollAction cx key = (.pending, t')) : t'.Parks cx := by
  unfold pollAction at h
  split at h
  · rename_i hstarting
    cases h
    exact .starting hstarting rfl
  rename_i hidle
  split at h
  · cases h
  rename_i hstarted
  split at h
  · cases h
  rename_i hshort
  split at h
  · cases h
  rename_i hextended
  cases h
  exact .started (by simpa using hidle) (by simpa using hstarted)
    (PendingTable.pollUpdate_pending hshort) (PendingTable.pollUpdate_pending hextended)

theorem Parks.pollAction (h : t.Parks cx) (cx' : Waker) (key : UniqueKey) :
    (t.pollAction cx' key).1 = .pending := by
  unfold CombinedPendingTable.pollAction
  cases h with
  | starting hstarting _ => rw [if_pos hstarting]
  | started hidle hstarted hshort hextended =>
    have hs := hshort.waits.pollUpdate cx' key
    have he := hextended.waits.pollUpdate cx' key
    rw [hidle, if_neg (by decide), if_neg (by simp [hstarted])]
    generalize t.short.pollUpdate cx' key = short at hs ⊢
    generalize t.extended.pollUpdate cx' key = extended at he ⊢
    obtain ⟨_, _⟩ := short
    obtain ⟨_, _⟩ := extended
    cases hs
    cases he
    rfl

structure Edits (t t' : CombinedPendingTable) : Prop where
  waker : t'.waker = t.waker
  initializing : t'.initializing = t.initializing
  isInitialized : t'.isInitialized = t.isInitialized
  short : t.short.Stirs t'.short
  extended : t.extended.Stirs t'.extended

theorem set_edits (t : CombinedPendingTable) (address : Option FullAddress) (inserted : Bool) :
    Edits t (t.set address inserted) := by
  unfold set
  split
  · exact ⟨rfl, rfl, rfl, .inl ⟨rfl, id⟩, .inl ⟨rfl, id⟩⟩
  · exact ⟨rfl, rfl, rfl, t.short.set_stirs _ _, .inl ⟨rfl, id⟩⟩
  · exact ⟨rfl, rfl, rfl, .inl ⟨rfl, id⟩, t.extended.set_stirs _ _⟩

theorem reportUpdateResult_edits (t : CombinedPendingTable) (key : UniqueKey) (success : Bool) :
    Edits t (t.reportUpdateResult key success) :=
  ⟨rfl, rfl, rfl, t.short.reportUpdateResult_stirs key success,
    t.extended.reportUpdateResult_stirs key success⟩

theorem Edits.wakes_le (h : Edits t t') (cx : Waker) : t.wakes cx ≤ t'.wakes cx := by
  have hshort := h.short.wakes_le cx
  have hextended := h.extended.wakes_le cx
  rw [wakes, wakes, h.waker]
  omega

theorem Edits.parks (h : Edits t t') (hp : t.Parks cx) :
    t'.Parks cx ∨ t.wakes cx < t'.wakes cx := by
  cases hp with
  | starting hstarting hstored =>
    exact .inl (.starting (h.initializing ▸ hstarting) (h.waker ▸ hstored))
  | started hidle hstarted hshort hextended =>
    have hle := h.short.wakes_le cx
    have hle' := h.extended.wakes_le cx
    rcases h.short.parks hshort with hshort' | hlt
    · rcases h.extended.parks hextended with hextended' | hlt
      · exact .inl (.started (h.initializing.trans hidle) (h.isInitialized ▸ hstarted) hshort'
          hextended')
      · right
        rw [wakes, wakes, h.waker]
        omega
    · right
      rw [wakes, wakes, h.waker]
      omega

/-- The end of the initialisation wakes the task that waits for it, and those at the tables. -/
theorem reportInitResult_wakes (t : CombinedPendingTable) (key : UniqueKey) (result : Bool)
    (cx : Waker) :
    t.reportInitResult key result = t ∨
      (t.initializing.isSome ∧ t.wakes cx ≤ (t.reportInitResult key result).wakes cx ∧
        (t.waker.storage = some cx → t.wakes cx < (t.reportInitResult key result).wakes cx)) := by
  by_cases hkey : t.initializing = some key
  · right
    have hwaker : (t.reportInitResult key result).waker = t.waker.wake := by
      rw [reportInitResult, if_pos hkey]
    have hshort : t.short.waker.wakes cx ≤
        (t.reportInitResult key result).short.waker.wakes cx := by
      rw [reportInitResult, if_pos hkey]
      cases result with
      | true => exact t.short.waker.wakes_le_wake cx
      | false => exact Nat.le_refl _
    have hextended : t.extended.waker.wakes cx ≤
        (t.reportInitResult key result).extended.waker.wakes cx := by
      rw [reportInitResult, if_pos hkey]
      cases result with
      | true => exact t.extended.waker.wakes_le_wake cx
      | false => exact Nat.le_refl _
    have hle := t.waker.wakes_le_wake cx
    refine ⟨by rw [hkey]; rfl, ?_, fun hstored => ?_⟩
    · rw [wakes, wakes, hwaker]
      omega
    · have hlt := t.waker.wakes_lt_wake cx hstored
      rw [wakes, wakes, hwaker]
      omega
  · left
    rw [reportInitResult, if_neg hkey]

/-- Between two polls a task that waits goes on waiting or is woken. -/
theorem next_parks (t : CombinedPendingTable) (e : Event)
    (hpoll : ∀ cx key, e ≠ .pollAction cx key) (cx : Waker) :
    t.wakes cx ≤ (t.next e).1.wakes cx ∧
      (t.Parks cx → (t.next e).1.Parks cx ∨ t.wakes cx < (t.next e).1.wakes cx) := by
  cases e with
  | set address inserted =>
    have h := t.set_edits address inserted
    exact ⟨h.wakes_le cx, h.parks⟩
  | pollAction cx key => exact absurd rfl (hpoll cx key)
  | reportInitResult key result =>
    rcases t.reportInitResult_wakes key result cx with hsame | ⟨hstarting, hle, hlt⟩
    · have hnext : (t.next (.reportInitResult key result)).1 = t := hsame
      rw [hnext]
      exact ⟨Nat.le_refl _, .inl⟩
    · refine ⟨hle, fun hp => .inr (hlt ?_)⟩
      cases hp with
      | starting _ hstored => exact hstored
      | started hidle _ _ _ =>
        rw [hidle] at hstarting
        cases hstarting
  | reportUpdateResult key success =>
    have h := t.reportUpdateResult_edits key success
    exact ⟨h.wakes_le cx, h.parks⟩

section Runs
variable {h : History CombinedPendingTable Event Output}
  {u : Transition CombinedPendingTable Event Output}

/-- As long as nobody polls again, a task that waits goes on waiting or has been woken since. -/
theorem parks_since {later past : History CombinedPendingTable Event Output}
    (hr : Run step AnyOrder new (later ++ u :: past) t) (hp : u.after.Parks cx)
    (hno : ∀ v ∈ later, ∀ cx key, v.event ≠ .pollAction cx key) :
    (t.Parks cx ∧ u.after.wakes cx ≤ t.wakes cx) ∨ u.after.wakes cx < t.wakes cx := by
  induction later generalizing t with
  | nil =>
    cases hr with
    | next _ _ _ => exact .inl ⟨hp, Nat.le_refl _⟩
  | cons v later ih =>
    cases hr with
    | @next _ s _ e _ hr _ hs =>
      obtain ⟨hv, hrest⟩ := List.forall_mem_cons.mp hno
      obtain ⟨hle, hparks⟩ := s.next_parks e hv cx
      obtain rfl : (s.next e).1 = t := congrArg Prod.fst (Option.some.inj hs)
      rcases ih hr hrest with ⟨hp, hsame⟩ | hlt
      · rcases hparks hp with hp | hwoken
        · exact .inl ⟨hp, hsame.trans hle⟩
        · exact .inr (hsame.trans_lt hwoken)
      · exact .inr (hlt.trans_le hle)

/-- No wake-up is lost: between a poll that returned pending and a state in which a poll would
return an action, with no poll in between, the task of the poll has been woken. -/
theorem woken_before_ready {later past : History CombinedPendingTable Event Output}
    (hr : Run step AnyOrder new (later ++ u :: past) t) {key : UniqueKey}
    (hpoll : u.event = .pollAction cx key) (hpending : u.output = some .pending)
    (hno : ∀ v ∈ later, ∀ cx key, v.event ≠ .pollAction cx key) {cx' : Waker} {key' : UniqueKey}
    (hready : (t.pollAction cx' key').1 ≠ .pending) : u.after.wakes cx < t.wakes cx := by
  have hstep : u.before.next u.event = (u.after, u.output) := Option.some.inj hr.cut.2.2
  have hpolled : u.before.pollAction cx key = (.pending, u.after) := by
    rw [hpoll, hpending] at hstep
    obtain ⟨hafter, houtput⟩ := Prod.mk.inj hstep
    exact Prod.ext (Option.some.inj houtput) hafter
  rcases parks_since hr (pollAction_pending hpolled) hno with ⟨hp, -⟩ | hlt
  · exact absurd (hp.pollAction cx' key') hready
  · exact hlt

end Runs

def firstPolled : CombinedPendingTable :=
  ((new.set (some ⟨⟨1⟩, .short ⟨2⟩⟩) true).pollAction 7 ⟨0⟩).2

def waiting : CombinedPendingTable := (firstPolled.pollAction 7 ⟨1⟩).2

def started : CombinedPendingTable := waiting.reportInitResult ⟨0⟩ true

theorem started_run : Run step AnyOrder new
    ([⟨waiting, .reportInitResult ⟨0⟩ true, Option.none, started⟩] ++
      ⟨firstPolled, .pollAction 7 ⟨1⟩, some .pending, waiting⟩ ::
      [⟨new.set (some ⟨⟨1⟩, .short ⟨2⟩⟩) true, .pollAction 7 ⟨0⟩, some (.ready (.init ⟨0⟩)),
        firstPolled⟩, ⟨new, .set (some ⟨⟨1⟩, .short ⟨2⟩⟩) true, Option.none,
          new.set (some ⟨⟨1⟩, .short ⟨2⟩⟩) true⟩]) started :=
  .next (.next (.next (.next .start trivial rfl) trivial rfl) trivial rfl) trivial rfl

theorem woken_before_ready_started : waiting.wakes 7 < started.wakes 7 :=
  @woken_before_ready started 7 ⟨firstPolled, .pollAction 7 ⟨1⟩, some .pending, waiting⟩ _ _
    started_run ⟨1⟩ rfl rfl (by simp) 7 ⟨2⟩ (by decide)

end CombinedPendingTable
end ZigbeeStack
