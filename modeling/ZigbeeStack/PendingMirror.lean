import ZigbeeStack.CombinedPendingTable
import ZigbeeStack.PendingTableSlots
import ZigbeeStack.WriteBack

/-! The host's pending tables beside the radio's copies of them: commands on their way, commands
that failed, and answers that come late. -/
namespace ZigbeeStack

namespace PendingTable
variable {T : Type} {n : Nat}

def view (t : PendingTable T n) : WriteBack.View (Fin n) (Option T) UniqueKey :=
  ⟨fun i => (t.table i).value, fun i => (t.table i).dirty, t.updating⟩

structure Touched (t t' : PendingTable T n) : Prop where
  updating : t'.updating = t.updating
  clean : ∀ i, t'.view.dirty i = false → t.view.dirty i = false ∧ t'.view.value i = t.view.value i

theorem Touched.of_view {t t' : PendingTable T n} (h : t'.view = t.view) : Touched t t' :=
  ⟨congrArg WriteBack.View.updating h, fun i hd => by rw [h] at hd ⊢; exact ⟨hd, rfl⟩⟩

theorem view_setEntry (t : PendingTable T n) (i : Fin n) {e : PendingTableEntry T}
    (he : e.dirty = true) (j : Fin n) (hd : (t.setEntry i e).view.dirty j = false) :
    t.view.dirty j = false ∧ (t.setEntry i e).view.value j = t.view.value j := by
  simp only [view, setEntry, Function.update_apply] at hd ⊢
  by_cases hji : j = i
  · simp [hji, he] at hd
  · simpa [hji] using hd

section Set
variable [DecidableEq T] [NeZero n]

theorem promote_view (t : PendingTable T n) (v : T) : Touched t (t.promote v).2 := by
  have hp := t.promoted v
  generalize (t.promote v).2 = t' at hp ⊢
  cases hp with
  | absent _ => exact ⟨rfl, fun i hd => ⟨hd, rfl⟩⟩
  | moved _ _ => exact ⟨rfl, fun i hd => ⟨hd, rfl⟩⟩
  | placed _ _ => exact ⟨rfl, fun i hd => t.view_setEntry _ rfl i hd⟩

/-- Setting a member leaves a slot as it was or makes it dirty. -/
theorem set_view (t : PendingTable T n) (v : T) (inserted : Bool) :
    Touched t (t.set v inserted) := by
  cases inserted with
  | true =>
    obtain ⟨hu, hclean⟩ := { t with values := Insert.insert v t.values }.promote_view v
    exact ⟨hu, hclean⟩
  | false =>
    have hp := t.removed v
    have hdef : t.set v false = (t.remove v).2 := rfl
    rw [hdef]
    generalize (t.remove v).2 = t' at hp ⊢
    cases hp with
    | absent _ => exact ⟨rfl, fun i hd => ⟨hd, rfl⟩⟩
    | cleared _ _ =>
      exact ⟨rfl, fun i hd => ({ t with values := t.values.erase v }).view_setEntry _ rfl i hd⟩
    | unplaced _ _ => exact ⟨rfl, fun i hd => ⟨hd, rfl⟩⟩

end Set

/-- Marking a slot leaves the values as they are. -/
theorem view_mark (t : PendingTable T n) (i : Fin n) (dirty : Bool)
    (updating : Option (UniqueKey × Fin n)) (waker : WakerStore) :
    view { t with
      table := Function.update t.table i { t.table i with dirty := dirty }
      updating := updating
      waker := waker } =
      ⟨t.view.value, Function.update t.view.dirty i dirty, updating⟩ := by
  refine congrArg₂ (WriteBack.View.mk · · _) (funext fun j => ?_) (funext fun j => ?_)
  · simp only [Function.update_apply]
    split <;> simp [view, *]
  · simp only [Function.update_apply]
    split <;> simp [view, *]

inductive UpdatePolled (t : PendingTable T n) (key : UniqueKey) :
    Poll (PendingTableUpdate T n) × PendingTable T n → Prop where
  | sends {i t'} : t.updating = none → t'.values = t.values →
      t'.view = ⟨t.view.value, Function.update t.view.dirty i false, some (key, i)⟩ →
      UpdatePolled t key (.ready ⟨key, i, t.view.value i⟩, t')
  | waits {t'} : t'.view = t.view → t'.values = t.values →
      (t.updating = none → ∀ i, t.view.dirty i = false) → UpdatePolled t key (.pending, t')

theorem updatePolled (t : PendingTable T n) (cx : Waker) (key : UniqueKey) :
    UpdatePolled t key (t.pollUpdate cx key) := by
  unfold pollUpdate
  split
  · rename_i i hidle hfirst
    exact .sends hidle rfl (t.view_mark i false (some (key, i)) t.waker)
  · rename_i hwait
    refine .waits rfl rfl fun hidle i => ?_
    cases hfirst : t.firstDirty with
    | some j => exact absurd hfirst (hwait j hidle)
    | none => simpa [view] using List.find?_eq_none.mp hfirst i (List.mem_finRange i)

theorem reportUpdateResult_view_of_ne (t : PendingTable T n) {token : UniqueKey} (result : Bool)
    (h : ∀ i, t.updating ≠ some (token, i)) : t.reportUpdateResult token result = t := by
  unfold reportUpdateResult
  split
  · rename_i k i hu
    rw [if_neg]
    rintro rfl
    exact h i hu
  · rfl

theorem reportUpdateResult_view (t : PendingTable T n) {token : UniqueKey} (result : Bool)
    {i : Fin n} (h : t.updating = some (token, i)) : (t.reportUpdateResult token result).view =
      ⟨t.view.value, if result then t.view.dirty else Function.update t.view.dirty i true,
        none⟩ := by
  cases result with
  | true => simp [reportUpdateResult, h, view, wake]
  | false =>
    have hdef : t.reportUpdateResult token false = { t with
        updating := none
        table := Function.update t.table i { t.table i with dirty := true }
        waker := t.waker.wake } := by
      simp [reportUpdateResult, h, wake]
    rw [hdef]
    exact t.view_mark i true none t.waker.wake

end PendingTable

def CombinedPendingTableAction.key : CombinedPendingTableAction → UniqueKey
  | .init key => key
  | .updateShort key _ _ => key
  | .updateExtended key _ _ => key

structure RadioTables where
  short : Fin 8 → Option (PANID × ShortAddress)
  extended : Fin 8 → Option ExtendedAddress

namespace RadioTables

def empty : RadioTables := ⟨fun _ => none, fun _ => none⟩

/-- What a command does on the radio. One that fails leaves what is in `garbage` in the slots that
it was about. -/
def execute (self : RadioTables) (success : Bool) (garbage : RadioTables) :
    CombinedPendingTableAction → RadioTables
  | .init _ => if success then empty else garbage
  | .updateShort _ index value =>
    { self with
      short := Function.update self.short index (if success then value else garbage.short index) }
  | .updateExtended _ index value =>
    { self with
      extended := Function.update self.extended index
        (if success then value else garbage.extended index) }

end RadioTables

namespace PendingMirror
open Runs WriteBack

/-- The host and the radio. Commands wait in the order sent; `answers` holds the outcome of every
command the radio has run, and `reported` the keys of those the host has heard of. -/
structure World where
  host : CombinedPendingTable
  radio : RadioTables
  inFlight : List CombinedPendingTableAction
  answers : List (CombinedPendingTableAction × Bool)
  reported : List UniqueKey

inductive Event where
  | set (address : Option FullAddress) (inserted : Bool)
  | pollAction (cx : Waker) (key : UniqueKey)
  | execute (success : Bool) (garbage : RadioTables)
  | reportInitResult (key : UniqueKey) (result : Bool)
  | reportUpdateResult (key : UniqueKey) (result : Bool)

abbrev Output := Option (Poll CombinedPendingTableAction)

namespace World

def start (radio : RadioTables) : World := ⟨.new, radio, [], [], []⟩

def keys (w : World) : List UniqueKey :=
  w.inFlight.map (·.key) ++ w.answers.map (·.1.key)

variable {ι α : Type} (f : CombinedPendingTableAction → Option (WriteBack.Command ι α UniqueKey))

def sent (w : World) : List (WriteBack.Command ι α UniqueKey) := w.inFlight.filterMap f

def done (w : World) : List (UniqueKey × Bool) :=
  w.answers.filterMap fun a => (f a.1).map fun c => (c.key, a.2)

def Quiet (w : World) : Prop := w.inFlight = [] ∧ ∀ k ∈ w.keys, k ∈ w.reported

end World

def shortCommand : CombinedPendingTableAction →
    Option (WriteBack.Command (Fin 8) (Option (PANID × ShortAddress)) UniqueKey)
  | .updateShort key index value => some ⟨key, index, value⟩
  | _ => none

def extendedCommand : CombinedPendingTableAction →
    Option (WriteBack.Command (Fin 8) (Option ExtendedAddress) UniqueKey)
  | .updateExtended key index value => some ⟨key, index, value⟩
  | _ => none

def step (w : World) : Event → Option (World × Output)
  | .set address inserted => some ({ w with host := w.host.set address inserted }, none)
  | .pollAction cx key =>
    match w.host.pollAction cx key with
    | (.ready action, host) =>
      some ({ w with host := host, inFlight := w.inFlight ++ [action] }, some (.ready action))
    | (.pending, host) => some ({ w with host := host }, some .pending)
  | .execute success garbage =>
    match w.inFlight with
    | [] => none
    | action :: rest => some ({ w with
        radio := w.radio.execute success garbage action
        inFlight := rest
        answers := (action, success) :: w.answers }, none)
  | .reportInitResult key result =>
    if (CombinedPendingTableAction.init key, result) ∈ w.answers then
      some ({ w with
        host := w.host.reportInitResult key result
        reported := key :: w.reported }, none)
    else none
  | .reportUpdateResult key result =>
    if (key, result) ∈ w.done shortCommand ∨ (key, result) ∈ w.done extendedCommand then
      some ({ w with
        host := w.host.reportUpdateResult key result
        reported := key :: w.reported }, none)
    else none

def FreshKeys (_ : History World Event Output) (w : World) : Event → Prop
  | .pollAction _ key => key ∉ w.keys
  | _ => True

instance (h : History World Event Output) (w : World) : (e : Event) → Decidable (FreshKeys h w e)
  | .set _ _ => .isTrue trivial
  | .pollAction _ key => inferInstanceAs (Decidable (key ∉ w.keys))
  | .execute _ _ => .isTrue trivial
  | .reportInitResult _ _ => .isTrue trivial
  | .reportUpdateResult _ _ => .isTrue trivial

structure Inv (w : World) : Prop where
  keys_nodup : w.keys.Nodup
  short : Mirrors w.host.short.view w.radio.short (w.sent shortCommand) (w.done shortCommand)
  extended : Mirrors w.host.extended.view w.radio.extended (w.sent extendedCommand)
    (w.done extendedCommand)
  inits : ∀ k, .init k ∈ w.inFlight → w.host.initializing = some k
  initializing : ∀ k, w.host.initializing = some k → w.host.isInitialized = false ∧
    (.init k ∈ w.inFlight ∨
      ∃ success, (.init k, success) ∈ w.answers ∧ (success = true → w.radio = .empty))
  untouched : w.host.isInitialized = false →
    (w.host.short.updating = none ∧ ∀ i, w.host.short.view.dirty i = true) ∧
    (w.host.extended.updating = none ∧ ∀ i, w.host.extended.view.dirty i = true)
  issued : ∀ k ∈ w.reported, k ∈ w.keys
  reported : ∀ k ∈ w.reported, w.host.initializing ≠ some k ∧
    (∀ i, w.host.short.updating ≠ some (k, i)) ∧ ∀ i, w.host.extended.updating ≠ some (k, i)

theorem inv_start (radio : RadioTables) : Inv (World.start radio) where
  keys_nodup := List.nodup_nil
  short := .of_idle rfl fun _ hd => by cases hd
  extended := .of_idle rfl fun _ hd => by cases hd
  inits k hk := by cases hk
  initializing k hk := by cases hk
  untouched _ := ⟨⟨rfl, fun _ => rfl⟩, rfl, fun _ => rfl⟩
  issued k hk := by cases hk
  reported k hk := by cases hk

/-- The host may change its tables as long as it marks what it changed. -/
theorem Inv.touch {w : World} (hi : Inv w) {host : CombinedPendingTable}
    (hinit : host.initializing = w.host.initializing)
    (hdone : host.isInitialized = w.host.isInitialized)
    (hshort : PendingTable.Touched w.host.short host.short)
    (hextended : PendingTable.Touched w.host.extended host.extended) :
    Inv { w with host := host } where
  keys_nodup := hi.keys_nodup
  short := hi.short.touch hshort.updating hshort.clean
  extended := hi.extended.touch hextended.updating hextended.clean
  inits k hk := hinit.trans (hi.inits k hk)
  initializing k hk := by
    rw [hdone]
    exact hi.initializing k (hinit ▸ hk)
  untouched hd := by
    obtain ⟨⟨hus, hds⟩, hue, hde⟩ := hi.untouched (hdone ▸ hd)
    refine ⟨⟨hshort.updating.trans hus, fun i => ?_⟩, hextended.updating.trans hue, fun i => ?_⟩
    · by_contra hclean
      have hd := (hshort.clean i (by simpa using hclean)).1
      rw [hds i] at hd
      cases hd
    · by_contra hclean
      have hd := (hextended.clean i (by simpa using hclean)).1
      rw [hde i] at hd
      cases hd
  issued := hi.issued
  reported k hk := by
    rw [hinit, hshort.updating, hextended.updating]
    exact hi.reported k hk

theorem Inv.set {w : World} (hi : Inv w) (address : Option FullAddress) (inserted : Bool) :
    Inv { w with host := w.host.set address inserted } := by
  cases address with
  | none => exact hi.touch rfl rfl (.of_view rfl) (.of_view rfl)
  | some address =>
    obtain ⟨panId, address⟩ := address
    cases address with
    | short address => exact hi.touch rfl rfl (w.host.short.set_view _ _) (.of_view rfl)
    | extended address => exact hi.touch rfl rfl (.of_view rfl) (w.host.extended.set_view _ _)

inductive HostPolled (c : CombinedPendingTable) (key : UniqueKey) :
    Poll CombinedPendingTableAction × CombinedPendingTable → Prop where
  | initializing {waker} : c.initializing.isSome →
      HostPolled c key (.pending, { c with waker := waker })
  | init : c.initializing = none → c.isInitialized = false →
      HostPolled c key (.ready (.init key), { c with initializing := some key })
  | updateShort {i v short} : c.isInitialized = true →
      PendingTable.UpdatePolled c.short key (.ready ⟨key, i, v⟩, short) →
      HostPolled c key (.ready (.updateShort key i v), { c with short := short })
  | updateExtended {i v short extended} : c.isInitialized = true →
      PendingTable.UpdatePolled c.short key (.pending, short) →
      PendingTable.UpdatePolled c.extended key (.ready ⟨key, i, v⟩, extended) →
      HostPolled c key
        (.ready (.updateExtended key i v), { c with short := short, extended := extended })
  | waits {short extended} : c.initializing = none → c.isInitialized = true →
      PendingTable.UpdatePolled c.short key (.pending, short) →
      PendingTable.UpdatePolled c.extended key (.pending, extended) →
      HostPolled c key (.pending, { c with short := short, extended := extended })

theorem hostPolled (c : CombinedPendingTable) (cx : Waker) (key : UniqueKey) :
    HostPolled c key (c.pollAction cx key) := by
  unfold CombinedPendingTable.pollAction
  split
  · rename_i hinit
    exact .initializing hinit
  · rename_i hinit
    have hnone : c.initializing = none := by simpa using hinit
    split
    · rename_i hfresh
      exact .init hnone (by simpa using hfresh)
    · rename_i hdone
      have hdone : c.isInitialized = true := by simpa using hdone
      have hs := c.short.updatePolled cx key
      have he := c.extended.updatePolled cx key
      split
      · rename_i update short heq
        rw [heq] at hs
        cases hs with
        | sends hu hv hview => exact .updateShort hdone (.sends hu hv hview)
      · rename_i short heq
        rw [heq] at hs
        split
        · rename_i update extended heq'
          rw [heq'] at he
          cases he with
          | sends hu hv hview => exact .updateExtended hdone hs (.sends hu hv hview)
        · rename_i extended heq'
          rw [heq'] at he
          exact .waits hnone hdone hs he

theorem sent_send {ι α : Type} (w : World) (host : CombinedPendingTable)
    (a : CombinedPendingTableAction)
    (f : CombinedPendingTableAction → Option (WriteBack.Command ι α UniqueKey)) :
    World.sent f { w with host := host, inFlight := w.inFlight ++ [a] } =
      w.sent f ++ (f a).toList := by
  cases h : f a <;> simp [World.sent, h]

theorem keys_send (w : World) (host : CombinedPendingTable) (a : CombinedPendingTableAction) :
    ({ w with host := host, inFlight := w.inFlight ++ [a] } : World).keys.Perm
      (a.key :: w.keys) := by
  simp only [World.keys, List.map_append, List.map_cons, List.map_nil, List.append_assoc]
  exact List.perm_middle

/-- What holds of the keys once a command with a new key is sent. -/
theorem Inv.send_keys {w : World} (hi : Inv w) (host : CombinedPendingTable)
    {a : CombinedPendingTableAction} (hnew : a.key ∉ w.keys) :
    ({ w with host := host, inFlight := w.inFlight ++ [a] } : World).keys.Nodup ∧
      (∀ k ∈ w.reported,
        k ∈ ({ w with host := host, inFlight := w.inFlight ++ [a] } : World).keys) ∧
      ∀ k ∈ w.reported, k ≠ a.key := by
  have hperm := keys_send w host a
  refine ⟨hperm.nodup_iff.mpr (List.nodup_cons.mpr ⟨hnew, hi.keys_nodup⟩), fun k hk => ?_, ?_⟩
  · exact hperm.mem_iff.mpr (List.mem_cons_of_mem _ (hi.issued k hk))
  · rintro k hk rfl
    exact hnew (hi.issued _ hk)

theorem Inv.sendInit {w : World} (hi : Inv w) {key : UniqueKey} (hnew : key ∉ w.keys)
    (hnone : w.host.initializing = none) (hfresh : w.host.isInitialized = false) :
    Inv { w with
      host := { w.host with initializing := some key }
      inFlight := w.inFlight ++ [.init key] } := by
  obtain ⟨hnodup, hissued, hne⟩ := hi.send_keys { w.host with initializing := some key }
    (a := .init key) hnew
  refine ⟨hnodup, ?_, ?_, fun k hk => ?_, fun k hk => ?_, fun _ => hi.untouched hfresh, hissued,
    fun k hk => ⟨fun heq => hne k hk (Option.some.inj heq).symm, (hi.reported k hk).2⟩⟩
  · rw [sent_send]
    simp only [shortCommand, Option.toList_none, List.append_nil]
    exact hi.short
  · rw [sent_send]
    simp only [extendedCommand, Option.toList_none, List.append_nil]
    exact hi.extended
  · rcases List.mem_append.mp hk with hold | hself
    · cases hnone.symm.trans (hi.inits k hold)
    · simpa [eq_comm] using hself
  · obtain rfl : key = k := by simpa using hk
    exact ⟨hfresh, .inl (by simp)⟩

/-- An update with a new key is sent once the radio's tables are initialised. It is left to see
that the table it is for is still written back. -/
theorem Inv.sendUpdate {w : World} (hi : Inv w) {host : CombinedPendingTable}
    {a : CombinedPendingTableAction} (hnew : a.key ∉ w.keys) (hupdate : ∀ k, a ≠ .init k)
    (hinit : host.initializing = w.host.initializing)
    (hdone : host.isInitialized = w.host.isInitialized) (htrue : w.host.isInitialized = true)
    (hshort : Mirrors host.short.view w.radio.short (w.sent shortCommand ++ (shortCommand a).toList)
      (w.done shortCommand))
    (hextended : Mirrors host.extended.view w.radio.extended
      (w.sent extendedCommand ++ (extendedCommand a).toList) (w.done extendedCommand))
    (hus : ∀ k i, host.short.updating = some (k, i) →
      w.host.short.updating = some (k, i) ∨ k = a.key)
    (hue : ∀ k i, host.extended.updating = some (k, i) →
      w.host.extended.updating = some (k, i) ∨ k = a.key) :
    Inv { w with host := host, inFlight := w.inFlight ++ [a] } := by
  obtain ⟨hnodup, hissued, hne⟩ := hi.send_keys host hnew
  refine ⟨hnodup, ?_, ?_, fun k hk => ?_, fun k hk => ?_, fun hfresh => ?_, hissued,
    fun k hk => ⟨?_, fun i hu => ?_, fun i hu => ?_⟩⟩
  · rw [sent_send]
    exact hshort
  · rw [sent_send]
    exact hextended
  · rcases List.mem_append.mp hk with hold | hself
    · exact hinit.trans (hi.inits k hold)
    · exact absurd (List.mem_singleton.mp hself).symm (hupdate k)
  · exact absurd (hi.initializing k (hinit.symm.trans hk)).1 (by simp [htrue])
  · exact absurd (hdone.symm.trans hfresh) (by simp [htrue])
  · rw [hinit]
    exact (hi.reported k hk).1
  · exact (hus k i hu).elim ((hi.reported k hk).2.1 i) (hne k hk)
  · exact (hue k i hu).elim ((hi.reported k hk).2.2 i) (hne k hk)

theorem Inv.sendShort {w : World} (hi : Inv w) {key : UniqueKey} (hnew : key ∉ w.keys)
    (hdone : w.host.isInitialized = true) {i : Fin 8} {v : Option (PANID × ShortAddress)}
    {short : PendingTable (PANID × ShortAddress) 8}
    (hp : PendingTable.UpdatePolled w.host.short key (.ready ⟨key, i, v⟩, short)) :
    Inv { w with
      host := { w.host with short := short }
      inFlight := w.inFlight ++ [.updateShort key i v] } := by
  cases hp with
  | sends hidle _ hview =>
    have hu : short.updating = some (key, i) := congrArg WriteBack.View.updating hview
    refine hi.sendUpdate hnew (by simp) rfl rfl hdone ?_ ?_ (fun k j hj => ?_) fun k j hj => .inl hj
    · rw [hview]
      exact hi.short.send hidle key i
    · simpa [extendedCommand] using hi.extended
    · exact .inr (congrArg Prod.fst (Option.some.inj (hu.symm.trans hj))).symm

theorem Inv.sendExtended {w : World} (hi : Inv w) {key : UniqueKey} (hnew : key ∉ w.keys)
    (hdone : w.host.isInitialized = true) {i : Fin 8} {v : Option ExtendedAddress}
    {extended : PendingTable ExtendedAddress 8}
    (hp : PendingTable.UpdatePolled w.host.extended key (.ready ⟨key, i, v⟩, extended)) :
    Inv { w with
      host := { w.host with extended := extended }
      inFlight := w.inFlight ++ [.updateExtended key i v] } := by
  cases hp with
  | sends hidle _ hview =>
    have hu : extended.updating = some (key, i) := congrArg WriteBack.View.updating hview
    refine hi.sendUpdate hnew (by simp) rfl rfl hdone ?_ ?_ (fun k j hj => .inl hj) fun k j hj => ?_
    · simpa [shortCommand] using hi.short
    · rw [hview]
      exact hi.extended.send hidle key i
    · exact .inr (congrArg Prod.fst (Option.some.inj (hu.symm.trans hj))).symm

theorem updatePolled_touched {T : Type} {n : Nat} {t t' : PendingTable T n} {key : UniqueKey}
    (hp : PendingTable.UpdatePolled t key (.pending, t')) : PendingTable.Touched t t' := by
  cases hp with
  | waits hview _ _ => exact .of_view hview

theorem Inv.pollAction {w w' : World} (hi : Inv w) {cx : Waker} {key : UniqueKey} {o : Output}
    (hnew : key ∉ w.keys) (hs : step w (.pollAction cx key) = some (w', o)) : Inv w' := by
  have hp := hostPolled w.host cx key
  simp only [step] at hs
  generalize w.host.pollAction cx key = out at hp hs
  cases hp with
  | initializing _ =>
    obtain ⟨rfl, -⟩ := Prod.mk.inj (Option.some.inj hs)
    exact hi.touch rfl rfl (.of_view rfl) (.of_view rfl)
  | init hnone hfresh =>
    obtain ⟨rfl, -⟩ := Prod.mk.inj (Option.some.inj hs)
    exact hi.sendInit hnew hnone hfresh
  | updateShort hdone hup =>
    obtain ⟨rfl, -⟩ := Prod.mk.inj (Option.some.inj hs)
    exact hi.sendShort hnew hdone hup
  | @updateExtended i v short extended hdone hshort hup =>
    obtain ⟨rfl, -⟩ := Prod.mk.inj (Option.some.inj hs)
    have hi' : Inv { w with host := { w.host with short := short } } :=
      hi.touch rfl rfl (updatePolled_touched hshort) (.of_view rfl)
    exact hi'.sendExtended hnew hdone hup
  | waits _ _ hshort hextended =>
    obtain ⟨rfl, -⟩ := Prod.mk.inj (Option.some.inj hs)
    exact hi.touch rfl rfl (updatePolled_touched hshort) (updatePolled_touched hextended)

/-! The radio runs a command. -/

theorem keys_execute {w : World} {a : CombinedPendingTableAction}
    {rest : List CombinedPendingTableAction} (h : w.inFlight = a :: rest) (radio : RadioTables)
    (success : Bool) : ({ w with
      radio := radio, inFlight := rest, answers := (a, success) :: w.answers } : World).keys.Perm
      w.keys := by
  simp only [World.keys, h, List.map_cons, List.cons_append]
  exact List.perm_middle

/-- No key stands for two commands. -/
theorem Inv.key_unique {w : World} (hi : Inv w) {a b : CombinedPendingTableAction}
    {success success' : Bool} (ha : (a, success) ∈ w.answers) (hb : (b, success') ∈ w.answers)
    (hk : a.key = b.key) : a = b ∧ success = success' := by
  have hnodup := (List.nodup_append.mp hi.keys_nodup).2.1
  simpa using List.inj_on_of_nodup_map hnodup ha hb hk

theorem Inv.key_answered {w : World} (hi : Inv w) {a b : CombinedPendingTableAction}
    {success : Bool} (ha : a ∈ w.inFlight) (hb : (b, success) ∈ w.answers) : a.key ≠ b.key :=
  (List.nodup_append.mp hi.keys_nodup).2.2 _ (List.mem_map_of_mem ha) _
    (List.mem_map.mpr ⟨(b, success), hb, rfl⟩)

/-- While the initialisation is on the way nothing else is. -/
theorem Inv.alone {w : World} (hi : Inv w) (hfresh : w.host.isInitialized = false)
    {a : CombinedPendingTableAction} (ha : a ∈ w.inFlight) : ∃ k, a = .init k := by
  obtain ⟨⟨hshort, -⟩, hextended, -⟩ := hi.untouched hfresh
  cases a with
  | init k => exact ⟨k, rfl⟩
  | updateShort k i v =>
    have hnil := hi.short.sent_nil hshort
    rw [World.sent, List.filterMap_eq_nil_iff] at hnil
    cases hnil _ ha
  | updateExtended k i v =>
    have hnil := hi.extended.sent_nil hextended
    rw [World.sent, List.filterMap_eq_nil_iff] at hnil
    cases hnil _ ha

/-- What a table makes of the command at the head of the queue: it is either its own, or none of
its business. -/
theorem Inv.executed {w : World} (hi : Inv w) {a : CombinedPendingTableAction}
    {rest : List CombinedPendingTableAction} (hflight : w.inFlight = a :: rest)
    {success : Bool} {radio : RadioTables}
    (hshort : Mirrors w.host.short.view radio.short (rest.filterMap shortCommand)
      (World.done shortCommand { w with answers := (a, success) :: w.answers }))
    (hextended : Mirrors w.host.extended.view radio.extended (rest.filterMap extendedCommand)
      (World.done extendedCommand { w with answers := (a, success) :: w.answers }))
    (hempty : ∀ k, a = .init k → success = true → radio = .empty) :
    Inv { w with radio := radio, inFlight := rest, answers := (a, success) :: w.answers } := by
  have hperm := keys_execute hflight radio success
  have hmem : a ∈ w.inFlight := by simp [hflight]
  refine ⟨hperm.nodup_iff.mpr hi.keys_nodup, hshort, hextended, fun k hk => ?_, fun k hk => ?_,
    hi.untouched, fun k hk => hperm.mem_iff.mpr (hi.issued k hk), hi.reported⟩
  · exact hi.inits k (by simp [hflight, show _ ∈ rest from hk])
  · obtain ⟨hfresh, hwhere⟩ := hi.initializing k hk
    refine ⟨hfresh, ?_⟩
    obtain ⟨k', rfl⟩ := hi.alone hfresh hmem
    obtain rfl : k = k' := Option.some.inj (hk.symm.trans (hi.inits k' hmem))
    exact .inr ⟨success, List.mem_cons_self, hempty k rfl⟩

theorem Inv.execute {w : World} (hi : Inv w) {a : CombinedPendingTableAction}
    {rest : List CombinedPendingTableAction} (hflight : w.inFlight = a :: rest) (success : Bool)
    (garbage : RadioTables) :
    Inv { w with
      radio := w.radio.execute success garbage a
      inFlight := rest
      answers := (a, success) :: w.answers } := by
  have hshort := hi.short
  have hextended := hi.extended
  rw [World.sent, hflight] at hshort hextended
  cases a with
  | init k =>
    have hfresh : w.host.isInitialized = false :=
      (hi.initializing k (hi.inits k (by simp [hflight]))).1
    obtain ⟨⟨hus, hds⟩, hue, hde⟩ := hi.untouched hfresh
    refine hi.executed hflight ?_ ?_ fun _ _ hs => by rw [RadioTables.execute, if_pos hs]
    · have hnil : rest.filterMap shortCommand = [] := hshort.sent_nil hus
      rw [hnil]
      exact .of_idle hus fun i hd => absurd (hds i) (by simp [hd])
    · have hnil : rest.filterMap extendedCommand = [] := hextended.sent_nil hue
      rw [hnil]
      exact .of_idle hue fun i hd => absurd (hde i) (by simp [hd])
  | updateShort k i v =>
    refine hi.executed hflight ?_ hextended fun _ ha => by cases ha
    exact hshort.execute fun hs => if_pos hs
  | updateExtended k i v =>
    refine hi.executed hflight hshort ?_ fun _ ha => by cases ha
    exact hextended.execute fun hs => if_pos hs

/-! An answer reaches the host. -/

theorem mem_keys_of_answer {w : World} {a : CombinedPendingTableAction} {success : Bool}
    (ha : (a, success) ∈ w.answers) : a.key ∈ w.keys :=
  List.mem_append_right _ (List.mem_map.mpr ⟨(a, success), ha, rfl⟩)

/-- An answer in one table's record is the answer to one of its commands. -/
theorem done_answer {w : World} {ι α : Type}
    {f : CombinedPendingTableAction → Option (WriteBack.Command ι α UniqueKey)}
    (hf : ∀ a c, f a = some c → c.key = a.key) {key : UniqueKey} {result : Bool}
    (h : (key, result) ∈ w.done f) :
    ∃ a, (a, result) ∈ w.answers ∧ a.key = key ∧ (f a).isSome := by
  obtain ⟨⟨a, result'⟩, ha, hfa⟩ := List.mem_filterMap.mp h
  obtain ⟨c, hc, heq⟩ := Option.map_eq_some_iff.mp hfa
  obtain ⟨hk, rfl⟩ := Prod.mk.inj heq
  refine ⟨a, ha, (hf a c hc).symm.trans hk, ?_⟩
  rw [hc]
  rfl

section Table
variable {T : Type} {t : PendingTable T 8} {radio : Fin 8 → Option T}
  {f : CombinedPendingTableAction → Option (WriteBack.Command (Fin 8) (Option T) UniqueKey)}

/-- The key that a table waits for is that of one of its own commands. -/
theorem Inv.updating_own {w : World} (hi : Inv w)
    (hf : ∀ a c, f a = some c → c.key = a.key) (hm : Mirrors t.view radio (w.sent f) (w.done f))
    {a : CombinedPendingTableAction} {success : Bool} (ha : (a, success) ∈ w.answers) {i : Fin 8}
    (hu : t.updating = some (a.key, i)) : (f a).isSome := by
  obtain ⟨c, hc, hk⟩ | ⟨b, hb, -⟩ := hm.waiting a.key i hu
  · obtain ⟨a', ha', hfa⟩ := List.mem_filterMap.mp hc
    exact absurd ((hf a' c hfa).symm.trans hk) (hi.key_answered ha' ha)
  · obtain ⟨a', ha', hk, hown⟩ := done_answer hf hb
    obtain ⟨rfl, -⟩ := hi.key_unique ha ha' hk.symm
    exact hown

theorem Inv.settled {w : World} (hi : Inv w) (hf : ∀ a c, f a = some c → c.key = a.key)
    (hm : Mirrors t.view radio (w.sent f) (w.done f)) {a : CombinedPendingTableAction}
    {success : Bool} (ha : (a, success) ∈ w.answers) :
    Mirrors (t.reportUpdateResult a.key success).view radio (w.sent f) (w.done f) ∧
      ∀ k i, (t.reportUpdateResult a.key success).updating = some (k, i) →
        k ≠ a.key ∧ t.updating = some (k, i) := by
  by_cases hu : ∃ i, t.updating = some (a.key, i)
  · obtain ⟨i, hu⟩ := hu
    have hview := t.reportUpdateResult_view success hu
    constructor
    · rw [hview]
      refine hm.settle hu (fun c hc hk => ?_) fun b hb => ?_
      · obtain ⟨a', ha', hfa⟩ := List.mem_filterMap.mp hc
        exact hi.key_answered ha' ha ((hf a' c hfa).symm.trans hk)
      · obtain ⟨a', ha', hk, -⟩ := done_answer hf hb
        exact (hi.key_unique ha' ha hk).2
    · intro k j hk
      have hnone : (t.reportUpdateResult a.key success).updating = none :=
        congrArg View.updating hview
      cases hnone.symm.trans hk
  · have hsame := t.reportUpdateResult_view_of_ne success fun i hk => hu ⟨i, hk⟩
    rw [hsame]
    exact ⟨hm, fun k i hk => ⟨fun heq => hu ⟨i, heq ▸ hk⟩, hk⟩⟩

end Table

theorem shortCommand_key (a : CombinedPendingTableAction)
    (c : WriteBack.Command (Fin 8) (Option (PANID × ShortAddress)) UniqueKey)
    (h : shortCommand a = some c) : c.key = a.key := by
  cases a <;> simp only [shortCommand, reduceCtorEq, Option.some.injEq] at h
  subst h
  rfl

theorem extendedCommand_key (a : CombinedPendingTableAction)
    (c : WriteBack.Command (Fin 8) (Option ExtendedAddress) UniqueKey)
    (h : extendedCommand a = some c) : c.key = a.key := by
  cases a <;> simp only [extendedCommand, reduceCtorEq, Option.some.injEq] at h
  subst h
  rfl

theorem Inv.reportUpdateResult {w : World} (hi : Inv w) {a : CombinedPendingTableAction}
    {success : Bool} (ha : (a, success) ∈ w.answers) (hupdate : ∀ k, a ≠ .init k) :
    Inv { w with
      host := w.host.reportUpdateResult a.key success
      reported := a.key :: w.reported } := by
  obtain ⟨hshort, hus⟩ := hi.settled shortCommand_key hi.short ha
  obtain ⟨hextended, hue⟩ := hi.settled extendedCommand_key hi.extended ha
  refine ⟨hi.keys_nodup, hshort, hextended, hi.inits, hi.initializing, fun hfresh => ?_,
    fun k hk => ?_, fun k hk => ?_⟩
  · obtain ⟨⟨hs, hds⟩, he, hde⟩ := hi.untouched hfresh
    have hsame : w.host.short.reportUpdateResult a.key success = w.host.short :=
      PendingTable.reportUpdateResult_view_of_ne _ _ fun i hk => by cases hs.symm.trans hk
    have hsame' : w.host.extended.reportUpdateResult a.key success = w.host.extended :=
      PendingTable.reportUpdateResult_view_of_ne _ _ fun i hk => by cases he.symm.trans hk
    simp only [CombinedPendingTable.reportUpdateResult, hsame, hsame']
    exact ⟨⟨hs, hds⟩, he, hde⟩
  · rcases List.mem_cons.mp hk with rfl | hk
    · exact mem_keys_of_answer ha
    · exact hi.issued k hk
  · rcases List.mem_cons.mp hk with rfl | hk
    · refine ⟨fun hinit => ?_, fun i hk => (hus _ i hk).1 rfl, fun i hk => (hue _ i hk).1 rfl⟩
      rcases (hi.initializing _ hinit).2 with hflight | ⟨b, hb, -⟩
      · exact hi.key_answered hflight ha rfl
      · exact hupdate _ (hi.key_unique ha hb rfl).1
    · obtain ⟨hinit, hs, he⟩ := hi.reported k hk
      exact ⟨hinit, fun i hk => hs i (hus k i hk).2, fun i hk => he i (hue k i hk).2⟩

/-- Once the radio's table is known to be empty, the slots that hold nothing are clean. -/
theorem mirrors_assumeEmpty {T : Type} {t : PendingTable T 8} (hidle : t.updating = none)
    (done : List (UniqueKey × Bool)) :
    Mirrors t.assumeEmpty.view (fun _ => none) [] done := by
  refine .of_idle hidle fun i hd => ?_
  have hnone : (t.table i).value.isSome = false := hd
  exact (Option.isSome_eq_false_iff.mp hnone |> Option.isNone_iff_eq_none.mp).symm

theorem Inv.reportInitResult {w : World} (hi : Inv w) {key : UniqueKey} {result : Bool}
    (ha : (.init key, result) ∈ w.answers) :
    Inv { w with
      host := w.host.reportInitResult key result
      reported := key :: w.reported } := by
  have hissued : ∀ k ∈ key :: w.reported, k ∈ w.keys := by
    intro k hk
    rcases List.mem_cons.mp hk with rfl | hk
    · exact mem_keys_of_answer ha
    · exact hi.issued k hk
  by_cases hinit : w.host.initializing = some key
  · obtain ⟨hfresh, hwhere⟩ := hi.initializing key hinit
    obtain ⟨⟨hus, hds⟩, hue, hde⟩ := hi.untouched hfresh
    have hnone : ∀ k, .init k ∉ w.inFlight := by
      intro k hk
      obtain rfl : key = k := Option.some.inj (hinit.symm.trans (hi.inits k hk))
      exact hi.key_answered hk ha rfl
    have hs := hi.short.sent_nil hus
    have he := hi.extended.sent_nil hue
    simp only [CombinedPendingTable.reportInitResult, if_pos hinit]
    cases result with
    | false =>
      exact ⟨hi.keys_nodup, hi.short, hi.extended, fun k hk => absurd hk (hnone k),
        (fun k hk => nomatch hk), fun _ => hi.untouched hfresh, hissued,
        fun k _ => ⟨by simp, by simp [hus], by simp [hue]⟩⟩
    | true =>
      have hempty : w.radio = .empty := by
        rcases hwhere with hflight | ⟨success, hb, hok⟩
        · exact absurd hflight (hnone key)
        · exact hok (hi.key_unique hb ha rfl).2
      refine ⟨hi.keys_nodup, ?_, ?_, fun k hk => absurd hk (hnone k), (fun k hk => nomatch hk),
        (fun h => nomatch h), hissued,
        fun k _ => ⟨by simp, by simp [PendingTable.assumeEmpty, PendingTable.wake, hus],
          by simp [PendingTable.assumeEmpty, PendingTable.wake, hue]⟩⟩
      · have hm := mirrors_assumeEmpty hus (w.done shortCommand)
        rw [← hs] at hm
        rw [hempty]
        exact hm
      · have hm := mirrors_assumeEmpty hue (w.done extendedCommand)
        rw [← he] at hm
        rw [hempty]
        exact hm
  · simp only [CombinedPendingTable.reportInitResult, if_neg hinit]
    refine ⟨hi.keys_nodup, hi.short, hi.extended, hi.inits, hi.initializing, hi.untouched, hissued,
      fun k hk => ?_⟩
    rcases List.mem_cons.mp hk with rfl | hk
    · refine ⟨hinit, fun i hu => ?_, fun i hu => ?_⟩
      · cases hi.updating_own shortCommand_key hi.short ha hu
      · cases hi.updating_own extendedCommand_key hi.extended ha hu
    · exact hi.reported k hk

theorem Inv.step {w w' : World} {e : Event} {o : Output} {h : History World Event Output}
    (hi : Inv w) (hfresh : FreshKeys h w e) (hs : step w e = some (w', o)) : Inv w' := by
  cases e with
  | set address inserted =>
    obtain ⟨rfl, -⟩ := Prod.mk.inj (Option.some.inj hs)
    exact hi.set address inserted
  | pollAction cx key => exact hi.pollAction hfresh hs
  | execute success garbage =>
    simp only [PendingMirror.step] at hs
    cases hflight : w.inFlight with
    | nil => simp [hflight] at hs
    | cons a rest =>
      rw [hflight] at hs
      obtain ⟨rfl, -⟩ := Prod.mk.inj (Option.some.inj hs)
      exact hi.execute hflight success garbage
  | reportInitResult key result =>
    simp only [PendingMirror.step] at hs
    split at hs
    · rename_i ha
      obtain ⟨rfl, -⟩ := Prod.mk.inj (Option.some.inj hs)
      exact hi.reportInitResult ha
    · cases hs
  | reportUpdateResult key result =>
    simp only [PendingMirror.step] at hs
    split at hs
    · rename_i hdone
      obtain ⟨rfl, -⟩ := Prod.mk.inj (Option.some.inj hs)
      rcases hdone with hdone | hdone
      · obtain ⟨a, ha, rfl, hf⟩ := done_answer shortCommand_key hdone
        exact hi.reportUpdateResult ha fun k hk => by cases hk; cases hf
      · obtain ⟨a, ha, rfl, hf⟩ := done_answer extendedCommand_key hdone
        exact hi.reportUpdateResult ha fun k hk => by cases hk; cases hf
    · cases hs

theorem inv_of_run {radio : RadioTables} {h : History World Event Output} {w : World}
    (hr : Run step FreshKeys (.start radio) h w) : Inv w := by
  refine Run.invariant (P := fun _ w => Inv w) (inv_start radio) ?_ hr
  intro h w e w' o _ hi hfresh hs
  exact hi.step hfresh hs

theorem waiting_mem_keys {T : Type} {w : World} {t : PendingTable T 8}
    {radio : Fin 8 → Option T}
    {f : CombinedPendingTableAction → Option (WriteBack.Command (Fin 8) (Option T) UniqueKey)}
    (hf : ∀ a c, f a = some c → c.key = a.key) (hm : Mirrors t.view radio (w.sent f) (w.done f))
    {k : UniqueKey} {i : Fin 8} (hu : t.updating = some (k, i)) : k ∈ w.keys := by
  obtain ⟨c, hc, rfl⟩ | ⟨b, hb, -⟩ := hm.waiting k i hu
  · obtain ⟨a, ha, hfa⟩ := List.mem_filterMap.mp hc
    exact List.mem_append_left _ (List.mem_map.mpr ⟨a, ha, (hf a c hfa).symm⟩)
  · obtain ⟨a, ha, rfl, -⟩ := done_answer hf hb
    exact mem_keys_of_answer ha

/-- With nothing outstanding the host waits for nothing. -/
theorem Inv.idle {w : World} (hi : Inv w) (hq : w.Quiet) : w.host.initializing = none ∧
    w.host.short.updating = none ∧ w.host.extended.updating = none := by
  refine ⟨?_, ?_, ?_⟩ <;> by_contra hne <;> obtain ⟨x, hx⟩ := Option.ne_none_iff_exists'.mp hne
  · refine (hi.reported x (hq.2 x ?_)).1 hx
    obtain ⟨-, hflight | ⟨success, ha, -⟩⟩ := hi.initializing x hx
    · simp [hq.1] at hflight
    · exact mem_keys_of_answer ha
  · exact (hi.reported x.1 (hq.2 x.1 (waiting_mem_keys shortCommand_key hi.short hx))).2.1 x.2 hx
  · exact (hi.reported x.1
      (hq.2 x.1 (waiting_mem_keys extendedCommand_key hi.extended hx))).2.2 x.2 hx

theorem UpdatePolled.clean {T : Type} {n : Nat} {t t' : PendingTable T n} {key : UniqueKey}
    (hp : PendingTable.UpdatePolled t key (.pending, t')) (hidle : t'.updating = none) (i : Fin n) :
    t'.view.dirty i = false := by
  cases hp with
  | waits hview _ hclean =>
    rw [hview]
    exact hclean ((congrArg View.updating hview).symm.trans hidle) i

/-- The radio's tables mirror the host's. A slot that is neither dirty nor being updated has the
host's value; when a poll finds nothing to send and nothing is outstanding, every slot has. -/
theorem radio_mirrors_host {radio : RadioTables} {h : History World Event Output} {w : World}
    (hr : Run step FreshKeys (.start radio) h w) :
    (∀ i, (w.host.short.table i).dirty = false → (∀ k, w.host.short.updating ≠ some (k, i)) →
      w.radio.short i = (w.host.short.table i).value) ∧
    (∀ i, (w.host.extended.table i).dirty = false →
      (∀ k, w.host.extended.updating ≠ some (k, i)) →
      w.radio.extended i = (w.host.extended.table i).value) ∧
    ∀ t past, h = t :: past → t.output = some .pending → w.Quiet →
      (∀ i, w.radio.short i = (w.host.short.table i).value) ∧
      ∀ i, w.radio.extended i = (w.host.extended.table i).value := by
  have hi := inv_of_run hr
  refine ⟨hi.short.synced, hi.extended.synced, ?_⟩
  rintro t past rfl ht hq
  obtain ⟨hinit, hus, hue⟩ := hi.idle hq
  cases hr with
  | @next _ v _ e o _ _ hs =>
    obtain rfl : o = some .pending := ht
    cases e with
    | pollAction cx key =>
      have hp := hostPolled v.host cx key
      simp only [step] at hs
      generalize v.host.pollAction cx key = out at hp hs
      cases hp with
      | initializing hwait =>
        obtain ⟨rfl, -⟩ := Prod.mk.inj (Option.some.inj hs)
        rw [show v.host.initializing = none from hinit] at hwait
        cases hwait
      | waits _ _ hshort hextended =>
        obtain ⟨rfl, -⟩ := Prod.mk.inj (Option.some.inj hs)
        exact ⟨congrFun (hi.short.remote_eq hus (UpdatePolled.clean hshort hus)),
          congrFun (hi.extended.remote_eq hue (UpdatePolled.clean hextended hue))⟩
      | _ => cases (Prod.mk.inj (Option.some.inj hs)).2
    | execute success garbage =>
      simp only [step] at hs
      split at hs <;> cases hs
    | reportInitResult key result =>
      simp only [step] at hs
      split at hs <;> cases hs
    | reportUpdateResult key result =>
      simp only [step] at hs
      split at hs <;> cases hs
    | set address inserted => cases hs

def retried : List Event :=
  [.set (some ⟨⟨1⟩, .short ⟨2⟩⟩) true, .pollAction 0 ⟨0⟩, .execute true .empty,
    .reportInitResult ⟨0⟩ true, .pollAction 0 ⟨1⟩, .execute false .empty,
    .reportUpdateResult ⟨1⟩ false, .pollAction 0 ⟨2⟩, .execute true .empty,
    .reportUpdateResult ⟨2⟩ true, .pollAction 0 ⟨3⟩]

def afterRetry : History World Event Output × World :=
  replay step FreshKeys (.start .empty) retried

theorem afterRetry_run : Run step FreshKeys (.start .empty) afterRetry.1 afterRetry.2 :=
  run_replay retried

theorem radio_mirrors_host_retried : afterRetry.2.radio.short 0 = some (⟨1⟩, ⟨2⟩) ∧
    ∀ i, afterRetry.2.radio.short i = (afterRetry.2.host.short.table i).value :=
  ⟨rfl, ((radio_mirrors_host afterRetry_run).2.2 _ _ rfl rfl ⟨rfl, by decide⟩).1⟩

end PendingMirror

end ZigbeeStack
