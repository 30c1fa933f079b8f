import ZigbeeStack.PendingTable
import ZigbeeStack.Frame

/-! The two pending tables of the radio, for short and for extended addresses, with the command
that clears both at the start. -/
namespace ZigbeeStack

inductive CombinedPendingTableAction where
  | init (key : UniqueKey)
  | updateShort (key : UniqueKey) (index : Fin 8) (value : Option (PANID × ShortAddress))
  | updateExtended (key : UniqueKey) (index : Fin 8) (value : Option ExtendedAddress)
deriving DecidableEq, Repr

structure CombinedPendingTable where
  waker : WakerStore
  initializing : Option UniqueKey
  isInitialized : Bool
  none : Bool
  short : PendingTable (PANID × ShortAddress) 8
  extended : PendingTable ExtendedAddress 8

namespace CombinedPendingTable

def new : CombinedPendingTable where
  waker := .new
  initializing := Option.none
  isInitialized := false
  none := false
  short := .new 8
  extended := .new 8

def reportInitResult (self : CombinedPendingTable) (key : UniqueKey) (result : Bool) :
    CombinedPendingTable :=
  if self.initializing = some key then
    { self with
      initializing := Option.none
      isInitialized := result
      short := if result then self.short.assumeEmpty else self.short
      extended := if result then self.extended.assumeEmpty else self.extended
      waker := self.waker.wake }
  else self

def set (self : CombinedPendingTable) (address : Option FullAddress) (inserted : Bool) :
    CombinedPendingTable :=
  match address with
  | Option.none => { self with none := inserted }
  | some ⟨panId, .short address⟩ =>
    { self with short := self.short.set (panId, address) inserted }
  | some ⟨_, .extended address⟩ => { self with extended := self.extended.set address inserted }

/-- `key` is the key that `UniqueKey::new` would give; every action takes it. -/
def pollAction (self : CombinedPendingTable) (cx : Waker) (key : UniqueKey) :
    Poll CombinedPendingTableAction × CombinedPendingTable :=
  if self.initializing.isSome then (.pending, { self with waker := self.waker.pend cx })
  else if !self.isInitialized then (.ready (.init key), { self with initializing := some key })
  else match self.short.pollUpdate cx key with
    | (.ready update, short) =>
      (.ready (.updateShort update.key update.index update.value), { self with short := short })
    | (.pending, short) =>
      match self.extended.pollUpdate cx key with
      | (.ready update, extended) =>
        (.ready (.updateExtended update.key update.index update.value),
          { self with short := short, extended := extended })
      | (.pending, extended) => (.pending, { self with short := short, extended := extended })

def reportUpdateResult (self : CombinedPendingTable) (key : UniqueKey) (success : Bool) :
    CombinedPendingTable :=
  { self with
    short := self.short.reportUpdateResult key success
    extended := self.extended.reportUpdateResult key success }

end CombinedPendingTable
end ZigbeeStack
