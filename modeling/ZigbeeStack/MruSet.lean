import ZigbeeStack.Collections
import ZigbeeStack.Runtime
import Mathlib.Data.Finset.Card

/-! A set whose most recently inserted entries have slots: `new` slots are free, an insertion takes
a free slot or the one of the oldest entry that has one, a removal gives its slot to the newest
entry that has none. -/
namespace ZigbeeStack

structure MRUSet (T : Type) where
  entries : Finset T
  assignedSlots : HashMap.Map T Nat
  linkNewer : HashMap.Map T T
  linkOlder : HashMap.Map T T
  newest : Option T
  oldestSlotted : Option T
  freeSlots : List Nat

inductive MRUSetAction (T : Type) where
  | none
  | clearSlot (slot : Nat)
  | setSlot (slot : Nat) (item : T)
deriving DecidableEq, Repr

def assert (condition : Bool) : Except Panic Unit :=
  if condition then .ok () else .error .explicit

def insertOrRemove {κ ν : Type} [DecidableEq κ] (self : HashMap.Map κ ν) (key : κ)
    (value : Option ν) : Option ν × HashMap.Map κ ν :=
  match value with
  | some value => (HashMap.get self key, HashMap.set self key value)
  | none => (HashMap.get self key, HashMap.remove self key)

namespace MRUSet
variable {T : Type}

def new (numSlots : Nat) : Except Panic (MRUSet T) := do
  assert (numSlots != 0)
  return {
    entries := ∅
    assignedSlots := ∅
    linkNewer := ∅
    linkOlder := ∅
    newest := none
    oldestSlotted := none
    freeSlots := List.range numSlots }

variable [DecidableEq T]

def contains (self : MRUSet T) (item : T) : Bool := item ∈ self.entries

def relink (links : HashMap.Map T T) (item : T) (neighbour target : Option T) :
    Except Panic (HashMap.Map T T) :=
  match neighbour with
  | some neighbour => do
    let (previous, links) := insertOrRemove links neighbour target
    assert (previous = some item)
    return links
  | none => .ok links

def unlink (self : MRUSet T) (item : T) : Except Panic (MRUSet T) := do
  let newer := HashMap.get self.linkNewer item
  let older := HashMap.get self.linkOlder item
  let linkOlder ← relink (HashMap.remove self.linkOlder item) item newer older
  let linkNewer ← relink (HashMap.remove self.linkNewer item) item older newer
  return { self with
    linkNewer, linkOlder
    newest := if self.newest = some item then older else self.newest
    oldestSlotted := if self.oldestSlotted = some item then newer else self.oldestSlotted }

def linkTo (links : HashMap.Map T T) (source : Option T) (item : T) :
    Except Panic (HashMap.Map T T) :=
  match source with
  | some source => do
    assert (HashMap.get links source).isNone
    return HashMap.set links source item
  | none => .ok links

def linkAsNewest (self : MRUSet T) (item : T) : Except Panic (MRUSet T) := do
  let secondNewest := self.newest
  let linkNewer ← linkTo self.linkNewer secondNewest item
  let (previous, linkOlder) := insertOrRemove self.linkOlder item secondNewest
  assert previous.isNone
  return { self with
    linkNewer, linkOlder
    newest := some item
    oldestSlotted := if self.oldestSlotted = none then some item else self.oldestSlotted }

def takeOldestSlot (self : MRUSet T) : Option Nat × MRUSet T :=
  match self.freeSlots with
  | slot :: freeSlots => (some slot, { self with freeSlots := freeSlots })
  | [] =>
    match self.oldestSlotted with
    | none => (none, self)
    | some oldestSlotted =>
      (HashMap.get self.assignedSlots oldestSlotted,
        { self with
          oldestSlotted := HashMap.get self.linkNewer oldestSlotted
          assignedSlots := HashMap.remove self.assignedSlots oldestSlotted })

def hasSlot (self : MRUSet T) (item : T) : Option Nat := HashMap.get self.assignedSlots item

def insert (self : MRUSet T) (item : T) : Except Panic (MRUSetAction T × MRUSet T) :=
  if self.newest = some item then .ok (.none, self)
  else do
    let self := { self with entries := Insert.insert item self.entries }
    let self ← self.unlink item
    let (action, slot, self) ← match HashMap.get self.assignedSlots item with
      | some assignedSlot =>
        .ok (.none, assignedSlot,
          { self with assignedSlots := HashMap.remove self.assignedSlots item })
      | none =>
        match self.takeOldestSlot with
        | (some slot, self) => .ok (.setSlot slot item, slot, self)
        | (none, _) => .error .unwrap
    let self := { self with assignedSlots := HashMap.set self.assignedSlots item slot }
    let self ← self.linkAsNewest item
    return (action, self)

def reassignSlot (self : MRUSet T) (slot : Nat) : Option T × MRUSet T :=
  match self.oldestSlotted.bind fun item => HashMap.get self.linkOlder item with
  | some nextInLine =>
    (some nextInLine,
      { self with
        assignedSlots := HashMap.set self.assignedSlots nextInLine slot
        oldestSlotted := some nextInLine })
  | none => (none, { self with freeSlots := self.freeSlots ++ [slot] })

def remove (self : MRUSet T) (item : T) : Except Panic (MRUSetAction T × MRUSet T) := do
  let self ← self.unlink item
  let self := { self with entries := self.entries.erase item }
  match HashMap.get self.assignedSlots item with
  | some slot =>
    let self := { self with assignedSlots := HashMap.remove self.assignedSlots item }
    match self.reassignSlot slot with
    | (some newItem, self) => return (.setSlot slot newItem, self)
    | (none, self) => return (.clearSlot slot, self)
  | none => return (.none, self)

def len (self : MRUSet T) : Nat := self.entries.card

end MRUSet
end ZigbeeStack
