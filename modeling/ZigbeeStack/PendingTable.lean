import ZigbeeStack.Runtime
import Mathlib.Algebra.GroupWithZero.Nat
import Mathlib.Data.Finset.Insert
import Mathlib.Data.Finset.Erase
import Mathlib.Data.List.FinRange
import Mathlib.Logic.Function.Basic
import Mathlib.Tactic.Common

/-! The pending table: the addresses that have data waiting, and the slots of the radio's table
that announce some of them. When the slots run out, the one at the front of the order goes. -/
namespace ZigbeeStack

structure PendingTableEntry (T : Type) where
  dirty : Bool
  value : Option T
deriving DecidableEq, Repr

namespace PendingTableEntry

def default {T : Type} : PendingTableEntry T := ⟨true, none⟩
def new {T : Type} (value : T) : PendingTableEntry T := ⟨true, some value⟩

end PendingTableEntry

/-- A table of `n` slots. The order lists every slot once, the first to be overwritten in front. -/
structure PendingTable (T : Type) (n : Nat) where
  values : Finset T
  table : Fin n → PendingTableEntry T
  order : List (Fin n)
  updating : Option (UniqueKey × Fin n)
  waker : WakerStore
  order_perm : order.Perm (List.finRange n)

structure PendingTableUpdate (T : Type) (n : Nat) where
  key : UniqueKey
  index : Fin n
  value : Option T
deriving DecidableEq, Repr

namespace PendingTable
variable {T : Type} {n : Nat}

def new (n : Nat) : PendingTable T n where
  values := ∅
  table := fun _ => .default
  order := List.finRange n
  updating := none
  waker := .new
  order_perm := .refl _

theorem order_nodup (self : PendingTable T n) : self.order.Nodup :=
  self.order_perm.nodup_iff.mpr (List.nodup_finRange n)

theorem mem_order (self : PendingTable T n) (i : Fin n) : i ∈ self.order :=
  self.order_perm.mem_iff.mpr (List.mem_finRange i)

theorem order_ne_nil [NeZero n] (self : PendingTable T n) : self.order ≠ [] :=
  List.ne_nil_of_mem (self.mem_order 0)

def wake (self : PendingTable T n) : PendingTable T n := { self with waker := self.waker.wake }

def assumeEmpty (self : PendingTable T n) : PendingTable T n :=
  { self with
    table := fun i => { self.table i with dirty := (self.table i).value.isSome } }.wake

theorem order_split (self : PendingTable T n) (i : Fin n) :
    (i :: self.order.filter (· ≠ i)).Perm (List.finRange n) := by
  have hfilter : self.order.filter (· ≠ i) = self.order.erase i := by
    rw [self.order_nodup.erase_eq_filter i]
    exact List.filter_congr fun j _ => by rw [Bool.eq_iff_iff]; simp
  rw [hfilter]
  exact (List.perm_cons_erase (self.mem_order i)).symm.trans self.order_perm

def promoteIndex (self : PendingTable T n) (index : Fin n) : PendingTable T n :=
  { self with
    order := self.order.filter (· ≠ index) ++ [index]
    order_perm := (List.perm_append_singleton _ _).trans (self.order_split index) }

def demoteIndex (self : PendingTable T n) (index : Fin n) : PendingTable T n :=
  { self with
    order := index :: self.order.filter (· ≠ index)
    order_perm := self.order_split index }

def nextIndex [NeZero n] (self : PendingTable T n) : Fin n := self.order.head self.order_ne_nil

/- Writes a slot and wakes the poller, unless a result will do that. -/
def setEntry (self : PendingTable T n) (index : Fin n) (entry : PendingTableEntry T) :
    PendingTable T n :=
  { self with
    table := Function.update self.table index entry
    waker := if self.updating.isNone then self.waker.wake else self.waker }

variable [DecidableEq T]

def getIndex (self : PendingTable T n) (value : T) : Option (Fin n) :=
  (List.finRange n).find? fun index => (self.table index).value = some value

def promote [NeZero n] (self : PendingTable T n) (value : T) : Bool × PendingTable T n :=
  if value ∈ self.values then
    match self.getIndex value with
    | some currentIndex => (true, self.promoteIndex currentIndex)
    | none =>
      (true, (self.setEntry self.nextIndex (.new value)).promoteIndex self.nextIndex)
  else (false, self)

def insert [NeZero n] (self : PendingTable T n) (value : T) : Bool × PendingTable T n :=
  let inserted := value ∉ self.values
  let (_, self) := { self with values := Insert.insert value self.values }.promote value
  (inserted, self)

def remove (self : PendingTable T n) (value : T) : Bool × PendingTable T n :=
  if value ∈ self.values then
    let self := { self with values := self.values.erase value }
    match self.getIndex value with
    | some index => (true, (self.setEntry index .default).demoteIndex index)
    | none => (true, self)
  else (false, self)

def set [NeZero n] (self : PendingTable T n) (value : T) (inserted : Bool) : PendingTable T n :=
  if inserted then (self.insert value).2 else (self.remove value).2

omit [DecidableEq T] in
def reportUpdateResult (self : PendingTable T n) (token : UniqueKey) (result : Bool) :
    PendingTable T n :=
  match self.updating with
  | some (currentToken, index) =>
    if token = currentToken then
      let self := { self with updating := none }
      if result then self.wake
      else { self with
        table := Function.update self.table index { self.table index with dirty := true } }.wake
    else self
  | none => self

def firstDirty (self : PendingTable T n) : Option (Fin n) :=
  (List.finRange n).find? fun index => (self.table index).dirty

def pollUpdate (self : PendingTable T n) (cx : Waker) (key : UniqueKey) :
    Poll (PendingTableUpdate T n) × PendingTable T n :=
  match self.updating, self.firstDirty with
  | none, some index =>
    (.ready ⟨key, index, (self.table index).value⟩,
      { self with
        table := Function.update self.table index { self.table index with dirty := false }
        updating := some (key, index) })
  | _, _ => (.pending, { self with waker := self.waker.register cx })

end PendingTable
end ZigbeeStack
