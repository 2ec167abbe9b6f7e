import Pontus.Lib.Bytes
import Pontus.Lib.Index

/-!
# The result cache's store

`Manager` keeps replies under their keys, each with the tables it was read
from, and an index from tables to keys so that a write can evict what it makes
stale.  What is stored is left open.  Go walks a map in an order of its own:
where the outcome depends on it, the order is an argument.
-/

namespace Pontus.Cache

open Lib

variable {V : Type}

abbrev Time := Int

structure Item (V : Type) where
  value : V
  expiration : Time
  staleUntil : Time
  tables : List Bytes
  deriving DecidableEq

structure Manager (V : Type) where
  items : AList fun _ : Bytes => Item V
  tables : Index Bytes Bytes
  maxSize : Nat

def defaultMaxSize : Nat := 10000

def newManagerWithSize (maxSize : Int) : Manager V :=
  ⟨∅, ∅, if maxSize ≤ 0 then defaultMaxSize else maxSize.toNat⟩

namespace Manager

def get (m : Manager V) (key : Bytes) (now : Time) : Option (V × Bool) :=
  match m.items.lookup key with
  | none => none
  | some item =>
    if item.expiration < now then if now < item.staleUntil then some (item.value, true) else none
    else some (item.value, false)

def unindex (m : Manager V) (key : Bytes) (tables : List Bytes) : Manager V :=
  { m with tables := m.tables.drop key tables }

def remove (m : Manager V) (key : Bytes) : Manager V :=
  match m.items.lookup key with
  | none => m
  | some item => { m.unindex key item.tables with items := m.items.erase key }

def isPast (m : Manager V) (now : Time) (key : Bytes) : Bool :=
  (m.items.lookup key).any fun item => decide (item.staleUntil < now)

/-- The entry closest to expiry, the first of several in the order of the
walk. -/
def oldest (m : Manager V) (order : List Bytes) : Option (Bytes × Time) :=
  order.foldl (fun oldest key =>
    match m.items.lookup key, oldest with
    | none, oldest => oldest
    | some item, none => some (key, item.expiration)
    | some item, some (oldestKey, expiration) =>
      if item.expiration < expiration then some (key, item.expiration)
      else some (oldestKey, expiration)) none

/-- Make room for one entry; `scan` and `rank` are the orders of the two
walks. -/
def evictLocked (m : Manager V) (now : Time) (scan rank : List Bytes) : Manager V :=
  match scan.find? (m.isPast now) with
  | some key => m.remove key
  | none =>
    match m.oldest rank with
    | none => m
    | some (key, _) => if key = [] then m else m.remove key

def unindexOld (m : Manager V) (key : Bytes) : Manager V :=
  match m.items.lookup key with
  | some old => m.unindex key old.tables
  | none => m

def makeRoom (m : Manager V) (now : Time) (scan rank : List Bytes) : Manager V :=
  if m.maxSize ≤ m.items.keys.length then m.evictLocked now scan rank else m

def set (m : Manager V) (key : Bytes) (value : V) (ttl : Time) (tables : List Bytes) (now : Time)
    (scan rank : List Bytes) : Manager V :=
  let m := (m.unindexOld key).makeRoom now scan rank
  { m with
    items := m.items.insert key ⟨value, now + ttl, now + ttl * 2, tables⟩
    tables := m.tables.add key tables }

def invalidateTable (m : Manager V) (table : Bytes) : Manager V :=
  match m.tables.lookup table with
  | none => m
  | some keys =>
    let m := keys.foldl remove m
    { m with tables := m.tables.erase table }

def invalidate (m : Manager V) (tables : List Bytes) : Manager V := tables.foldl invalidateTable m

def cleanup (m : Manager V) (now : Time) : Manager V :=
  m.items.keys.foldl (fun m key => if m.isPast now key then m.remove key else m) m

end Manager

inductive Reached : Manager V → Prop
  | new (maxSize : Int) : Reached (newManagerWithSize maxSize)
  | set {m : Manager V} (h : Reached m) (key : Bytes) (value : V) (ttl : Time)
      (tables : List Bytes) (now : Time) (scan rank : List Bytes) :
      Reached (m.set key value ttl tables now scan rank)
  | invalidate {m : Manager V} (h : Reached m) (tables : List Bytes) : Reached (m.invalidate tables)
  | cleanup {m : Manager V} (h : Reached m) (now : Time) : Reached (m.cleanup now)

inductive CacheAction (V : Type)
  | set (key : Bytes) (value : V) (ttl : Time) (tables : List Bytes) (now : Time)
      (scan rank : List Bytes)
  | invalidate (tables : List Bytes)
  | cleanup (now : Time)
  | evict (now : Time) (scan rank : List Bytes)

def CacheAction.key : CacheAction V → Option Bytes
  | .set key _ _ _ _ _ _ => some key
  | _ => none

def Manager.Walks (m : Manager V) (order : List Bytes) : Prop := order.Perm m.items.keys

instance (m : Manager V) (order : List Bytes) : Decidable (m.Walks order) :=
  inferInstanceAs (Decidable (order.Perm m.items.keys))

def Manager.step (m : Manager V) : CacheAction V → Option (Manager V)
  | .set key value ttl tables now scan rank =>
    if m.Walks scan ∧ m.Walks rank then some (m.set key value ttl tables now scan rank) else none
  | .invalidate tables => some (m.invalidate tables)
  | .cleanup now => some (m.cleanup now)
  | .evict now scan rank =>
    if m.Walks scan ∧ m.Walks rank then some (m.evictLocked now scan rank) else none

end Pontus.Cache
