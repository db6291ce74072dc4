import Mathlib.Data.Multiset.Count
import Mathlib.Data.Finset.Card
import Mzmq.SubTable
import Mzmq.GroupTable

/-!
# What the tables are for

A subscription table against a multiset of prefixes with a bound on its size, and a group table against a set of groups with
one. Nothing here says how the entries are stored.
-/

namespace Mzmq

/-! ## Subscriptions -/

/-- A call that changes a subscription table. -/
inductive SubCall where
  | subscribe (p : List UInt8)
  | cancel (p : List UInt8)
  deriving DecidableEq, Repr

/-- A multiset of at most `maxEntries` prefixes, none longer than `maxPrefixLen`. -/
def subSpec (maxEntries maxPrefixLen : Nat) (s : Multiset (List UInt8)) : SubCall →
    Multiset (List UInt8) × Except SubError Unit
  | .subscribe p =>
    if maxPrefixLen < p.length then (s, .error .prefixTooLong)
    else if s.card = maxEntries then (s, .error .tableFull)
    else (p ::ₘ s, .ok ())
  | .cancel p => (s.erase p, .ok ())

/-- A call on a table; `cancel` has nothing to report. -/
def SubTable.call {V : Type → Nat → Type} [FixedVec V] {maxEntries maxPrefixLen : Nat}
    (t : SubTable V maxEntries maxPrefixLen) : SubCall → SubTable V maxEntries maxPrefixLen × Except SubError Unit
  | .subscribe p => t.subscribe p
  | .cancel p => (t.cancel p, .ok ())

/-! ## Groups -/

/-- A call that changes a group table. -/
inductive GroupCall where
  | join (g : List UInt8)
  | leave (g : List UInt8)
  deriving DecidableEq, Repr

/-- A set of at most `maxEntries` groups, none longer than `maxGroupLen`. -/
def groupSpec (maxEntries maxGroupLen : Nat) (s : Finset (List UInt8)) : GroupCall →
    Finset (List UInt8) × Except GroupError Unit
  | .join g =>
    if maxGroupLen < g.length then (s, .error .groupTooLong)
    else if g ∈ s then (s, .ok ())
    else if s.card = maxEntries then (s, .error .tableFull)
    else (insert g s, .ok ())
  | .leave g => (s.erase g, .ok ())

/-- A call on a table; `leave` has nothing to report. -/
def GroupTable.call {V : Type → Nat → Type} [FixedVec V] {maxEntries maxGroupLen : Nat}
    (t : GroupTable V maxEntries maxGroupLen) : GroupCall → GroupTable V maxEntries maxGroupLen × Except GroupError Unit
  | .join g => t.join g
  | .leave g => (t.leave g, .ok ())

end Mzmq
