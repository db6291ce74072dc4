import Mzmq.Lib.FixedVec

/-!
# Subscription table

The bounded table of a SUB peer's subscriptions (`sub_table.rs`), over the fixed-capacity vectors `V` of the library it uses.
-/

namespace Mzmq

inductive SubError where
  | tableFull
  | prefixTooLong
  deriving DecidableEq, Repr

/-- A table of at most `maxEntries` subscriptions of at most `maxPrefixLen` bytes. -/
structure SubTable (V : Type → Nat → Type) (maxEntries maxPrefixLen : Nat) where
  entries : V (V UInt8 maxPrefixLen) maxEntries

namespace SubTable

open FixedVec

variable {V : Type → Nat → Type} [FixedVec V] {maxEntries maxPrefixLen : Nat}

def new : SubTable V maxEntries maxPrefixLen := ⟨empty⟩

/-- Register a subscription. Subscriptions are additive: a second one is stored as a second entry. -/
def subscribe (t : SubTable V maxEntries maxPrefixLen) (p : List UInt8) :
    SubTable V maxEntries maxPrefixLen × Except SubError Unit :=
  if h : p.length > maxPrefixLen then (t, .error .prefixTooLong)
  else
    match push t.entries (ofSlice p (fits_of_not_gt h)) with
    | (entries, true) => (⟨entries⟩, .ok ())
    | (entries, false) => (⟨entries⟩, .error .tableFull)

/-- Remove a subscription; nothing happens when it is not there. -/
def cancel (t : SubTable V maxEntries maxPrefixLen) (p : List UInt8) : SubTable V maxEntries maxPrefixLen :=
  match (asSlice t.entries).findIdx? (fun e => asSlice e = p) with
  | some pos => ⟨swapRemove t.entries pos⟩
  | none => t

/-- Some stored subscription is a leading part of the topic. -/
def matchesTopic (t : SubTable V maxEntries maxPrefixLen) (topic : List UInt8) : Bool :=
  (asSlice t.entries).any fun e => (asSlice e).isPrefixOf topic

/-- The number of stored subscriptions. -/
def len (t : SubTable V maxEntries maxPrefixLen) : Nat := (asSlice t.entries).length

end SubTable
end Mzmq
