import Mzmq.Lib.FixedVec

/-!
# Group table

The bounded table of the groups a DISH peer has joined (`group_table.rs`), over the fixed-capacity vectors `V` of the library
it uses.
-/

namespace Mzmq

inductive GroupError where
  | tableFull
  | groupTooLong
  deriving DecidableEq, Repr

/-- A table of at most `maxEntries` groups of at most `maxGroupLen` bytes. -/
structure GroupTable (V : Type → Nat → Type) (maxEntries maxGroupLen : Nat) where
  entries : V (V UInt8 maxGroupLen) maxEntries

namespace GroupTable

open FixedVec

variable {V : Type → Nat → Type} [FixedVec V] {maxEntries maxGroupLen : Nat}

def new : GroupTable V maxEntries maxGroupLen := ⟨empty⟩

/-- Register a group; nothing happens when it is already there. -/
def join (t : GroupTable V maxEntries maxGroupLen) (group : List UInt8) :
    GroupTable V maxEntries maxGroupLen × Except GroupError Unit :=
  if h : group.length > maxGroupLen then (t, .error .groupTooLong)
  else if (asSlice t.entries).any (fun e => asSlice e = group) then (t, .ok ())
  else
    match push t.entries (ofSlice group (fits_of_not_gt h)) with
    | (entries, true) => (⟨entries⟩, .ok ())
    | (entries, false) => (⟨entries⟩, .error .tableFull)

/-- Remove a group; nothing happens when it is not there. -/
def leave (t : GroupTable V maxEntries maxGroupLen) (group : List UInt8) : GroupTable V maxEntries maxGroupLen :=
  match (asSlice t.entries).findIdx? (fun e => asSlice e = group) with
  | some pos => ⟨swapRemove t.entries pos⟩
  | none => t

/-- The group is stored. -/
def matchesGroup (t : GroupTable V maxEntries maxGroupLen) (group : List UInt8) : Bool :=
  (asSlice t.entries).any fun e => asSlice e = group

/-- The number of stored groups. -/
def len (t : GroupTable V maxEntries maxGroupLen) : Nat := (asSlice t.entries).length

end GroupTable
end Mzmq
