import Mzmq.Conn
import Mzmq.GroupTable

/-!
# RADIO connection

The connection of `radio_connection.rs`: a table of groups, filled by JOIN and LEAVE commands.
-/

namespace Mzmq

open Checked

/-- A RADIO connection: `groupCap` groups of at most `groupLenCap` bytes, frame bodies of at most `frameCap` bytes. -/
abbrev RadioConnection (V : Type → Nat → Type) (groupCap groupLenCap frameCap : Nat) :=
  Conn (GroupTable V groupCap groupLenCap) frameCap

namespace RadioConnection

variable {V : Type → Nat → Type} [FixedVec V] {groupCap groupLenCap frameCap : Nat}

/-- `b"JOIN"` and `b"LEAVE"`. -/
def joinName : List UInt8 := [0x4A, 0x4F, 0x49, 0x4E]
def leaveName : List UInt8 := [0x4C, 0x45, 0x41, 0x56, 0x45]

/-- The RADIO role. A group that does not fit is dropped silently, and message frames mean nothing. -/
def role : Role (GroupTable V groupCap groupLenCap) where
  emptyTable := GroupTable.new
  readyFrame := radioReadyFrame
  parseReady := parseReadyRadioFrom
  addName := joinName
  removeName := leaveName
  add := fun t g => (t.join g).1
  remove := GroupTable.leave
  onMessage := fun t _ => t
  matchesKey := GroupTable.matchesGroup

/-- A new NULL connection. -/
def new : RadioConnection V groupCap groupLenCap frameCap := Conn.new role

/-- A new PLAIN connection. -/
def newPlain (check : List UInt8 → List UInt8 → Bool) : RadioConnection V groupCap groupLenCap frameCap :=
  Conn.newPlain role check

def writeReady (c : RadioConnection V groupCap groupLenCap frameCap) (out : List UInt8) :
    RadioConnection V groupCap groupLenCap frameCap × List UInt8 × Res ConnError Nat :=
  Conn.writeReady role c out

def feed (tgt : Target) (c : RadioConnection V groupCap groupLenCap frameCap) (input : List UInt8) :
    RadioConnection V groupCap groupLenCap frameCap × Res ConnError Nat :=
  Conn.feed role tgt c input

def publishHeaders (c : RadioConnection V groupCap groupLenCap frameCap) (group body : List UInt8) :
    Res ConnError (Option PublishHeaders) :=
  Conn.publishHeaders role c group body

def publish (tgt : Target) (c : RadioConnection V groupCap groupLenCap frameCap) (group body out : List UInt8) :
    List UInt8 × Res ConnError Nat :=
  Conn.publish role tgt c group body out

end RadioConnection
end Mzmq
