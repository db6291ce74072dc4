import Mzmq.Conn
import Mzmq.SubTable

/-!
# PUB connection

The connection of `connection.rs`: a table of subscriptions, filled by SUBSCRIBE and CANCEL commands and by the 0x01 and 0x00
messages of ZMTP 3.0.
-/

namespace Mzmq

open Checked

/-- A PUB connection: `subCap` subscriptions of at most `prefixCap` bytes, frame bodies of at most `frameCap` bytes. -/
abbrev Connection (V : Type → Nat → Type) (subCap prefixCap frameCap : Nat) := Conn (SubTable V subCap prefixCap) frameCap

namespace Connection

variable {V : Type → Nat → Type} [FixedVec V] {subCap prefixCap frameCap : Nat}

/-- `b"SUBSCRIBE"` and `b"CANCEL"`. -/
def subscribeName : List UInt8 := [0x53, 0x55, 0x42, 0x53, 0x43, 0x52, 0x49, 0x42, 0x45]
def cancelName : List UInt8 := [0x43, 0x41, 0x4E, 0x43, 0x45, 0x4C]

/-- A ZMTP 3.0 subscription message: 0x01 subscribes, 0x00 cancels, every other message is ignored. -/
def onMessage (t : SubTable V subCap prefixCap) : List UInt8 → SubTable V subCap prefixCap
  | [] => t
  | b :: p => if b = 0x01 then (t.subscribe p).1 else if b = 0x00 then t.cancel p else t

/-- The PUB role. A subscription that does not fit is dropped silently. -/
def role : Role (SubTable V subCap prefixCap) where
  emptyTable := SubTable.new
  readyFrame := readyFrame
  parseReady := parseReadyFrom
  addName := subscribeName
  removeName := cancelName
  add := fun t p => (t.subscribe p).1
  remove := SubTable.cancel
  onMessage := onMessage
  matchesKey := SubTable.matchesTopic

/-- A new NULL connection. -/
def new : Connection V subCap prefixCap frameCap := Conn.new role

/-- A new PLAIN connection. -/
def newPlain (check : List UInt8 → List UInt8 → Bool) : Connection V subCap prefixCap frameCap := Conn.newPlain role check

def writeReady (c : Connection V subCap prefixCap frameCap) (out : List UInt8) :
    Connection V subCap prefixCap frameCap × List UInt8 × Res ConnError Nat :=
  Conn.writeReady role c out

def feed (tgt : Target) (c : Connection V subCap prefixCap frameCap) (input : List UInt8) :
    Connection V subCap prefixCap frameCap × Res ConnError Nat :=
  Conn.feed role tgt c input

def publishHeaders (c : Connection V subCap prefixCap frameCap) (topic payload : List UInt8) :
    Res ConnError (Option PublishHeaders) :=
  Conn.publishHeaders role c topic payload

def publish (tgt : Target) (c : Connection V subCap prefixCap frameCap) (topic payload out : List UInt8) :
    List UInt8 × Res ConnError Nat :=
  Conn.publish role tgt c topic payload out

end Connection
end Mzmq
