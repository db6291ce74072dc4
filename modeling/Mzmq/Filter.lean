import Mathlib.Data.Multiset.Count
import Mathlib.Data.Finset.Card
import Mzmq.Lib.Consumer
import Mzmq.Transcript
import Mzmq.Connection
import Mzmq.RadioConnection

/-!
# What a peer is subscribed to

What the tables are for, independently of how they are stored: the frames of a SUB peer add up to a multiset of prefixes, and
the frames of a DISH peer to a set of groups. No capacity and no order of entries shows here.
-/

namespace Mzmq

open Checked Consumer

/-- What a frame asks of the table. -/
inductive Ask where
  | add (key : List UInt8)
  | remove (key : List UInt8)
  | other
  deriving DecidableEq

/-- The body of a command: its name, with the length in front, and its payload. -/
def commandBody (name payload : List UInt8) : List UInt8 := UInt8.ofNat name.length :: (name ++ payload)

/-- What a command asks, by its name. -/
def commandAsk (addName removeName body : List UInt8) : Ask :=
  if (commandBody addName []).isPrefixOf body then .add (body.drop (1 + addName.length))
  else if (commandBody removeName []).isPrefixOf body then .remove (body.drop (1 + removeName.length))
  else .other

/-- What a frame asks of a PUB connection: SUBSCRIBE and CANCEL, as commands of ZMTP 3.1 or as messages of ZMTP 3.0. -/
def subAsk (f : DecodedFrame) : Ask :=
  if f.isCommand then commandAsk Connection.subscribeName Connection.cancelName f.body
  else
    match f.body with
    | [] => .other
    | b :: p => if b = 0x01 then .add p else if b = 0x00 then .remove p else .other

/-- What a frame asks of a RADIO connection: JOIN and LEAVE commands. -/
def groupAsk (f : DecodedFrame) : Ask :=
  if f.isCommand then commandAsk RadioConnection.joinName RadioConnection.leaveName f.body else .other

/-- One more frame of a SUB peer. -/
def countAsk (s : Multiset (List UInt8)) (f : DecodedFrame) : Multiset (List UInt8) :=
  match subAsk f with
  | .add p => p ::ₘ s
  | .remove p => s.erase p
  | .other => s

/-- The net counts of a SUB peer's prefixes: every SUBSCRIBE adds one, and every CANCEL takes one away if there is one. -/
def netCounts (fs : List DecodedFrame) : Multiset (List UInt8) := fs.foldl countAsk 0

/-- One more frame of a DISH peer. -/
def joinAsk (s : Finset (List UInt8)) (f : DecodedFrame) : Finset (List UInt8) :=
  match groupAsk f with
  | .add g => insert g s
  | .remove g => s.erase g
  | .other => s

/-- The groups that a DISH peer is in. -/
def joined (fs : List DecodedFrame) : Finset (List UInt8) := fs.foldl joinAsk ∅

/-- The 3.0 message that says the same as a SUBSCRIBE or a CANCEL command. -/
inductive Dialect : DecodedFrame → DecodedFrame → Prop where
  | same (f : DecodedFrame) : Dialect f f
  | subscribe (more more' : Bool) (p : List UInt8) :
      Dialect ⟨more, true, commandBody Connection.subscribeName p⟩ ⟨more', false, 0x01 :: p⟩
  | cancel (more more' : Bool) (p : List UInt8) :
      Dialect ⟨more, true, commandBody Connection.cancelName p⟩ ⟨more', false, 0x00 :: p⟩

namespace Conn

variable {τ : Type} {cap : Nat}

/-- A connection that a feed has just moved to `Established`. -/
def JustEstablished (R : Role τ) (tgt : Target) (c : Conn τ cap) : Prop :=
  ∃ c0 h c1 input n, c0.Fresh R ∧ ConnRun R tgt c0 h c1 ∧ (∀ ev ∈ h, ev.res.halts = false) ∧ c1.state ≠ .established ∧
    c1.feed R tgt input = (c, .ok n) ∧ c.state = .established

/-- A caller that feeds the pieces of a stream, and again what was not consumed, and does nothing else. -/
def feeding (R : Role τ) (tgt : Target) : Feeder (Conn τ cap) UInt8 Unit ConnError where
  feed := feed R tgt
  after := fun _ c => ⟨c, [], none⟩

end Conn
end Mzmq
