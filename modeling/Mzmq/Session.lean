import Mzmq.Lib.Consumer
import Mzmq.Conn

/-!
# A session

What a caller of the sans-IO connection does: it feeds the bytes of the peer, feeds again what was not consumed, and after
every feed sends what the connection has to send: READY as soon as the state is `Ready`, WELCOME and READY as soon as it is
`PlainReady`, and a pending PONG. The drivers do the same over a transport.
-/

namespace Mzmq

open Checked Consumer

/-- What a caller sends for a connection; a publish is sent in pieces. -/
inductive Sent where
  | greeting (bytes : List UInt8)
  | ready (bytes : List UInt8)
  | welcome (bytes : List UInt8)
  | pong (bytes : List UInt8)
  | error (bytes : List UInt8)
  | piece (bytes : List UInt8)
  deriving DecidableEq

/-- The bytes that go to the peer. -/
def Sent.bytes : Sent → List UInt8
  | .greeting bs => bs
  | .ready bs => bs
  | .welcome bs => bs
  | .pong bs => bs
  | .error bs => bs
  | .piece bs => bs

/-- A PONG frame. -/
def Sent.asPong : Sent → Option (List UInt8)
  | .pong bs => some bs
  | _ => none

/-- What a session is about: where the connection stands, and what came out. -/
structure Report (τ : Type) where
  state : State
  version : UInt8 × UInt8
  table : τ
  pongs : List (List UInt8)
  error : Option (Fault ConnError)

namespace Conn

variable {τ : Type} {cap : Nat}

/-- Write our greeting into a buffer of 64 bytes. -/
def sendGreeting (c : Conn τ cap) : Outcome (Conn τ cap) Sent ConnError :=
  match c.writeGreeting (List.replicate 64 0) with
  | (c, out, .ok n) => ⟨c, [.greeting (out.take n)], none⟩
  | (c, _, .error f) => ⟨c, [], some f⟩

/-- Write READY into a buffer of 32 bytes. -/
def sendReady (R : Role τ) (c : Conn τ cap) : Outcome (Conn τ cap) Sent ConnError :=
  match c.writeReady R (List.replicate 32 0) with
  | (c, out, .ok n) => ⟨c, [.ready (out.take n)], none⟩
  | (c, _, .error f) => ⟨c, [], some f⟩

/-- Write WELCOME into a buffer of `WELCOME_LEN` bytes. -/
def sendWelcome (c : Conn τ cap) : Outcome (Conn τ cap) Sent ConnError :=
  match c.writeWelcome (List.replicate welcomeFrame.length 0) with
  | (c, out, .ok n) => ⟨c, [.welcome (out.take n)], none⟩
  | (c, _, .error f) => ⟨c, [], some f⟩

/-- Write a pending PONG into a buffer of 23 bytes. -/
def sendPong (c : Conn τ cap) : Outcome (Conn τ cap) Sent ConnError :=
  match c.writePong (List.replicate 23 0) with
  | (c, out, .ok (some n)) => ⟨c, [.pong (out.take n)], none⟩
  | (c, _, .ok none) => ⟨c, [], none⟩
  | (c, _, .error f) => ⟨c, [], some f⟩

/-- Write ERROR into a buffer of 32 bytes. -/
def sendError (c : Conn τ cap) : Outcome (Conn τ cap) Sent ConnError :=
  match writeError (List.replicate 32 0) with
  | (out, .ok n) => ⟨c, [.error (out.take n)], none⟩
  | (_, .error f) => ⟨c, [], some f⟩

/-- What a feed that moved the handshake on calls for, knowing the state before it. -/
def handshakeReply (R : Role τ) (prev : State) (c : Conn τ cap) : Outcome (Conn τ cap) Sent ConnError :=
  if prev ≠ .ready ∧ c.state = .ready then c.sendReady R
  else if prev ≠ .plainReady ∧ c.state = .plainReady then c.sendWelcome.andThen (sendReady R)
  else ⟨c, [], none⟩

/-- What a caller does after a feed. -/
def reply (R : Role τ) (prev c : Conn τ cap) : Outcome (Conn τ cap) Sent ConnError :=
  (handshakeReply R prev.state c).andThen sendPong

/-- The caller of a connection. -/
def session (R : Role τ) (tgt : Target) : Feeder (Conn τ cap) UInt8 Sent ConnError where
  feed := feed R tgt
  after := reply R

/-- What is left of a session. -/
def report (o : Outcome (Conn τ cap) Sent ConnError) : Report τ where
  state := o.state.state
  version := o.state.peerVersion
  table := o.state.table
  pongs := o.out.filterMap Sent.asPong
  error := o.fault

end Conn
end Mzmq
