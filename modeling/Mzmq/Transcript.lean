import Mzmq.Lib.Run
import Mzmq.Conn
import Mzmq.Wire

/-!
# Transcripts of runs

A run of a connection is any sequence of its operations, with any arguments, up to a panic. Its transcript is what the feeds
that returned `Ok` consumed. The grammar of a transcript says what a peer has to send before the connection may trust it: a
greeting, and the frames of the handshake.
-/

namespace Mzmq

open Checked

/-- `c` is where a run of operations from `c0` is, after the steps `h`. -/
abbrev ConnRun {τ : Type} {cap : Nat} (R : Role τ) (tgt : Target) (c0 : Conn τ cap)
    (h : List (Run.Event (Conn τ cap) Conn.Op Conn.OpResult)) (c : Conn τ cap) : Prop :=
  Run.Runs (Conn.apply R tgt) Conn.OpResult.halts c0 h c

variable {τ : Type} {cap : Nat}

/-- A new connection, with either mechanism and any authenticator. -/
def Conn.Fresh (R : Role τ) (c : Conn τ cap) : Prop := c = Conn.new R ∨ ∃ check, c = Conn.newPlain R check

/-- What a step consumed of the peer's bytes. -/
def consumedBy (ev : Run.Event (Conn τ cap) Conn.Op Conn.OpResult) : List UInt8 :=
  match ev.op, ev.res with
  | .feed input, .fed (.ok n) => input.take n
  | _, _ => []

/-- The transcript of a run. -/
def consumed (h : List (Run.Event (Conn τ cap) Conn.Op Conn.OpResult)) : List UInt8 := h.flatMap consumedBy

/-- Which writing operation it is. -/
def Conn.Op.isWriteGreeting : Conn.Op → Bool
  | .writeGreeting _ => true
  | _ => false

def Conn.Op.isWriteReady : Conn.Op → Bool
  | .writeReady _ => true
  | _ => false

def Conn.Op.isWriteWelcome : Conn.Op → Bool
  | .writeWelcome _ => true
  | _ => false

def Conn.Op.isPublish : Conn.Op → Bool
  | .publish _ _ _ => true
  | _ => false

/-- The step succeeded in writing. -/
def wrote (ev : Run.Event (Conn τ cap) Conn.Op Conn.OpResult) : Bool :=
  match ev.res with
  | .wrote _ (.ok _) => true
  | _ => false

/-- Some writing operation of a kind has succeeded in the run. -/
def succeeded (kind : Conn.Op → Bool) (h : List (Run.Event (Conn τ cap) Conn.Op Conn.OpResult)) : Prop :=
  ∃ ev ∈ h, kind ev.op = true ∧ wrote ev = true

/-! ## Outputs -/

/-- What a connection gives its caller to send, ERROR apart. -/
inductive Output where
  | greeting
  | welcome
  | ready
  | pong
  | publish
  deriving DecidableEq, Repr

/-- The output of a step, when it succeeds in writing something. -/
def outputOf (ev : Run.Event (Conn τ cap) Conn.Op Conn.OpResult) : Option Output :=
  match ev.op, ev.res with
  | .writeGreeting _, .wrote _ (.ok _) => some .greeting
  | .writeWelcome _, .wrote _ (.ok _) => some .welcome
  | .writeReady _, .wrote _ (.ok _) => some .ready
  | .writePong _, .pong _ (.ok (some _)) => some .pong
  | .publish _ _ _, .wrote _ (.ok n) => if 0 < n then some .publish else none
  | _, _ => none

/-- The outputs of a run. -/
def outputs (h : List (Run.Event (Conn τ cap) Conn.Op Conn.OpResult)) : List Output := h.filterMap outputOf

/-- What has to be sent before anything else. -/
def handshakeOutputs : Mechanism → List Output
  | .null => [.greeting, .ready]
  | .plain => [.greeting, .welcome, .ready]

/-- The outputs come in order: the first ones of the handshake, or all of them and then PONGs and publishes. -/
def InOrder (m : Mechanism) (os : List Output) : Prop :=
  ∃ tail : List Output, (∀ o ∈ tail, o = .pong ∨ o = .publish) ∧ os <+: handshakeOutputs m ++ tail

/-! ## The grammar -/

/-- A complete greeting that the connection accepts. -/
def AcceptedGreeting (m : Mechanism) (g : List UInt8) : Prop :=
  ∃ buf : List.Vector UInt8 64, buf.toList = g ∧ ∃ pg, Conn.parsePeerGreeting m buf = .ok pg

/-- A READY frame that the connection accepts: a short command. -/
def AcceptedReady (R : Role τ) (tgt : Target) (wire : List UInt8) : Prop :=
  ∃ f, IsWire tgt wire f ∧ f.isCommand = true ∧ f.body.length ≤ 255 ∧
    ∃ t, R.parseReady tgt f.isCommand f.body = .ok t

/-- A HELLO frame that the connection accepts, with credentials that the authenticator accepts. -/
def AcceptedHello (check : List UInt8 → List UInt8 → Bool) (tgt : Target) (wire : List UInt8) : Prop :=
  ∃ f, IsWire tgt wire f ∧ f.isCommand = true ∧
    ∃ u p, parseHelloFrom f.isCommand f.body = .ok (u, p) ∧ check u p = true

/-- The transcript of a NULL handshake: a greeting and a READY, and whatever follows. -/
def NullHandshake (R : Role τ) (tgt : Target) (t : List UInt8) : Prop :=
  ∃ g wire rest, t = g ++ (wire ++ rest) ∧ AcceptedGreeting .null g ∧ AcceptedReady R tgt wire

/-- The transcript of a PLAIN authentication: a greeting and a HELLO, and whatever follows. -/
def PlainAuthenticated (check : List UInt8 → List UInt8 → Bool) (tgt : Target) (t : List UInt8) : Prop :=
  ∃ g wire rest, t = g ++ (wire ++ rest) ∧ AcceptedGreeting .plain g ∧ AcceptedHello check tgt wire

end Mzmq
