import Mzmq.Lib.Run
import Mzmq.Driver

/-!
# Runs of a driver

A run of a driver is a sequence of polls and publishes, which goes on after every result but a panic. Its trace tells what
the reads of the transport returned, what `feed` reported as consumed, and what was sent. A driver that polls until it comes
to the end of the input, or to an error that is not one of a read, leaves a `Report`.
-/

namespace Mzmq

open Checked Consumer

/-! ## Traces -/

/-- The bytes that the reads returned. -/
def receivedBytes (tr : List IoEvent) : List UInt8 :=
  tr.flatMap fun
    | .received bs => bs
    | _ => []

/-- The bytes that the feeds reported as consumed. -/
def consumedBytes (tr : List IoEvent) : List UInt8 :=
  tr.flatMap fun
    | .consumed bs => bs
    | _ => []

/-- What was sent. -/
def sentIn (tr : List IoEvent) : List Sent :=
  tr.filterMap fun
    | .sent s => some s
    | _ => none

/-- A read has failed. -/
def readFailedIn (tr : List IoEvent) : Bool :=
  tr.any fun
    | .readFailed _ => true
    | _ => false

/-- The transport refused to take `s`. -/
def RefusedIn (tr : List IoEvent) (s : Sent) : Prop := ∃ e, .sendFailed s e ∈ tr

/-- READY and PONG, which a driver sends with consumed bytes still in its buffer. -/
def Sent.isReadyOrPong : Sent → Bool
  | .ready _ => true
  | .pong _ => true
  | _ => false

/-- No READY and no PONG is refused in a trace. -/
def TakesReplies (tr : List IoEvent) : Prop := ∀ s, RefusedIn tr s → s.isReadyOrPong = false

/-- A call of `write_all`, whether or not the transport took all the bytes. -/
def IoEvent.isWrite : IoEvent → Bool
  | .sent _ => true
  | .sendFailed _ _ => true
  | _ => false

/-- A call of `write_all` with an ERROR command. -/
def IoEvent.isError : IoEvent → Bool
  | .sent (.error _) => true
  | .sendFailed (.error _) _ => true
  | _ => false

/-- At every moment, the bytes that were consumed are the first of the bytes that were received: none is consumed twice, and
none is skipped. -/
def ExactlyOnce (tr : List IoEvent) : Prop := ∀ p, p <+: tr → consumedBytes p <+: receivedBytes p

namespace Adapter

variable {τ T : Type} {cap : Nat} [Transport T]

/-- One call in a run. -/
abbrev Call (τ : Type) (cap : Nat) (T : Type) := Run.Event (Adapter τ cap T) Op (List IoEvent × Returned)

/-- `a` is where a run from `a0` is, after the calls `h`. -/
abbrev DriverRun (P : Policy τ) (tgt : Target) (a0 : Adapter τ cap T) (h : List (Call τ cap T)) (a : Adapter τ cap T) : Prop :=
  Run.Runs (step P tgt) halts a0 h a

/-- The trace of a run. -/
def trace (h : List (Call τ cap T)) : List IoEvent := h.flatMap fun ev => ev.res.1

/-- ERROR is written at most once, and nothing is written behind a call that left the connection in `Failed`. -/
def ErrorOnce (h : List (Call τ cap T)) : Prop :=
  (trace h).countP IoEvent.isError ≤ 1 ∧
    ∀ h1 ev h2, h = h1 ++ ev :: h2 → ev.post.conn.state = .failed → ∀ e ∈ trace h2, e.isWrite = false

/-- The bytes of the buffer that are not consumed. -/
def buffered (a : Adapter τ cap T) : List UInt8 := a.rxBuf.toList.take a.rxLen

/-! ## Polling to the end -/

/-- What is left when a driver has come to its end. -/
structure Report (τ : Type) where
  sent : List Sent
  state : State
  table : τ
  error : Fault ConnError

/-- Poll, at most `n` times, until a poll fails otherwise than by an error of a read. -/
def pollUntil (P : Policy τ) (tgt : Target) : Nat → Adapter τ cap T → Option (Outcome (Adapter τ cap T) IoEvent ConnError)
  | 0, _ => none
  | n + 1, a =>
    let p := a.poll P tgt
    let goOn := (pollUntil P tgt n p.1).map fun o => ⟨o.state, p.2.1 ++ o.out, o.fault⟩
    match p.2.2 with
    | .ok _ => goOn
    | .error f => if readFailedIn p.2.1 = true then goOn else some ⟨p.1, p.2.1, some f⟩

/-- Start a driver and poll to the end: the report, if `n` polls are enough. -/
def finalReport (P : Policy τ) (tgt : Target) (n : Nat) (c : Conn τ cap) (t : T) : Option (Report τ) :=
  match start c t with
  | (_, .error _) => none
  | (tr, .ok a) =>
    match pollUntil P tgt n a with
    | some ⟨a, tr', some f⟩ => some ⟨sentIn (tr ++ tr'), a.conn.state, a.conn.table, f⟩
    | _ => none

end Adapter
end Mzmq
