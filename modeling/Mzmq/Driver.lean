import Mzmq.Connection
import Mzmq.RadioConnection
import Mzmq.Session
import Mzmq.Transport

/-!
# The drivers

The blocking and the async adapters (`io/sync.rs`, `io/async.rs`) hold a connection, a transport and a receive buffer of 512
bytes. A poll reads from the transport, drains the buffer into the connection, and writes what the connection has to send.
All of them run one loop (`Adapter`); what they do differently is a `Policy`. The async driver of a PUB connection is the
blocking one; the async driver of a RADIO connection has a policy of its own.

A call gives the trace of what happened at the transport and at `feed`, in order (`IoEvent`).
-/

namespace Mzmq

open Checked Consumer

/-- What happens at the transport and at `feed`. A read that returns no bytes has come to the end of the input. -/
inductive IoEvent where
  | received (bs : List UInt8)
  | readFailed (kind : Nat)
  | consumed (bs : List UInt8)
  | sent (s : Sent)
  | sendFailed (s : Sent) (e : WriteError)
  deriving DecidableEq

/-- What a driver sends when a feed has moved the handshake on: READY, or WELCOME and READY. -/
inductive Move where
  | ready
  | welcome
  deriving DecidableEq

/-- What the drivers do differently. -/
structure Policy (τ : Type) where
  role : Role τ
  /-- What to send after a feed, by the states before and after it. -/
  move : State → State → Option Move
  /-- Does a poll always return when it has drained buffered bytes, or only when it has consumed some? -/
  eager : Bool

/-- A driver of a connection with table type `τ` and frame capacity `cap`, over a transport `T`. -/
structure Adapter (τ : Type) (cap : Nat) (T : Type) where
  conn : Conn τ cap
  transport : T
  rxBuf : List.Vector UInt8 512
  rxLen : Nat

namespace Adapter

variable {τ T : Type} {cap : Nat} [Transport T]

/-! ## Writing -/

/-- `transport.write_all`, with the error mapped to `IoError`. -/
def write (a : Adapter τ cap T) (s : Sent) : Outcome (Adapter τ cap T) IoEvent ConnError :=
  match Transport.writeAll a.transport s.bytes with
  | (t, .ok ()) => ⟨{ a with transport := t }, [.sent s], none⟩
  | (t, .error e) => ⟨{ a with transport := t }, [.sendFailed s e], some (.err (.ioError e.kind))⟩

/-- Write one thing after the other. -/
def writeEach (a : Adapter τ cap T) : List Sent → Outcome (Adapter τ cap T) IoEvent ConnError
  | [] => ⟨a, [], none⟩
  | s :: ss => (a.write s).andThen fun a => a.writeEach ss

/-- Call a writing operation of the connection, and write what it gives. -/
def send (a : Adapter τ cap T) (op : Conn τ cap → Outcome (Conn τ cap) Sent ConnError) :
    Outcome (Adapter τ cap T) IoEvent ConnError :=
  match (op a.conn).fault with
  | some f => ⟨{ a with conn := (op a.conn).state }, [], some f⟩
  | none => writeEach { a with conn := (op a.conn).state } (op a.conn).out

/-- Send what a move of the handshake calls for. -/
def sendMove (R : Role τ) (a : Adapter τ cap T) : Move → Outcome (Adapter τ cap T) IoEvent ConnError
  | .ready => a.send (Conn.sendReady R)
  | .welcome => (a.send Conn.sendWelcome).andThen fun a => a.send (Conn.sendReady R)

/-! ## Draining the buffer -/

/-- `copy_within(total..rx_len, 0)`, and `rx_len -= total`. -/
def compact (a : Adapter τ cap T) (total : Nat) : Outcome (Adapter τ cap T) IoEvent ConnError :=
  if total > 0 then
    match slice a.rxBuf.toList total a.rxLen with
    | .error f => ⟨a, [], some f⟩
    | .ok left =>
      match copyInto a.rxBuf 0 left with
      | .error f => ⟨a, [], some f⟩
      | .ok buf => ⟨{ a with rxBuf := buf, rxLen := a.rxLen - total }, [], none⟩
  else ⟨a, [], none⟩

/-- What `drain_buffer` does when a feed failed: it sends ERROR if the connection has failed, whether or not the transport
takes it, and returns the error of the feed. -/
def feedFailed (a : Adapter τ cap T) (f : Fault ConnError) : Outcome (Adapter τ cap T) IoEvent ConnError :=
  if f.aborts = false ∧ a.conn.state = .failed then
    ⟨(a.send Conn.sendError).state, (a.send Conn.sendError).out, some f⟩
  else ⟨a, [], some f⟩

/-- The loop of `drain_buffer`: `total` bytes of the buffer are consumed. A move of the handshake ends it, and so does a feed
that consumes nothing; every return of an error skips the compaction. -/
def drainLoop (P : Policy τ) (tgt : Target) : Nat → Adapter τ cap T → Nat → Outcome (Adapter τ cap T) IoEvent ConnError
  | 0, a, _ => ⟨a, [], some .hang⟩
  | fuel + 1, a, total =>
    if total < a.rxLen then
      match slice a.rxBuf.toList total a.rxLen with
      | .error f => ⟨a, [], some f⟩
      | .ok input =>
        match a.conn.feed P.role tgt input with
        | (c, .error f) => feedFailed { a with conn := c } f
        | (c, .ok n) =>
          Outcome.andThen ⟨{ a with conn := c }, [.consumed (input.take n)], none⟩ fun a' =>
            match P.move a.conn.state c.state with
            | some m => (a'.sendMove P.role m).andThen fun a => a.compact (total + n)
            | none =>
              (a'.send Conn.sendPong).andThen fun a =>
                if n = 0 then a.compact (total + n) else drainLoop P tgt fuel a (total + n)
    else a.compact total

/-- Feed the buffer to the connection and move what is left of it to the front. -/
def drainBuffer (P : Policy τ) (tgt : Target) (a : Adapter τ cap T) : Outcome (Adapter τ cap T) IoEvent ConnError :=
  drainLoop P tgt (a.rxLen + 1) a 0

/-! ## Polling -/

/-- Read from the transport behind what is buffered, and drain the buffer. -/
def readMore (P : Policy τ) (tgt : Target) (a : Adapter τ cap T) : Outcome (Adapter τ cap T) IoEvent ConnError :=
  if a.rxLen ≤ 512 then
    match Transport.read a.transport (512 - a.rxLen) with
    | (t, .error kind) => ⟨{ a with transport := t }, [.readFailed kind], some (.err (.ioError kind))⟩
    | (t, .ok []) => ⟨{ a with transport := t }, [.received []], some (.err (.ioError 0))⟩
    | (t, .ok bs) =>
      match copyInto a.rxBuf a.rxLen bs with
      | .error f => ⟨{ a with transport := t }, [.received bs], some f⟩
      | .ok buf =>
        Outcome.andThen ⟨{ a with transport := t, rxBuf := buf, rxLen := a.rxLen + bs.length }, [.received bs], none⟩
          (drainBuffer P tgt)
  else ⟨a, [], some .panic⟩

/-- `poll` behind its first block: drain what is buffered, and read when that consumed nothing. -/
def pollBuffer (P : Policy τ) (tgt : Target) (a : Adapter τ cap T) : Outcome (Adapter τ cap T) IoEvent ConnError :=
  if a.rxLen > 0 then
    (drainBuffer P tgt a).andThen fun a' =>
      if P.eager = true ∨ a'.rxLen < a.rxLen then ⟨a', [], none⟩ else readMore P tgt a'
  else readMore P tgt a

/-- The trace of a poll, and what it returns. -/
abbrev Polled := List IoEvent × Res ConnError Bool

/-- Return a value behind an outcome. -/
def returning (o : Outcome (Adapter τ cap T) IoEvent ConnError) (value : Adapter τ cap T → Bool) :
    Adapter τ cap T × Polled :=
  match o.fault with
  | some f => (o.state, o.out, .error f)
  | none => (o.state, o.out, .ok (value o.state))

/-- Is the connection established? -/
def established (a : Adapter τ cap T) : Bool := a.conn.state == .established

/-- Drive the connection one step. In the `Ready` state READY goes out first, if it was not sent before. -/
def poll (P : Policy τ) (tgt : Target) (a : Adapter τ cap T) : Adapter τ cap T × Polled :=
  if a.conn.state = .ready then
    match (a.conn.sendReady P.role).fault with
    | none =>
      returning (writeEach { a with conn := (a.conn.sendReady P.role).state } (a.conn.sendReady P.role).out) fun _ => false
    | some (.err .wrongState) =>
      returning (pollBuffer P tgt { a with conn := (a.conn.sendReady P.role).state }) established
    | some f => ({ a with conn := (a.conn.sendReady P.role).state }, [], .error f)
  else returning (pollBuffer P tgt a) established

/-- A new driver of a connection sends our greeting first. -/
def start (c : Conn τ cap) (t : T) : List IoEvent × Res ConnError (Adapter τ cap T) :=
  let o := send ⟨c, t, List.Vector.replicate 512 0, 0⟩ Conn.sendGreeting
  match o.fault with
  | some f => (o.out, .error f)
  | none => (o.out, .ok o.state)

/-! ## Publishing -/

/-- Publish a message: two headers and two bodies, written one after the other. It returns 0 if the table does not match. -/
def publish (P : Policy τ) (tgt : Target) (a : Adapter τ cap T) (topic payload : List UInt8) :
    Adapter τ cap T × List IoEvent × Res ConnError Nat :=
  match a.conn.publishHeaders P.role topic payload with
  | .error f => (a, [], .error f)
  | .ok none => (a, [], .ok 0)
  | .ok (some (th, thN, ph, phN)) =>
    let o := a.writeEach [.piece (th.take thN), .piece topic, .piece (ph.take phN), .piece payload]
    match o.fault with
    | some f => (o.state, o.out, .error f)
    | none =>
      (o.state, o.out, do
        let n ← tgt.add thN topic.length
        let n ← tgt.add n phN
        tgt.add n payload.length)

/-! ## Steps -/

/-- What a caller does with a driver. -/
inductive Op where
  | poll
  | publish (topic payload : List UInt8)
  deriving DecidableEq

/-- What a call returns. -/
inductive Returned where
  | polled (r : Res ConnError Bool)
  | published (r : Res ConnError Nat)

/-- The fault a call ended with. -/
def Returned.fault : Returned → Option (Fault ConnError)
  | .polled (.error f) => some f
  | .published (.error f) => some f
  | _ => none

/-- One call as the step of a machine: its trace, and what it returns. -/
def step (P : Policy τ) (tgt : Target) (a : Adapter τ cap T) : Op → Adapter τ cap T × List IoEvent × Returned
  | .poll => let p := a.poll P tgt; (p.1, p.2.1, .polled p.2.2)
  | .publish topic payload => let p := a.publish P tgt topic payload; (p.1, p.2.1, .published p.2.2)

/-- A call that panics ends the process. -/
def halts (r : List IoEvent × Returned) : Bool :=
  match r.2.fault with
  | some f => f.aborts
  | none => false

end Adapter

/-! ## The drivers of the two connections -/

/-- A driver of a PUB connection, blocking or async. -/
abbrev Driver (V : Type → Nat → Type) (subCap prefixCap frameCap : Nat) (T : Type) :=
  Adapter (SubTable V subCap prefixCap) frameCap T

namespace Driver

variable {V : Type → Nat → Type} [FixedVec V] {subCap prefixCap frameCap : Nat} {T : Type} [Transport T]

/-- READY follows the greeting, WELCOME and READY follow HELLO. -/
def move : State → State → Option Move
  | .greeting, .ready => some .ready
  | .plainHello, .plainReady => some .welcome
  | _, _ => none

def policy : Policy (SubTable V subCap prefixCap) where
  role := Connection.role
  move := move
  eager := false

/-- A NULL driver. -/
def new (t : T) : List IoEvent × Res ConnError (Driver V subCap prefixCap frameCap T) := Adapter.start Connection.new t

/-- A PLAIN driver. -/
def newPlain (t : T) (check : List UInt8 → List UInt8 → Bool) :
    List IoEvent × Res ConnError (Driver V subCap prefixCap frameCap T) :=
  Adapter.start (Connection.newPlain check) t

def poll (tgt : Target) (d : Driver V subCap prefixCap frameCap T) :
    Driver V subCap prefixCap frameCap T × Adapter.Polled :=
  Adapter.poll policy tgt d

def publish (tgt : Target) (d : Driver V subCap prefixCap frameCap T) (topic payload : List UInt8) :
    Driver V subCap prefixCap frameCap T × List IoEvent × Res ConnError Nat :=
  Adapter.publish policy tgt d topic payload

end Driver

/-- A driver of a RADIO connection, blocking or async. -/
abbrev RadioDriver (V : Type → Nat → Type) (groupCap groupLenCap frameCap : Nat) (T : Type) :=
  Adapter (GroupTable V groupCap groupLenCap) frameCap T

namespace RadioDriver

variable {V : Type → Nat → Type} [FixedVec V] {groupCap groupLenCap frameCap : Nat} {T : Type} [Transport T]

/-- READY is sent whenever a feed has led to `Ready`. -/
def move (prev cur : State) : Option Move := if cur = .ready ∧ prev ≠ .ready then some .ready else none

/-- The blocking driver. -/
def policy : Policy (GroupTable V groupCap groupLenCap) where
  role := RadioConnection.role
  move := move
  eager := false

/-- The async driver returns after every drain of buffered bytes. -/
def asyncPolicy : Policy (GroupTable V groupCap groupLenCap) where
  role := RadioConnection.role
  move := move
  eager := true

/-- A NULL driver. -/
def new (t : T) : List IoEvent × Res ConnError (RadioDriver V groupCap groupLenCap frameCap T) :=
  Adapter.start RadioConnection.new t

def poll (tgt : Target) (d : RadioDriver V groupCap groupLenCap frameCap T) :
    RadioDriver V groupCap groupLenCap frameCap T × Adapter.Polled :=
  Adapter.poll policy tgt d

/-- `poll` of the async driver. -/
def pollAsync (tgt : Target) (d : RadioDriver V groupCap groupLenCap frameCap T) :
    RadioDriver V groupCap groupLenCap frameCap T × Adapter.Polled :=
  Adapter.poll asyncPolicy tgt d

def publish (tgt : Target) (d : RadioDriver V groupCap groupLenCap frameCap T) (group body : List UInt8) :
    RadioDriver V groupCap groupLenCap frameCap T × List IoEvent × Res ConnError Nat :=
  Adapter.publish policy tgt d group body

end RadioDriver
end Mzmq
