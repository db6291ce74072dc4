import Mzmq.Lib.Interaction
import Mzmq.Delivery

/-!
# The async drivers, await by await

The futures of `io/async.rs`. A future works on what the driver owns beside its transport (`AsyncAdapter`), and asks the
transport whenever it awaits a read or a write. Run to its end it is the call of the `Adapter`. Its caller may as well drop it
at an `await`: the driver is then left as it is at that moment, and the transport as the dropped read or write leaves it.
-/

namespace Mzmq

open Checked Consumer Interaction

/-- What a future awaits: a read with some room, or a `write_all`. -/
inductive Request where
  | read (room : Nat)
  | write (bs : List UInt8)

/-- It is a write. -/
def Request.isWrite : Request → Bool
  | .read _ => false
  | .write _ => true

/-- What the transport answers. -/
def Request.Answer : Request → Type
  | .read _ => Except Nat (List UInt8)
  | .write _ => Except WriteError Unit

/-- What an async driver owns beside its transport. -/
structure AsyncAdapter (τ : Type) (cap : Nat) where
  conn : Conn τ cap
  rxBuf : List.Vector UInt8 512
  rxLen : Nat

/-- A future of an async driver. -/
abbrev Future (τ : Type) (cap : Nat) (ρ : Type) := Program (AsyncAdapter τ cap) Request Request.Answer (Res ConnError ρ)

namespace AsyncAdapter

variable {τ : Type} {cap : Nat}

/-- `transport.write_all(bs).await`, with the error mapped to `IoError`. -/
def write (a : AsyncAdapter τ cap) (bs : List UInt8) : Future τ cap Unit :=
  .ask a (.write bs) fun
    | .ok () => .done a (.ok ())
    | .error e => .done a (.error (.err (.ioError e.kind)))

/-- Write one thing after the other. -/
def writeEach (a : AsyncAdapter τ cap) : List Sent → Future τ cap Unit
  | [] => .done a (.ok ())
  | s :: ss => (a.write s.bytes).andThen fun a _ => a.writeEach ss

/-- Call a writing operation of the connection, and write what it gives. -/
def send (a : AsyncAdapter τ cap) (op : Conn τ cap → Outcome (Conn τ cap) Sent ConnError) : Future τ cap Unit :=
  match (op a.conn).fault with
  | some f => .done { a with conn := (op a.conn).state } (.error f)
  | none => writeEach { a with conn := (op a.conn).state } (op a.conn).out

/-- Send what a move of the handshake calls for. -/
def sendMove (R : Role τ) (a : AsyncAdapter τ cap) : Move → Future τ cap Unit
  | .ready => a.send (Conn.sendReady R)
  | .welcome => (a.send Conn.sendWelcome).andThen fun a _ => a.send (Conn.sendReady R)

/-- `copy_within(total..rx_len, 0)`, and `rx_len -= total`. -/
def compact (a : AsyncAdapter τ cap) (total : Nat) : Future τ cap Unit :=
  if total > 0 then
    match slice a.rxBuf.toList total a.rxLen with
    | .error f => .done a (.error f)
    | .ok left =>
      match copyInto a.rxBuf 0 left with
      | .error f => .done a (.error f)
      | .ok buf => .done { a with rxBuf := buf, rxLen := a.rxLen - total } (.ok ())
  else .done a (.ok ())

/-- Behind a feed that failed: `let _ = transport.write_all(..).await`, then the error of the feed. -/
def feedFailed (a : AsyncAdapter τ cap) (f : Fault ConnError) : Future τ cap Unit :=
  if f.aborts = false ∧ a.conn.state = .failed then (a.send Conn.sendError).bind fun a _ => .done a (.error f)
  else .done a (.error f)

/-- The loop of `drain_buffer`. -/
def drainLoop (P : Policy τ) (tgt : Target) : Nat → AsyncAdapter τ cap → Nat → Future τ cap Unit
  | 0, a, _ => .done a (.error .hang)
  | fuel + 1, a, total =>
    if total < a.rxLen then
      match slice a.rxBuf.toList total a.rxLen with
      | .error f => .done a (.error f)
      | .ok input =>
        match a.conn.feed P.role tgt input with
        | (c, .error f) => feedFailed { a with conn := c } f
        | (c, .ok n) =>
          match P.move a.conn.state c.state with
          | some m => (sendMove P.role { a with conn := c } m).andThen fun a _ => a.compact (total + n)
          | none =>
            (send { a with conn := c } Conn.sendPong).andThen fun a _ =>
              if n = 0 then a.compact (total + n) else drainLoop P tgt fuel a (total + n)
    else a.compact total

/-- `drain_buffer`. -/
def drainBuffer (P : Policy τ) (tgt : Target) (a : AsyncAdapter τ cap) : Future τ cap Unit := drainLoop P tgt (a.rxLen + 1) a 0

/-- `transport.read(..).await` behind what is buffered, and `drain_buffer`. -/
def readMore (P : Policy τ) (tgt : Target) (a : AsyncAdapter τ cap) : Future τ cap Unit :=
  if a.rxLen ≤ 512 then
    .ask a (.read (512 - a.rxLen)) fun
      | .error kind => .done a (.error (.err (.ioError kind)))
      | .ok [] => .done a (.error (.err (.ioError 0)))
      | .ok (b :: bs) =>
        match copyInto a.rxBuf a.rxLen (b :: bs) with
        | .error f => .done a (.error f)
        | .ok buf => drainBuffer P tgt { a with rxBuf := buf, rxLen := a.rxLen + (b :: bs).length }
  else .done a (.error .panic)

/-- `poll` behind its first block. -/
def pollBuffer (P : Policy τ) (tgt : Target) (a : AsyncAdapter τ cap) : Future τ cap Unit :=
  if a.rxLen > 0 then
    (drainBuffer P tgt a).andThen fun a' _ =>
      if P.eager = true ∨ a'.rxLen < a.rxLen then .done a' (.ok ()) else readMore P tgt a'
  else readMore P tgt a

/-- Is the connection established? -/
def established (a : AsyncAdapter τ cap) : Bool := a.conn.state == .established

/-- `poll`. In the `Ready` state READY goes out first, if it was not sent before. -/
def poll (P : Policy τ) (tgt : Target) (a : AsyncAdapter τ cap) : Future τ cap Bool :=
  if a.conn.state = .ready then
    match (a.conn.sendReady P.role).fault with
    | none =>
      (writeEach { a with conn := (a.conn.sendReady P.role).state } (a.conn.sendReady P.role).out).andThen fun a _ =>
        .done a (.ok false)
    | some (.err .wrongState) =>
      (pollBuffer P tgt { a with conn := (a.conn.sendReady P.role).state }).andThen fun a _ => .done a (.ok a.established)
    | some f => .done { a with conn := (a.conn.sendReady P.role).state } (.error f)
  else (pollBuffer P tgt a).andThen fun a _ => .done a (.ok a.established)

/-- `publish`. -/
def publish (P : Policy τ) (tgt : Target) (a : AsyncAdapter τ cap) (topic payload : List UInt8) : Future τ cap Nat :=
  match a.conn.publishHeaders P.role topic payload with
  | .error f => .done a (.error f)
  | .ok none => .done a (.ok 0)
  | .ok (some (th, thN, ph, phN)) =>
    (a.writeEach [.piece (th.take thN), .piece topic, .piece (ph.take phN), .piece payload]).andThen fun a _ =>
      .done a do
        let n ← tgt.add thN topic.length
        let n ← tgt.add n phN
        tgt.add n payload.length

/-- The driver over a transport. -/
def toAdapter {T : Type} (a : AsyncAdapter τ cap) (t : T) : Adapter τ cap T := ⟨a.conn, t, a.rxBuf, a.rxLen⟩

/-- `new`: our greeting is written first. -/
def start (c : Conn τ cap) : Future τ cap Unit := send ⟨c, List.Vector.replicate 512 0, 0⟩ Conn.sendGreeting

open Adapter in
/-- The future of a call. -/
def call (P : Policy τ) (tgt : Target) (a : AsyncAdapter τ cap) :
    Adapter.Op → Program (AsyncAdapter τ cap) Request Request.Answer Returned
  | .poll => (a.poll P tgt).bind fun a r => .done a (.polled r)
  | .publish topic payload => (a.publish P tgt topic payload).bind fun a r => .done a (.published r)

end AsyncAdapter

/-! ## Futures over a transport -/

/-- A transport answers what a future awaits. -/
def Transport.answer {T : Type} [Transport T] (t : T) : (q : Request) → T × q.Answer
  | .read room => Transport.read t room
  | .write bs => Transport.writeAll t bs

/-- What the transport sees of a driver. -/
inductive Wire where
  | received (bs : List UInt8)
  | readFailed (kind : Nat)
  | wrote (bs : List UInt8)
  | writeFailed (bs : List UInt8) (e : WriteError)

/-- What it sees when it answers. -/
def Request.wire : (Σ q : Request, q.Answer) → Wire
  | ⟨.read _, .ok bs⟩ => .received bs
  | ⟨.read _, .error kind⟩ => .readFailed kind
  | ⟨.write bs, .ok ()⟩ => .wrote bs
  | ⟨.write bs, .error e⟩ => .writeFailed bs e

/-- What it sees of an event of a call: nothing of a feed. -/
def IoEvent.wire : IoEvent → Option Wire
  | .received bs => some (.received bs)
  | .readFailed kind => some (.readFailed kind)
  | .consumed _ => none
  | .sent s => some (.wrote s.bytes)
  | .sendFailed s e => some (.writeFailed s.bytes e)

namespace Adapter

variable {τ T : Type} {cap : Nat}

/-- What the driver owns beside its transport. -/
def core (a : Adapter τ cap T) : AsyncAdapter τ cap := ⟨a.conn, a.rxBuf, a.rxLen⟩

variable [Transport T]

/-- What becomes of the future of a call: it is awaited to its end, or it is dropped at its `n`-th `await` if it comes to it.
The read or the write that is dropped there leaves the transport as `t`, and has passed on that many bytes if it is a write. -/
inductive Fate (T : Type) where
  | awaited
  | dropped (n : Nat) (t : T) (passed : Nat)

/-- One call of an async driver. It returns nothing if its future is dropped. -/
def asyncStep (P : Policy τ) (tgt : Target) (a : Adapter τ cap T) (i : Op × Fate T) : Adapter τ cap T × Option Returned :=
  let p := a.core.call P tgt i.1
  let r := p.run Transport.answer a.transport
  match i.2 with
  | .awaited => (r.1.toAdapter r.2.1, some r.2.2)
  | .dropped n t _ =>
    match p.asked Transport.answer n a.transport with
    | some (c, _, _) => (c.toAdapter t, none)
    | none => (r.1.toAdapter r.2.1, some r.2.2)

/-- A call that panics ends the process. -/
def asyncHalts (r : Option Returned) : Bool :=
  match r.bind Returned.fault with
  | some f => f.aborts
  | none => false

/-- One call of an async driver in a run. -/
abbrev AsyncCall (τ : Type) (cap : Nat) (T : Type) := Run.Event (Adapter τ cap T) (Op × Fate T) (Option Returned)

/-- A run of an async driver, some of whose futures are dropped. -/
abbrev AsyncRun (P : Policy τ) (tgt : Target) (a0 : Adapter τ cap T) (h : List (AsyncCall τ cap T)) (a : Adapter τ cap T) : Prop :=
  Run.Runs (asyncStep P tgt) asyncHalts a0 h a

/-- The future of the call was dropped while it awaited a read that takes nothing from the transport when it is dropped. -/
def DroppedAtRead (P : Policy τ) (tgt : Target) (ev : AsyncCall τ cap T) : Prop :=
  ∃ n passed c t room, ev.op.2 = .dropped n t passed ∧
    (ev.pre.core.call P tgt ev.op.1).asked Transport.answer n ev.pre.transport = some (c, t, .read room)

/-- `Q` holds of every run of every async driver over the transport `t`. It speaks of the connection that the driver is made
for, of the calls, and of the driver that they lead to. -/
structure EveryAsyncDriver (V : Type → Nat → Type) [FixedVec V] (tgt : Target) (tableCap nameCap frameCap : Nat)
    (check : List UInt8 → List UInt8 → Bool) (t : T)
    (Q : ∀ {τ : Type}, Policy τ → Conn τ frameCap → List (AsyncCall τ frameCap T) → Adapter τ frameCap T → Prop) : Prop where
  null : ∀ c t', (AsyncAdapter.start Connection.new).run Transport.answer t = (c, t', .ok ()) → ∀ h a,
    AsyncRun Driver.policy tgt (c.toAdapter t') h a →
      Q (Driver.policy : Policy (SubTable V tableCap nameCap)) Connection.new h a
  plain : ∀ c t', (AsyncAdapter.start (Connection.newPlain check)).run Transport.answer t = (c, t', .ok ()) → ∀ h a,
    AsyncRun Driver.policy tgt (c.toAdapter t') h a →
      Q (Driver.policy : Policy (SubTable V tableCap nameCap)) (Connection.newPlain check) h a
  radio : ∀ c t', (AsyncAdapter.start RadioConnection.new).run Transport.answer t = (c, t', .ok ()) → ∀ h a,
    AsyncRun RadioDriver.asyncPolicy tgt (c.toAdapter t') h a →
      Q (RadioDriver.asyncPolicy : Policy (GroupTable V tableCap nameCap)) RadioConnection.new h a

end Adapter

/-! ## Transports that fail by a script -/

/-- A failure, as an answer. -/
def failure (e : WriteError) : (q : Request) → q.Answer
  | .read _ => .error e.kind
  | .write bs => .error { e with accepted := min e.accepted bs.length }

/-- The transport `T`, with a script of the reads and writes that fail, and of what they leave of it. -/
abbrev Dropping (T : Type) := T × List (Option (WriteError × T))

instance {T : Type} [Transport T] : Transport (Dropping T) where
  read t room := Program.interrupted Transport.answer failure t (.read room)
  writeAll t bs := Program.interrupted Transport.answer failure t (.write bs)
  write_le {t t' bs e} h := by
    obtain ⟨t, script⟩ := t
    rcases script with _ | ⟨_ | ⟨w, t1⟩, script⟩
    · obtain ⟨_, he⟩ := Prod.ext_iff.mp h
      have hw : Transport.writeAll t bs = (_, .error e) := Prod.ext rfl he
      exact Transport.write_le hw
    · obtain ⟨_, he⟩ := Prod.ext_iff.mp h
      have hw : Transport.writeAll t bs = (_, .error e) := Prod.ext rfl he
      exact Transport.write_le hw
    · cases h
      exact Nat.min_le_right _ _
  read_le {t t' room bs} h := by
    obtain ⟨t, script⟩ := t
    rcases script with _ | ⟨_ | ⟨w, t1⟩, script⟩
    · obtain ⟨_, he⟩ := Prod.ext_iff.mp h
      have hr : Transport.read t room = (_, .ok bs) := Prod.ext rfl he
      exact Transport.read_le hr
    · obtain ⟨_, he⟩ := Prod.ext_iff.mp h
      have hr : Transport.read t room = (_, .ok bs) := Prod.ext rfl he
      exact Transport.read_le hr
    · cases h

end Mzmq
