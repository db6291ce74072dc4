import Mathlib
import Mzmq.Frame
import Mzmq.Greeting
import Mzmq.Null
import Mzmq.Plain

/-!
# The connection state machine

`connection.rs` and `radio_connection.rs` are two copies of one state machine. `Conn` is that machine; what the copies do
differently is a `Role`: the table and the commands that change it, the READY frame, the READY parser, and what a message
frame means. `Connection` and `RadioConnection` are the machine at their own roles.

A call takes the connection and returns the connection it leaves with its result; a call that writes takes the output buffer
and returns the buffer it leaves as well.
-/

namespace Mzmq

open Checked

/-- State of a connection. -/
inductive State where
  | greeting
  | ready
  | plainHello
  | plainReady
  | established
  | failed
  deriving DecidableEq, Repr

/-- Errors returned by the operations of a connection. -/
inductive ConnError where
  | wrongState
  | bufferTooSmall
  | ioError (kind : Nat)
  | greetingError (e : GreetingError)
  | nullError (e : NullError)
  | plainError (e : PlainError)
  | frameError (e : FrameError)
  | decodeError (e : DecodeError)
  deriving DecidableEq, Repr

/-- The errors that report bytes of the peer. -/
def ConnError.fromPeer : ConnError → Bool
  | .greetingError _ => true
  | .nullError _ => true
  | .plainError _ => true
  | .decodeError _ => true
  | _ => false

/-- The authenticator. `asked` is no data of the program: it records the credentials it was consulted with and its answers. -/
structure Auth where
  check : List UInt8 → List UInt8 → Bool
  asked : List ((List UInt8 × List UInt8) × Bool)

/-- `auth.check(username, password)`. -/
def Auth.consult (a : Auth) (username password : List UInt8) : Auth × Bool :=
  ({ a with asked := a.asked ++ [((username, password), a.check username password)] }, a.check username password)

/-- The authenticator `()` of the NULL mechanism accepts nobody. -/
def Auth.unit : Auth := { check := fun _ _ => false, asked := [] }

/-- An authenticator that was not consulted yet. -/
def Auth.of (check : List UInt8 → List UInt8 → Bool) : Auth := { check := check, asked := [] }

/-- What the PUB and the RADIO connection do differently. -/
structure Role (τ : Type) where
  /-- The empty table. -/
  emptyTable : τ
  /-- The READY frame it sends. -/
  readyFrame : List UInt8
  /-- The parser of the peer's READY command. -/
  parseReady : Target → Bool → List UInt8 → Res NullError PeerSocketType
  /-- The command that adds its payload to the table, and the one that removes it. -/
  addName : List UInt8
  removeName : List UInt8
  add : τ → List UInt8 → τ
  remove : τ → List UInt8 → τ
  /-- What the body of a message frame does to the table. -/
  onMessage : τ → List UInt8 → τ
  /-- Does a publish under this topic or group go to the peer? -/
  matchesKey : τ → List UInt8 → Bool

/-- A connection with table type `τ` and a frame decoder of capacity `cap`. -/
structure Conn (τ : Type) (cap : Nat) where
  state : State
  ourGreetingSent : Bool
  peerGreetingReceived : Bool
  peerVersionMinor : UInt8
  ourReadySent : Bool
  ourWelcomeSent : Bool
  mechanism : Mechanism
  greetingBuf : List.Vector UInt8 64
  greetingPos : Nat
  frameDecoder : FrameDecoder cap
  table : τ
  pendingPong : Option (List.Vector UInt8 16 × Nat)
  auth : Auth

/-- The headers of a publish: `(topic_hdr, topic_hdr_len, payload_hdr, payload_hdr_len)`. -/
abbrev PublishHeaders := List UInt8 × Nat × List UInt8 × Nat

/-- `b"PING"` and `b"PONG"`. -/
def pingName : List UInt8 := [0x50, 0x49, 0x4E, 0x47]
def pongName : List UInt8 := [0x50, 0x4F, 0x4E, 0x47]

/-- `b"Invalid socket type"`, the reason of every ERROR command. -/
def invalidSocketType : List UInt8 :=
  [0x49, 0x6E, 0x76, 0x61, 0x6C, 0x69, 0x64, 0x20, 0x73, 0x6F, 0x63, 0x6B, 0x65, 0x74, 0x20, 0x74, 0x79, 0x70, 0x65]

namespace Conn

variable {τ : Type} {cap : Nat}

/-- A connection in the `Greeting` state. -/
def init (R : Role τ) (mechanism : Mechanism) (auth : Auth) : Conn τ cap where
  state := .greeting
  ourGreetingSent := false
  peerGreetingReceived := false
  peerVersionMinor := 0
  ourReadySent := false
  ourWelcomeSent := false
  mechanism := mechanism
  greetingBuf := List.Vector.replicate 64 0
  greetingPos := 0
  frameDecoder := FrameDecoder.new
  table := R.emptyTable
  pendingPong := none
  auth := auth

/-- A new NULL connection. -/
def new (R : Role τ) : Conn τ cap := init R .null Auth.unit

/-- A new PLAIN connection, which calls `check` to validate the peer's credentials. -/
def newPlain (R : Role τ) (check : List UInt8 → List UInt8 → Bool) : Conn τ cap := init R .plain (Auth.of check)

/-- The peer's version as (major, minor). -/
def peerVersion (c : Conn τ cap) : UInt8 × UInt8 := (3, c.peerVersionMinor)

/-! ## Handshake output -/

/-- Write our greeting into `out`. -/
def writeGreeting (c : Conn τ cap) (out : List UInt8) : Conn τ cap × List UInt8 × Res ConnError Nat :=
  if c.state ≠ .greeting ∨ c.ourGreetingSent = true then (c, out, .error (.err .wrongState))
  else if out.length < greetingLen then (c, out, .error (.err .bufferTooSmall))
  else
    let arr := match c.mechanism with
      | .null => encodeGreeting
      | .plain => encodePlainGreeting
    ({ c with ourGreetingSent := true }, splice out 0 arr, .ok greetingLen)

/-- The states in which READY may be written. -/
def inReadyState (c : Conn τ cap) : Bool :=
  match c.mechanism with
  | .null => c.state == .ready
  | .plain => c.state == .ready || (c.state == .plainReady && c.ourWelcomeSent)

/-- Write our READY command into `out`. -/
def writeReady (R : Role τ) (c : Conn τ cap) (out : List UInt8) : Conn τ cap × List UInt8 × Res ConnError Nat :=
  if c.inReadyState = false then (c, out, .error (.err .wrongState))
  else if c.ourReadySent = true then (c, out, .error (.err .wrongState))
  else if out.length < R.readyFrame.length then (c, out, .error (.err .bufferTooSmall))
  else
    match encodeReadyOf R.readyFrame out with
    | (out, .error e) => (c, out, .error (.err (.nullError e)))
    | (out, .ok _) => ({ c with ourReadySent := true }, out, .ok R.readyFrame.length)

/-- Write a WELCOME command into `out`. -/
def writeWelcome (c : Conn τ cap) (out : List UInt8) : Conn τ cap × List UInt8 × Res ConnError Nat :=
  if c.state ≠ .plainReady ∨ c.ourWelcomeSent = true then (c, out, .error (.err .wrongState))
  else
    match encodeWelcome out with
    | (out, .error e) => (c, out, .error (.err (.plainError e)))
    | (out, .ok _) => ({ c with ourWelcomeSent := true }, out, .ok welcomeFrame.length)

/-! ## Input -/

/-- The greeting parser of the connection's mechanism. -/
def parsePeerGreeting (mechanism : Mechanism) (buf : List.Vector UInt8 64) : Except GreetingError PeerGreeting :=
  match mechanism with
  | .null => parseGreeting buf
  | .plain => parsePlainGreeting buf

/-- The state behind the greeting. -/
def afterGreeting : Mechanism → State
  | .null => .ready
  | .plain => .plainHello

/-- `feed` in the `Greeting` state. -/
def feedGreeting (c : Conn τ cap) (input : List UInt8) : Conn τ cap × Res ConnError Nat :=
  let needed := greetingLen - c.greetingPos
  let toCopy := min input.length needed
  let prevPos := c.greetingPos
  match copyInto c.greetingBuf c.greetingPos (input.take toCopy) with
  | .error f => (c, .error f)
  | .ok buf =>
    let c := { c with greetingBuf := buf, greetingPos := c.greetingPos + toCopy }
    let partialCheck :=
      if prevPos < greetingPartialLen ∧ c.greetingPos ≥ greetingPartialLen then
        parsePartialGreeting (c.greetingBuf.toList.take greetingPartialLen)
      else .ok ()
    match partialCheck with
    | .error e => (c, .error (.err (.greetingError e)))
    | .ok () =>
      if c.greetingPos = greetingLen then
        match parsePeerGreeting c.mechanism c.greetingBuf with
        | .error e => (c, .error (.err (.greetingError e)))
        | .ok peerGreeting =>
          let c := { c with peerVersionMinor := peerGreeting.versionMinor, peerGreetingReceived := true }
          if c.ourGreetingSent = true then ({ c with state := afterGreeting c.mechanism }, .ok toCopy)
          else (c, .ok toCopy)
      else (c, .ok toCopy)

/-- The connection after its decoder has moved on. -/
def withDecoder (c : Conn τ cap) (d : FrameDecoder cap) : Conn τ cap := { c with frameDecoder := d }

section WithDecoder

variable (c : Conn τ cap) (d : FrameDecoder cap)

@[simp] theorem withDecoder_state : (c.withDecoder d).state = c.state := rfl
@[simp] theorem withDecoder_ourGreetingSent : (c.withDecoder d).ourGreetingSent = c.ourGreetingSent := rfl
@[simp] theorem withDecoder_peerGreetingReceived : (c.withDecoder d).peerGreetingReceived = c.peerGreetingReceived := rfl
@[simp] theorem withDecoder_peerVersionMinor : (c.withDecoder d).peerVersionMinor = c.peerVersionMinor := rfl
@[simp] theorem withDecoder_ourReadySent : (c.withDecoder d).ourReadySent = c.ourReadySent := rfl
@[simp] theorem withDecoder_ourWelcomeSent : (c.withDecoder d).ourWelcomeSent = c.ourWelcomeSent := rfl
@[simp] theorem withDecoder_mechanism : (c.withDecoder d).mechanism = c.mechanism := rfl
@[simp] theorem withDecoder_greetingBuf : (c.withDecoder d).greetingBuf = c.greetingBuf := rfl
@[simp] theorem withDecoder_greetingPos : (c.withDecoder d).greetingPos = c.greetingPos := rfl
@[simp] theorem withDecoder_table : (c.withDecoder d).table = c.table := rfl
@[simp] theorem withDecoder_pendingPong : (c.withDecoder d).pendingPong = c.pendingPong := rfl
@[simp] theorem withDecoder_auth : (c.withDecoder d).auth = c.auth := rfl
@[simp] theorem withDecoder_frameDecoder : (c.withDecoder d).frameDecoder = d := rfl

@[simp] theorem withDecoder_withDecoder (d' : FrameDecoder cap) :
    (c.withDecoder d).withDecoder d' = c.withDecoder d' := rfl

@[simp] theorem withDecoder_self : c.withDecoder c.frameDecoder = c := rfl

end WithDecoder

/-- The shape of every handler behind the greeting: feed the decoder, and handle the frame it completes. -/
def feedFrame (tgt : Target) (c : Conn τ cap) (input : List UInt8)
    (handle : Conn τ cap → DecodedFrame → Conn τ cap × Res ConnError Unit) : Conn τ cap × Res ConnError Nat :=
  match c.frameDecoder.feed tgt input with
  | (d, .error f) => (c.withDecoder d, .error (f.mapErr .decodeError))
  | (d, .ok (consumed, none)) => (c.withDecoder d, .ok consumed)
  | (d, .ok (consumed, some frame)) =>
    match handle (c.withDecoder d) frame with
    | (c, .error f) => (c, .error f)
    | (c, .ok ()) => (c, .ok consumed)

/-- What `feed_ready_inner` does with a frame. -/
def onReady (R : Role τ) (tgt : Target) (c : Conn τ cap) (frame : DecodedFrame) : Conn τ cap × Res ConnError Unit :=
  -- RFC 23: handshake commands must be short frames.
  if frame.body.length > 255 then ({ c with state := .failed }, .error (.err (.nullError .malformedMetadata)))
  else
    match R.parseReady tgt frame.isCommand frame.body with
    | .ok _ => ({ c with state := .established }, .ok ())
    | .error (.err e) => ({ c with state := .failed }, .error (.err (.nullError e)))
    | .error f => (c, .error (f.mapErr .nullError))

/-- Process a peer READY command frame (NULL and PLAIN). -/
def feedReadyInner (R : Role τ) (tgt : Target) (c : Conn τ cap) (input : List UInt8) : Conn τ cap × Res ConnError Nat :=
  feedFrame tgt c input (onReady R tgt)

/-- `feed` in the `Ready` state. -/
def feedReady (R : Role τ) (tgt : Target) (c : Conn τ cap) (input : List UInt8) : Conn τ cap × Res ConnError Nat :=
  if c.ourReadySent = false then (c, .error (.err .wrongState)) else feedReadyInner R tgt c input

/-- What `feed_plain_hello` does with a frame. -/
def onHello (c : Conn τ cap) (frame : DecodedFrame) : Conn τ cap × Res ConnError Unit :=
  match parseHelloFrom frame.isCommand frame.body with
  | .ok (username, password) =>
    match c.auth.consult username password with
    | (auth, true) => ({ c with auth := auth, state := .plainReady }, .ok ())
    | (auth, false) => ({ c with auth := auth, state := .failed }, .error (.err (.plainError .authFailed)))
  | .error (.err e) => ({ c with state := .failed }, .error (.err (.plainError e)))
  | .error f => (c, .error (f.mapErr .plainError))

/-- `feed` in the `PlainHello` state. -/
def feedPlainHello (tgt : Target) (c : Conn τ cap) (input : List UInt8) : Conn τ cap × Res ConnError Nat :=
  feedFrame tgt c input onHello

/-- `feed` in the `PlainReady` state. -/
def feedPlainReady (R : Role τ) (tgt : Target) (c : Conn τ cap) (input : List UInt8) : Conn τ cap × Res ConnError Nat :=
  if c.ourWelcomeSent = false ∨ c.ourReadySent = false then (c, .error (.err .wrongState))
  else feedReadyInner R tgt c input

/-- Queue a PONG that echoes the context of a PING: at most 16 bytes, behind the two bytes of the TTL. -/
def queuePong (c : Conn τ cap) (payload : List UInt8) : Conn τ cap × Res ConnError Unit :=
  let ctxBytes := payload.drop 2
  let ctxLen := min ctxBytes.length 16
  match copyInto (List.Vector.replicate 16 0) 0 (ctxBytes.take ctxLen) with
  | .error f => (c, .error f)
  | .ok ctx => ({ c with pendingPong := some (ctx, ctxLen) }, .ok ())

/-- What `feed_established` does with a command: `[name_len: 1][name: name_len bytes][payload...]`. -/
def onCommand (R : Role τ) (c : Conn τ cap) (body : List UInt8) : Conn τ cap × Res ConnError Unit :=
  match body with
  | [] => (c, .ok ())
  | nameLen :: _ =>
    if body.length < 1 + nameLen.toNat then (c, .ok ())
    else
      match slice body 1 (1 + nameLen.toNat) with
      | .error f => (c, .error f)
      | .ok name =>
        match slice body (1 + nameLen.toNat) body.length with
        | .error f => (c, .error f)
        | .ok payload =>
          if name = R.addName then ({ c with table := R.add c.table payload }, .ok ())
          else if name = R.removeName then ({ c with table := R.remove c.table payload }, .ok ())
          -- PING and PONG are ZMTP 3.1 features (RFC 37).
          else if name = pingName ∧ c.peerVersionMinor ≥ 1 then queuePong c payload
          else (c, .ok ())

/-- What `feed_established` does with a frame. -/
def onEstablished (R : Role τ) (c : Conn τ cap) (frame : DecodedFrame) : Conn τ cap × Res ConnError Unit :=
  if frame.isCommand = true then onCommand R c frame.body
  else ({ c with table := R.onMessage c.table frame.body }, .ok ())

/-- `feed` in the `Established` state. -/
def feedEstablished (R : Role τ) (tgt : Target) (c : Conn τ cap) (input : List UInt8) :
    Conn τ cap × Res ConnError Nat :=
  feedFrame tgt c input (onEstablished R)

/-- Feed bytes from the peer into the connection: how many were consumed. -/
def feed (R : Role τ) (tgt : Target) (c : Conn τ cap) (input : List UInt8) : Conn τ cap × Res ConnError Nat :=
  match c.state with
  | .greeting => feedGreeting c input
  | .ready => feedReady R tgt c input
  | .plainHello => feedPlainHello tgt c input
  | .plainReady => feedPlainReady R tgt c input
  | .established => feedEstablished R tgt c input
  | .failed => (c, .error (.err .wrongState))

/-! ## Output once established -/

/-- The two frame headers of a publish, if the table matches. -/
def publishHeaders (R : Role τ) (c : Conn τ cap) (topic payload : List UInt8) :
    Res ConnError (Option PublishHeaders) :=
  if c.state ≠ .established then .error (.err .wrongState)
  else if R.matchesKey c.table topic = false then .ok none
  else
    match encodeMessageFrame (List.replicate maxFrameHeader 0) topic.length true with
    | (_, .error e) => .error (.err (.frameError e))
    | (th, .ok thN) =>
      match encodeMessageFrame (List.replicate maxFrameHeader 0) payload.length false with
      | (_, .error e) => .error (.err (.frameError e))
      | (ph, .ok phN) => .ok (some (th, thN, ph, phN))

/-- `out[at..at + src.len()].copy_from_slice(src)` on an output buffer. -/
def copyOut (out : List UInt8) (start : Nat) (src : List UInt8) : Res ConnError (List UInt8) :=
  if start + src.length ≤ out.length then .ok (splice out start src) else .error .panic

/-- Write a multipart message into `out`. -/
def publish (R : Role τ) (tgt : Target) (c : Conn τ cap) (topic payload out : List UInt8) :
    List UInt8 × Res ConnError Nat :=
  match publishHeaders R c topic payload with
  | .error f => (out, .error f)
  | .ok none => (out, .ok 0)
  | .ok (some (th, thN, ph, phN)) =>
    let total : Res ConnError Nat := do
      let n ← tgt.add thN topic.length
      let n ← tgt.add n phN
      tgt.add n payload.length
    match total with
    | .error f => (out, .error f)
    | .ok total =>
      if out.length < total then (out, .error (.err .bufferTooSmall))
      else
        let written : Res ConnError (List UInt8) := do
          let out ← copyOut out 0 (th.take thN)
          let out ← copyOut out thN topic
          let out ← copyOut out (thN + topic.length) (ph.take phN)
          copyOut out (thN + topic.length + phN) payload
        match written with
        | .error f => (out, .error f)
        | .ok out => (out, .ok (thN + topic.length + phN + payload.length))

/-- Write an ERROR command into `out`. -/
def writeError (out : List UInt8) : List UInt8 × Res ConnError Nat :=
  match encodeError out invalidSocketType with
  | (out, .error e) => (out, .error (.err (.nullError e)))
  | (out, .ok n) => (out, .ok n)

/-- Write and clear a pending PONG. -/
def writePong (c : Conn τ cap) (out : List UInt8) : Conn τ cap × List UInt8 × Res ConnError (Option Nat) :=
  match c.pendingPong with
  | none => (c, out, .ok none)
  | some (ctx, ctxLen) =>
    let bodyLen := 1 + 4 + ctxLen
    let total := 2 + bodyLen
    if out.length < total then (c, out, .error (.err .bufferTooSmall))
    else
      match slice ctx.toList 0 ctxLen with
      | .error f => ({ c with pendingPong := none }, out, .error f)
      | .ok ctxBytes =>
        ({ c with pendingPong := none },
          splice out 0 ([0x04, UInt8.ofNat bodyLen, 4] ++ pongName ++ ctxBytes), .ok (some total))

/-! ## Runs of operations -/

/-- An operation on a connection, with its arguments. -/
inductive Op where
  | writeGreeting (out : List UInt8)
  | writeReady (out : List UInt8)
  | writeWelcome (out : List UInt8)
  | feed (input : List UInt8)
  | publishHeaders (topic payload : List UInt8)
  | publish (topic payload out : List UInt8)
  | writeError (out : List UInt8)
  | writePong (out : List UInt8)
  deriving DecidableEq

/-- The result of an operation, with the output buffer it leaves. -/
inductive OpResult where
  | wrote (out : List UInt8) (r : Res ConnError Nat)
  | fed (r : Res ConnError Nat)
  | headers (r : Res ConnError (Option PublishHeaders))
  | pong (out : List UInt8) (r : Res ConnError (Option Nat))

/-- The fault an operation ended with. -/
def OpResult.fault : OpResult → Option (Fault ConnError)
  | .wrote _ (.error f) => some f
  | .fed (.error f) => some f
  | .headers (.error f) => some f
  | .pong _ (.error f) => some f
  | _ => none

/-- An operation that panics ends the process. -/
def OpResult.halts (r : OpResult) : Bool :=
  match r.fault with
  | some f => f.aborts
  | none => false

/-- Carry out one operation. -/
def apply (R : Role τ) (tgt : Target) (c : Conn τ cap) : Op → Conn τ cap × OpResult
  | .writeGreeting out => let r := c.writeGreeting out; (r.1, .wrote r.2.1 r.2.2)
  | .writeReady out => let r := c.writeReady R out; (r.1, .wrote r.2.1 r.2.2)
  | .writeWelcome out => let r := c.writeWelcome out; (r.1, .wrote r.2.1 r.2.2)
  | .feed input => let r := c.feed R tgt input; (r.1, .fed r.2)
  | .publishHeaders topic payload => (c, .headers (c.publishHeaders R topic payload))
  | .publish topic payload out => let r := c.publish R tgt topic payload out; (c, .wrote r.1 r.2)
  | .writeError out => let r := writeError out; (c, .wrote r.1 r.2)
  | .writePong out => let r := c.writePong out; (r.1, .pong r.2.1 r.2.2)

end Conn
end Mzmq
