import Mzmq.Lib.Simulation
import Mzmq.Lib.Spelling
import Mzmq.KeepAlive
import Mzmq.Lemmas.Header
import Mzmq.Outbound
import Mzmq.Tables

/-!
# A publishing endpoint

What a PUB or a RADIO endpoint is for: a machine of occasions and frames, without bytes, buffers, transports or the states of
the code. Its peer greets it, authenticates, announces itself and then asks for what it wants; its user publishes; and it may
give up before the handshake is complete. It answers every occasion with the frames that go out (`Endpoint.Step`). A run of a
driver is to be a run of this machine: what the driver consumes spells the occasions, and what its transport accepts spells the
answers (`Sees`, `Enacts`).
-/

namespace Mzmq

open Checked Spelling

/-- What an endpoint announces itself with, and what it keeps of what its peer asks for. -/
structure Endpoint (σ : Type) where
  metadata : List UInt8
  nothing : σ
  record : σ → DecodedFrame → σ
  wants : σ → List UInt8 → Prop

/-- A command. -/
def command (name payload : List UInt8) : DecodedFrame := ⟨false, true, commandBody name payload⟩

/-- READY announces the endpoint. -/
def Endpoint.ready {σ : Type} (E : Endpoint σ) : DecodedFrame := command readyName E.metadata

/-- The ERROR that a failed connection is given up with; the reason is always the same. -/
def refusal : DecodedFrame := command errorName (0x13 :: invalidSocketType)

theorem socketTypeName_lt : socketTypeName.length < 256 := by decide

/-- The property that announces a socket type. -/
def socketTypeProperty (type : List UInt8) (h : type.length < 2 ^ 32) : Property := ⟨socketTypeName, type, socketTypeName_lt, h⟩

/-- A PUB endpoint keeps at most `subCap` prefixes of at most `prefixCap` bytes, each as often as it is subscribed to. -/
def pubEndpoint (subCap prefixCap : Nat) : Endpoint (Multiset (List UInt8)) where
  metadata := (socketTypeProperty [0x50, 0x55, 0x42] (by decide)).enc
  nothing := 0
  record := fun s f => match subAsk f with
    | .add p => (subSpec subCap prefixCap s (.subscribe p)).1
    | .remove p => (subSpec subCap prefixCap s (.cancel p)).1
    | .other => s
  wants := fun s topic => ∃ p ∈ s, p <+: topic

/-- A RADIO endpoint keeps at most `groupCap` groups of at most `groupLenCap` bytes. -/
def radioEndpoint (groupCap groupLenCap : Nat) : Endpoint (Finset (List UInt8)) where
  metadata := (socketTypeProperty [0x52, 0x41, 0x44, 0x49, 0x4F] (by decide)).enc
  nothing := ∅
  record := fun s f => match groupAsk f with
    | .add g => (groupSpec groupCap groupLenCap s (.join g)).1
    | .remove g => (groupSpec groupCap groupLenCap s (.leave g)).1
    | .other => s
  wants := fun s group => group ∈ s

/-- How far the endpoint is with its peer, and what it keeps of a peer that it is connected to. -/
inductive Stage (σ : Type) where
  | greeting
  | opening (minor : UInt8)
  | welcomed (minor : UInt8)
  | established (minor : UInt8) (kept : σ)
  | failed

def Stage.isEstablished {σ : Type} : Stage σ → Bool
  | .established _ _ => true
  | _ => false

/-- An occasion: the peer greets, authenticates, announces itself, or sends a frame behind the handshake; the endpoint gives up
on its peer; or the user publishes. -/
inductive Occasion where
  | greeted (minor : UInt8)
  | hello
  | ready
  | heard (f : DecodedFrame)
  | gaveUp
  | publish (key payload : List UInt8)

/-- It is the user's. -/
def Occasion.isPublish : Occasion → Bool
  | .publish _ _ => true
  | _ => false

/-- The frames that go to the peer, and whether a publish is refused. -/
structure Reply where
  frames : List DecodedFrame
  refused : Bool

/-- The PONG that answers a frame from a peer with this minor version, if it is a PING. -/
def pongsTo (minor : UInt8) (f : DecodedFrame) : List DecodedFrame :=
  if minor ≥ 1 then (pings [f]).map fun ctx => command pongName (ctx.take 16) else []

/-- A message of two frames. -/
def message (key payload : List UInt8) : List DecodedFrame := [⟨true, false, key⟩, ⟨false, false, payload⟩]

/-- The steps of an endpoint. -/
inductive Endpoint.Step {σ : Type} (E : Endpoint σ) : Mechanism → Stage σ → Occasion → Reply → Stage σ → Prop where
  | greeted {minor : UInt8} : E.Step .null .greeting (.greeted minor) ⟨[E.ready], false⟩ (.opening minor)
  | greetedPlain {minor : UInt8} : E.Step .plain .greeting (.greeted minor) ⟨[], false⟩ (.opening minor)
  | hello {minor : UInt8} :
      E.Step .plain (.opening minor) .hello ⟨[command welcomeName [], E.ready], false⟩ (.welcomed minor)
  | ready {minor : UInt8} : E.Step .null (.opening minor) .ready ⟨[], false⟩ (.established minor E.nothing)
  | readyPlain {minor : UInt8} : E.Step .plain (.welcomed minor) .ready ⟨[], false⟩ (.established minor E.nothing)
  | heard {m : Mechanism} {minor : UInt8} {kept : σ} {f : DecodedFrame} : E.Step m (.established minor kept) (.heard f)
      ⟨pongsTo minor f, false⟩ (.established minor (E.record kept f))
  | gaveUp {m : Mechanism} {s : Stage σ} : s ≠ .greeting → s.isEstablished = false →
      E.Step m s .gaveUp ⟨[refusal], false⟩ .failed
  | wanted {m : Mechanism} {minor : UInt8} {kept : σ} {key payload : List UInt8} : E.wants kept key →
      E.Step m (.established minor kept) (.publish key payload) ⟨message key payload, false⟩ (.established minor kept)
  | unwanted {m : Mechanism} {minor : UInt8} {kept : σ} {key payload : List UInt8} : ¬E.wants kept key →
      E.Step m (.established minor kept) (.publish key payload) ⟨[], false⟩ (.established minor kept)
  | early {m : Mechanism} {s : Stage σ} {key payload : List UInt8} : s.isEstablished = false →
      E.Step m s (.publish key payload) ⟨[], true⟩ s

/-! ## A driver as an endpoint -/

/-- The frame on the wire has a body of at most `cap` bytes. -/
def FitsFrame (tgt : Target) (cap : Nat) (wire : List UInt8) : Prop := ∃ f, IsWire tgt wire f ∧ f.body.length ≤ cap

/-- How the peer says an occasion, if it is the peer's. -/
def Occasion.IsWire {τ : Type} (R : Role τ) (check : List UInt8 → List UInt8 → Bool) (tgt : Target) (cap : Nat) (m : Mechanism) :
    Occasion → List UInt8 → Prop
  | .greeted minor, wire => Greeted m wire minor
  | .hello, wire => AcceptedHello check tgt wire ∧ FitsFrame tgt cap wire
  | .ready, wire => AcceptedReady R tgt wire ∧ FitsFrame tgt cap wire
  | .heard f, wire => Mzmq.IsWire tgt wire f ∧ f.body.length ≤ cap
  | .gaveUp, wire => wire = []
  | .publish _ _, wire => wire = []

/-- The frames of some replies, in their order. -/
def framesOf (ws : List Reply) : List DecodedFrame := ws.flatMap Reply.frames

/-- The bytes of a frame, behind the shortest header. -/
def frameBytes (f : DecodedFrame) : List UInt8 := frameHeader (headerBits f.more f.isCommand) f.body.length ++ f.body

/-- The bytes of some frames, one behind the other. -/
def wireOf (fs : List DecodedFrame) : List UInt8 := fs.flatMap frameBytes

namespace Adapter

variable {τ T σ : Type} {cap : Nat} [Transport T]

/-- What a call of a driver shows of the occasions `is` that it brings about, which lead to `s` with the replies `ws`. The
transport accepts the frames of the replies. A publish is one occasion, and returns the number of bytes that go out, or that it
is refused; a poll returns whether the connection is established. -/
structure Sees (ev : Call τ cap T) (is : List Occasion) (ws : List Reply) (s : Stage σ) : Prop where
  call : match ev.op with
    | .poll => (∀ i ∈ is, i.isPublish = false) ∧ ∀ b, ev.res.2 = .polled (.ok b) → b = s.isEstablished
    | .publish key payload => is = [.publish key payload] ∧ ev.res.2 =
      .published (if ws.any Reply.refused then .error (.err .wrongState) else .ok (acceptedBytes ev.res.1).length)
  accepted : acceptedBytes ev.res.1 = wireOf (framesOf ws)

/-- What a driver has consumed in the calls `h` spells the peer's occasions among `is`, which lead to `s`, and no more: what
is left does not begin with the next one. -/
def Spells (E : Endpoint σ) (R : Role τ) (check : List UInt8 → List UInt8 → Bool) (tgt : Target) (m : Mechanism)
    (h : List (Call τ cap T)) (is : List Occasion) (s : Stage σ) : Prop :=
  ∃ t u, consumedBytes (trace h) = t ++ u ∧ Spelled (Occasion.IsWire R check tgt cap m) is t ∧
    ∀ i w s' wire, E.Step m s i w s' → i.IsWire R check tgt cap m wire → wire ≠ [] → ¬wire <+: u

/-- The calls `h` of a driver are those of the endpoint `E`, on the occasions `is`, which lead to `s` with the replies `ws`. -/
abbrev Enacts (E : Endpoint σ) (R : Role τ) (check : List UInt8 → List UInt8 → Bool) (tgt : Target) (m : Mechanism)
    (h : List (Call τ cap T)) (is : List Occasion) (ws : List Reply) (s : Stage σ) : Prop :=
  Run.Matched (E.Step m) Sees (Spells E R check tgt m) .greeting h is ws s

/-- The lengths of every message, with its two headers, add up on the target. -/
def SumsFit (tgt : Target) (h : List (Call τ cap T)) : Prop :=
  ∀ msg ∈ messages h, msg.1.length + msg.2.length + 2 * maxFrameHeader < tgt.size

/-- `Q` holds of every run of every driver: of the PUB drivers over the transport `t`, with their endpoint, and of the RADIO
drivers. It speaks of what is written at the start, of the calls that follow, and of the driver that they lead to. -/
structure EveryDriver (V : Type → Nat → Type) [FixedVec V] (tgt : Target) (tableCap nameCap frameCap : Nat)
    (check : List UInt8 → List UInt8 → Bool) (t : T)
    (Q : ∀ {σ τ : Type}, Endpoint σ → Policy τ → (List UInt8 → List UInt8 → Bool) → Mechanism → List IoEvent →
      List (Call τ frameCap T) → Adapter τ frameCap T → Prop) : Prop where
  null : ∀ tr d0, (Driver.new t : List IoEvent × Res ConnError (Driver V tableCap nameCap frameCap T)) = (tr, .ok d0) →
    ∀ h d, DriverRun Driver.policy tgt d0 h d →
      Q (pubEndpoint tableCap nameCap) (Driver.policy : Policy (SubTable V tableCap nameCap)) Auth.unit.check .null tr h d
  plain : ∀ tr d0, (Driver.newPlain t check : List IoEvent × Res ConnError (Driver V tableCap nameCap frameCap T)) = (tr, .ok d0) →
    ∀ h d, DriverRun Driver.policy tgt d0 h d →
      Q (pubEndpoint tableCap nameCap) (Driver.policy : Policy (SubTable V tableCap nameCap)) check .plain tr h d
  radio : ∀ tr d0, (RadioDriver.new t : List IoEvent × Res ConnError (RadioDriver V tableCap nameCap frameCap T)) = (tr, .ok d0) →
    ∀ h d, DriverRun RadioDriver.policy tgt d0 h d →
      Q (radioEndpoint tableCap nameCap) (RadioDriver.policy : Policy (GroupTable V tableCap nameCap)) Auth.unit.check .null tr h d
  radioAsync : ∀ tr d0, (RadioDriver.new t : List IoEvent × Res ConnError (RadioDriver V tableCap nameCap frameCap T)) =
      (tr, .ok d0) →
    ∀ h d, DriverRun RadioDriver.asyncPolicy tgt d0 h d →
      Q (radioEndpoint tableCap nameCap) (RadioDriver.asyncPolicy : Policy (GroupTable V tableCap nameCap)) Auth.unit.check .null
        tr h d

end Adapter
end Mzmq
