import Mzmq.Delivery
import Mzmq.Metadata
import Mzmq.Transcript
import Mzmq.Wire

/-!
# The outbound stream

What a driver may put on the wire, whatever its transport does: our greeting, and complete frames that make up commands and
publishes in the order of the handshake. The bytes that a transport accepts are read off a trace; of a refused write it has
accepted only the first.
-/

namespace Mzmq

open Checked

/-- `b"WELCOME"`. -/
def welcomeName : List UInt8 := [0x57, 0x45, 0x4C, 0x43, 0x4F, 0x4D, 0x45]

/-- What stands behind the greeting: a command, or the two frames of a publish. -/
inductive Item where
  | welcome
  | ready
  | pong
  | error
  | publish (topic payload : List UInt8)

namespace Item

/-- The output that the item is; ERROR is none of the outputs that come in order. -/
def output : Item → Option Output
  | .welcome => some .welcome
  | .ready => some .ready
  | .pong => some .pong
  | .error => none
  | .publish _ _ => some .publish

/-- The message that the item publishes. -/
def message : Item → Option (List UInt8 × List UInt8)
  | .publish topic payload => some (topic, payload)
  | _ => none

end Item

/-- `wire` is a frame, with its size in full. -/
abbrev IsFrame (wire : List UInt8) (f : DecodedFrame) : Prop := IsWire ⟨.w64, false⟩ wire f

/-- `wire` is a command frame with the name `name`. -/
def IsCommand (name wire : List UInt8) : Prop := ∃ body, IsFrame wire ⟨false, true, body⟩ ∧ Named body name

/-- `wire` is the complete wire form of an item. The payload of a publish follows its topic at once. -/
def Item.IsWire : Item → List UInt8 → Prop
  | .welcome, wire => IsCommand welcomeName wire
  | .ready, wire => IsCommand readyName wire
  | .pong, wire => IsCommand pongName wire
  | .error, wire => IsCommand errorName wire
  | .publish topic payload, wire =>
    ∃ wire1 wire2, wire = wire1 ++ wire2 ∧ IsFrame wire1 ⟨true, false, topic⟩ ∧ IsFrame wire2 ⟨false, false, payload⟩

/-- `s` is the wire form of the items, one behind the other. -/
inductive IsItems : List Item → List UInt8 → Prop where
  | nil : IsItems [] []
  | cons {i : Item} {is : List Item} {wire s : List UInt8} : i.IsWire wire → IsItems is s → IsItems (i :: is) (wire ++ s)

/-- Our greeting. -/
def greetingBytes : Mechanism → List UInt8
  | .null => encodeGreeting
  | .plain => encodePlainGreeting

/-- The outputs of an outbound stream: the greeting, and those of its items. -/
def itemOutputs (is : List Item) : List Output := .greeting :: is.filterMap Item.output

/-- A complete outbound stream with the messages `msgs`: behind the greeting, ERROR apart, there are first the commands of the
handshake, then PONGs and publishes. -/
def WellFormed (m : Mechanism) (msgs : List (List UInt8 × List UInt8)) (stream : List UInt8) : Prop :=
  ∃ is s, stream = greetingBytes m ++ s ∧ IsItems is s ∧ is.filterMap Item.message = msgs ∧
    ∃ tail : List Output, (∀ o ∈ tail, o = .pong ∨ o = .publish) ∧ itemOutputs is = handshakeOutputs m ++ tail

/-- A well-formed stream begins with `acc`; nothing but messages out of `msgs` is published in it, in their order. -/
def Begins (m : Mechanism) (msgs : List (List UInt8 × List UInt8)) (acc : List UInt8) : Prop :=
  ∃ msgs' stream, WellFormed m msgs' stream ∧ acc <+: stream ∧ msgs'.Sublist msgs

/-! ## Traces -/

/-- What the transport accepted in an event. -/
def IoEvent.accepted : IoEvent → List UInt8
  | .sent s => s.bytes
  | .sendFailed s e => s.bytes.take e.accepted
  | _ => []

/-- The bytes that the transport has accepted. -/
def acceptedBytes (tr : List IoEvent) : List UInt8 := tr.flatMap IoEvent.accepted

/-- At every moment, a well-formed stream begins with the bytes that were accepted. -/
def StaysWellFormed (m : Mechanism) (msgs : List (List UInt8 × List UInt8)) (tr : List IoEvent) : Prop :=
  ∀ p, p <+: tr → Begins m msgs (acceptedBytes p)

namespace Adapter

variable {τ T : Type} {cap : Nat} [Transport T]

/-- The message that a call publishes. -/
def Op.message : Op → Option (List UInt8 × List UInt8)
  | .poll => none
  | .publish topic payload => some (topic, payload)

/-- The messages that the calls of a run publish. -/
def messages (h : List (Call τ cap T)) : List (List UInt8 × List UInt8) := h.filterMap fun ev => ev.op.message

end Adapter
end Mzmq
