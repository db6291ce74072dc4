import Mzmq.Null

/-!
# The grammar of READY

What the body of a command and the metadata of READY are, independently of the parser: a name behind its length byte, and a
list of properties, each a length byte, a name, a length of four bytes and a value.
-/

namespace Mzmq

open Checked

/-- A property of the metadata. Its lengths fit the bytes that they are written in. -/
structure Property where
  name : List UInt8
  value : List UInt8
  name_lt : name.length < 256
  value_lt : value.length < 2 ^ 32

/-- The wire form of a property. -/
def Property.enc (p : Property) : List UInt8 :=
  UInt8.ofNat p.name.length :: (p.name ++ (beBytes 4 p.value.length ++ p.value))

/-- The wire form of a list of properties. -/
def encProperties (ps : List Property) : List UInt8 := ps.flatMap Property.enc

/-- The property is a Socket-Type, up to ASCII case. -/
def Property.IsSocketType (p : Property) : Prop := eqIgnoreAsciiCase p.name socketTypeName = true

/-- The body of a command with a complete name. -/
def Named (body name : List UInt8) : Prop :=
  name.length < 256 ∧ ∃ rest, body = UInt8.ofNat name.length :: (name ++ rest)

/-- The first Socket-Type of the metadata has the value `v`; what stands behind it may be anything. -/
def FirstSocketType (metadata v : List UInt8) : Prop :=
  ∃ ps, ∃ p : Property, ∃ rest, metadata = encProperties ps ++ (p.enc ++ rest) ∧ (∀ q ∈ ps, ¬q.IsSocketType) ∧
    p.IsSocketType ∧ p.value = v

/-- The metadata is a complete list of properties, none of which is a Socket-Type. -/
def NoSocketType (metadata : List UInt8) : Prop := ∃ ps, metadata = encProperties ps ∧ ∀ q ∈ ps, ¬q.IsSocketType

/-- The body is a READY command whose metadata satisfies `P`. -/
def ReadyWith (P : List UInt8 → Prop) (body : List UInt8) : Prop := ∃ metadata, body = 5 :: (readyName ++ metadata) ∧ P metadata

/-- A READY command whose first Socket-Type is one of `types`, given by their values. -/
def ReadyOf (types : List (List UInt8 × PeerSocketType)) (body : List UInt8) (t : PeerSocketType) : Prop :=
  ∃ v, (v, t) ∈ types ∧ ReadyWith (FirstSocketType · v) body

/-- A READY command without a Socket-Type, or whose first Socket-Type is none of `types`. -/
def OtherSocketType (types : List (List UInt8 × PeerSocketType)) (body : List UInt8) : Prop :=
  ReadyWith NoSocketType body ∨ ∃ v, (∀ t, (v, t) ∉ types) ∧ ReadyWith (FirstSocketType · v) body

/-- A command that is neither READY nor ERROR. -/
def OtherCommand (body : List UInt8) : Prop := ∃ name, Named body name ∧ name ≠ readyName ∧ name ≠ errorName

/-- The result `r` of parsing a frame as READY of a peer with one of the socket types `types` is what the grammar says. -/
structure ParsesReady (types : List (List UInt8 × PeerSocketType)) (isCommand : Bool) (body : List UInt8)
    (r : Res NullError PeerSocketType) : Prop where
  ok : ∀ t, r = .ok t ↔ isCommand = true ∧ ReadyOf types body t
  wrongSocketType : r = .error (.err .wrongSocketType) ↔ isCommand = true ∧ OtherSocketType types body
  peerError : r = .error (.err .peerError) ↔ isCommand = true ∧ Named body errorName
  unknownCommand : r = .error (.err .unknownCommand) ↔ isCommand = true ∧ OtherCommand body
  notACommand : r = .error (.err .notACommand) ↔ isCommand = false
  malformedMetadata : r = .error (.err .malformedMetadata) ↔ isCommand = true ∧ (∀ t, ¬ReadyOf types body t) ∧
    ¬OtherSocketType types body ∧ ¬Named body errorName ∧ ¬OtherCommand body

end Mzmq
