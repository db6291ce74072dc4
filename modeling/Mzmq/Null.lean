import Mzmq.Lib.Checked

/-!
# NULL mechanism

The READY and ERROR commands (`null.rs`).
-/

namespace Mzmq

open Checked

/-- The PUB READY frame: flags 0x04, size 0x19, `"READY"`, the property `"Socket-Type"` with value `"PUB"`. -/
def readyFrame : List UInt8 :=
  [0x04, 0x19, 0x05, 0x52, 0x45, 0x41, 0x44, 0x59, 0x0B, 0x53, 0x6F, 0x63, 0x6B, 0x65, 0x74, 0x2D,
    0x54, 0x79, 0x70, 0x65, 0x00, 0x00, 0x00, 0x03, 0x50, 0x55, 0x42]

/-- The RADIO READY frame: as the PUB one, with value `"RADIO"`. -/
def radioReadyFrame : List UInt8 :=
  [0x04, 0x1B, 0x05, 0x52, 0x45, 0x41, 0x44, 0x59, 0x0B, 0x53, 0x6F, 0x63, 0x6B, 0x65, 0x74, 0x2D,
    0x54, 0x79, 0x70, 0x65, 0x00, 0x00, 0x00, 0x05, 0x52, 0x41, 0x44, 0x49, 0x4F]

/-- `b"READY"`. -/
def readyName : List UInt8 := [0x52, 0x45, 0x41, 0x44, 0x59]

/-- `b"ERROR"`. -/
def errorName : List UInt8 := [0x45, 0x52, 0x52, 0x4F, 0x52]

/-- `b"Socket-Type"`. -/
def socketTypeName : List UInt8 := [0x53, 0x6F, 0x63, 0x6B, 0x65, 0x74, 0x2D, 0x54, 0x79, 0x70, 0x65]

/-- `b"SUB"`, `b"XSUB"` and `b"DISH"`. -/
def subName : List UInt8 := [0x53, 0x55, 0x42]
def xsubName : List UInt8 := [0x58, 0x53, 0x55, 0x42]
def dishName : List UInt8 := [0x44, 0x49, 0x53, 0x48]

inductive PeerSocketType where
  | sub
  | xsub
  | dish
  deriving DecidableEq, Repr

inductive NullError where
  | bufferTooSmall
  | notACommand
  | unknownCommand
  | peerError
  | wrongSocketType
  | malformedMetadata
  | reasonTooLong
  deriving DecidableEq, Repr

/-- Write a READY frame into `buf`. -/
def encodeReadyOf (frame : List UInt8) (buf : List UInt8) : List UInt8 × Except NullError Nat :=
  if buf.length < frame.length then (buf, .error .bufferTooSmall)
  else (splice buf 0 frame, .ok frame.length)

def encodeReady (buf : List UInt8) : List UInt8 × Except NullError Nat := encodeReadyOf readyFrame buf

def encodeReadyRadio (buf : List UInt8) : List UInt8 × Except NullError Nat := encodeReadyOf radioReadyFrame buf

/-! ## Parsing -/

/-- `u8::to_ascii_lowercase`. -/
def toAsciiLowercase (b : UInt8) : UInt8 := if 0x41 ≤ b ∧ b ≤ 0x5A then b + 0x20 else b

/-- `eq_ignore_ascii_case` on byte strings. -/
def eqIgnoreAsciiCase (a b : List UInt8) : Bool := a.map toAsciiLowercase == b.map toAsciiLowercase

/-- One turn of the metadata loop, up to the comparison of the name: the property that starts at `pos`, as its name, its
value and the position behind it. -/
def readProperty (tgt : Target) (body : List UInt8) (pos : Nat) : Res NullError (List UInt8 × List UInt8 × Nat) := do
  let propNameLen := (← index body pos).toNat
  let pos ← tgt.add pos 1
  let nameEnd ← tgt.add pos propNameLen
  if nameEnd > body.length then throw (.err .malformedMetadata)
  let propName ← slice body pos nameEnd
  let pos := nameEnd
  let lenEnd ← tgt.add pos 4
  if lenEnd > body.length then throw (.err .malformedMetadata)
  let valLen := beNat (← slice body pos lenEnd)
  let pos := lenEnd
  let valEnd ← tgt.add pos valLen
  if valEnd > body.length then throw (.err .malformedMetadata)
  let val ← slice body pos valEnd
  return (propName, val, valEnd)

/-- A property name that is `"Socket-Type"` up to ASCII case (RFC 23). -/
def isSocketType (name : List UInt8) : Bool := name.length == 11 && eqIgnoreAsciiCase name socketTypeName

/-- The metadata loop: the value of the first Socket-Type property at or behind `pos`. -/
def metadataLoop (tgt : Target) (body : List UInt8) : Nat → Nat → Res NullError (List UInt8)
  | 0, _ => .error .hang
  | fuel + 1, pos =>
    if pos < body.length then
      match readProperty tgt body pos with
      | .error f => .error f
      | .ok (name, val, pos) => if isSocketType name then .ok val else metadataLoop tgt body fuel pos
    else
      -- RFC 37: Socket-Type SHOULD be specified.
      .error (.err .wrongSocketType)

/-- Parse a READY command: the value of its Socket-Type property. The loop moves at least five bytes in each turn, so one
turn for each byte of the body is enough. -/
def parseReadyCommand (tgt : Target) (isCommand : Bool) (body : List UInt8) : Res NullError (List UInt8) :=
  if isCommand = false then .error (.err .notACommand)
  else
    match body with
    | [] => .error (.err .malformedMetadata)
    | nameLen :: _ =>
      if body.length < 1 + nameLen.toNat then .error (.err .malformedMetadata)
      else
        match slice body 1 (1 + nameLen.toNat) with
        | .error f => .error f
        | .ok name =>
          if name = errorName then .error (.err .peerError)
          else if name ≠ readyName then .error (.err .unknownCommand)
          else metadataLoop tgt body (body.length + 1) (1 + nameLen.toNat)

/-- The socket types that a PUB socket talks to. -/
def socketTypeOfSub (val : List UInt8) : Res NullError PeerSocketType :=
  if val = subName then .ok .sub else if val = xsubName then .ok .xsub else .error (.err .wrongSocketType)

/-- The socket type that a RADIO socket talks to. -/
def socketTypeOfDish (val : List UInt8) : Res NullError PeerSocketType :=
  if val = dishName then .ok .dish else .error (.err .wrongSocketType)

/-- Parse the READY of a SUB or XSUB peer from a frame. -/
def parseReadyFrom (tgt : Target) (isCommand : Bool) (body : List UInt8) : Res NullError PeerSocketType :=
  parseReadyCommand tgt isCommand body >>= socketTypeOfSub

/-- Parse the READY of a DISH peer from a frame. -/
def parseReadyRadioFrom (tgt : Target) (isCommand : Bool) (body : List UInt8) : Res NullError PeerSocketType :=
  parseReadyCommand tgt isCommand body >>= socketTypeOfDish

/-- Parse a READY from the raw bytes of a frame, whose header the parser reads as a flags byte and a one-byte size, by the
parser of its structured form. -/
def parseRaw (parse : Bool → List UInt8 → Res NullError PeerSocketType) (buf : List UInt8) : Res NullError PeerSocketType := do
  if buf.length < 3 then throw (.err .malformedMetadata)
  let isCommand := (← index buf 0) &&& 0x04 != 0
  let bodySize := (← index buf 1).toNat
  if buf.length < 2 + bodySize then throw (.err .malformedMetadata)
  let body ← slice buf 2 (2 + bodySize)
  parse isCommand body

/-- Parse the READY of a SUB or XSUB peer from raw bytes. -/
def parseReady (tgt : Target) (buf : List UInt8) : Res NullError PeerSocketType := parseRaw (parseReadyFrom tgt) buf

/-- Parse the READY of a DISH peer from raw bytes. -/
def parseReadyRadio (tgt : Target) (buf : List UInt8) : Res NullError PeerSocketType := parseRaw (parseReadyRadioFrom tgt) buf

/-! ## ERROR -/

/-- Write an ERROR command frame into `buf`. -/
def encodeError (buf : List UInt8) (reason : List UInt8) : List UInt8 × Except NullError Nat :=
  let bodySize := 1 + 5 + 1 + reason.length
  if bodySize > 255 then (buf, .error .reasonTooLong)
  else
    let total := 2 + bodySize
    if buf.length < total then (buf, .error .bufferTooSmall)
    else
      (splice buf 0 ([0x04, UInt8.ofNat bodySize, 0x05] ++ errorName ++ [UInt8.ofNat reason.length] ++ reason),
        .ok total)

end Mzmq
