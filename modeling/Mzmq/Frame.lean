import Mzmq.Lib.Checked

/-!
# Frames

The frame header encoders and the streaming frame decoder (`frame.rs`).
-/

namespace Mzmq

open Checked

/-- Maximum header overhead: 9 bytes (long frame). -/
def maxFrameHeader : Nat := 9

/-- Errors of the frame header encoders. -/
inductive FrameError where
  | bufferTooSmall
  | reservedFlagBits
  deriving DecidableEq, Repr

/-- Errors of the streaming decoder. -/
inductive DecodeError where
  | reservedFlagBits
  | bodyTooLarge
  | truncated
  deriving DecidableEq, Repr

/-- Write the header of a frame with the flag bits `bits` (LONG apart) into `buf[..header_len]`. -/
def encodeFrameHeader (bits : UInt8) (buf : List UInt8) (bodyLen : Nat) : List UInt8 × Except FrameError Nat :=
  if bodyLen ≤ 255 then
    if buf.length < 2 then (buf, .error .bufferTooSmall)
    else (splice buf 0 [bits, UInt8.ofNat bodyLen], .ok 2)
  else
    if buf.length < 9 then (buf, .error .bufferTooSmall)
    else (splice buf 0 ((0x02 ||| bits) :: beBytes 8 bodyLen), .ok 9)

/-- Write a MESSAGE frame header. -/
def encodeMessageFrame (buf : List UInt8) (bodyLen : Nat) (more : Bool) : List UInt8 × Except FrameError Nat :=
  encodeFrameHeader (if more then 0x01 else 0x00) buf bodyLen

/-- Write a COMMAND frame header. -/
def encodeCommandFrame (buf : List UInt8) (bodyLen : Nat) : List UInt8 × Except FrameError Nat :=
  encodeFrameHeader 0x04 buf bodyLen

/-- A decoded frame. -/
structure DecodedFrame where
  more : Bool
  isCommand : Bool
  body : List UInt8
  deriving DecidableEq, Repr

/-! ## Flag bits -/

/-- Bits 3-7 of a flags byte are reserved. -/
def flagReserved (flags : UInt8) : Bool := flags &&& 0xF8 != 0

def flagMore (flags : UInt8) : Bool := flags &&& 0x01 != 0

def flagLong (flags : UInt8) : Bool := flags &&& 0x02 != 0

def flagCommand (flags : UInt8) : Bool := flags &&& 0x04 != 0

/-! ## The streaming decoder -/

/-- The stages of the decoder. -/
inductive DecoderState where
  /-- Waiting for the flags byte. -/
  | needFlags
  /-- Flags received; `sizeBuf` accumulates the size bytes, `sizePos` is how many have arrived. -/
  | needSize (more isCommand long : Bool) (sizeBuf : List.Vector UInt8 8) (sizePos : Nat)
  /-- Size known; `remaining` body bytes are still needed. -/
  | needBody (more isCommand : Bool) (remaining : Nat)
  /-- A decode error has occurred. -/
  | poisoned
  deriving DecidableEq

/-- The decoder, with its body buffer of capacity `cap`. -/
structure FrameDecoder (cap : Nat) where
  state : DecoderState
  buf : List.Vector UInt8 cap
  bufPos : Nat
  deriving DecidableEq

namespace FrameDecoder

variable {cap : Nat}

/-- A decoder in its initial state. -/
def new : FrameDecoder cap := { state := .needFlags, buf := List.Vector.replicate cap 0, bufPos := 0 }

/-- Back to the initial state, ready to decode a new frame. -/
def reset (d : FrameDecoder cap) : FrameDecoder cap := { d with state := .needFlags, bufPos := 0 }

/-- How many size bytes a header has. -/
def sizeNeeded (long : Bool) : Nat := if long then 8 else 1

/-- The body length that the size bytes declare; a long size is cast to `usize`. -/
def bodyLen (tgt : Target) (long : Bool) (sizeBuf : List UInt8) : Nat :=
  if long then tgt.cast (beNat sizeBuf) else (sizeBuf.headD 0).toNat

/-- The inner loop of the `NeedSize` stage: copy size bytes until there are enough or the input ends. -/
def fillSize (needed : Nat) : List.Vector UInt8 8 → Nat → List UInt8 → Nat →
    Res DecodeError (List.Vector UInt8 8 × Nat × List UInt8 × Nat)
  | sizeBuf, sizePos, [], pos => .ok (sizeBuf, sizePos, [], pos)
  | sizeBuf, sizePos, b :: rest, pos =>
    if sizePos < needed then
      match copyInto sizeBuf sizePos [b] with
      | .error f => .error f
      | .ok sizeBuf => fillSize needed sizeBuf (sizePos + 1) rest (pos + 1)
    else .ok (sizeBuf, sizePos, b :: rest, pos)

/-- The loop of `feed`: `rest` is `input[pos..]`. Each turn returns or moves on to a later stage. -/
def feedLoop (tgt : Target) : Nat → FrameDecoder cap → List UInt8 → Nat →
    FrameDecoder cap × Res DecodeError (Nat × Option DecodedFrame)
  | 0, d, _, _ => (d, .error .hang)
  | _ + 1, d, [], pos => (d, .ok (pos, none))
  | fuel + 1, d, b :: rest, pos =>
    match d.state with
    | .poisoned => (d, .error (.err .reservedFlagBits))
    | .needFlags =>
      if flagReserved b then ({ d with state := .poisoned }, .error (.err .reservedFlagBits))
      -- RFC 37: the MORE bit SHALL be zero on command frames.
      else if flagCommand b && flagMore b then ({ d with state := .poisoned }, .error (.err .reservedFlagBits))
      else
        feedLoop tgt fuel
          { d with state := .needSize (flagMore b) (flagCommand b) (flagLong b) (List.Vector.replicate 8 0) 0 } rest
          (pos + 1)
    | .needSize more isCommand long sizeBuf sizePos =>
      match fillSize (sizeNeeded long) sizeBuf sizePos (b :: rest) pos with
      | .error f => (d, .error f)
      | .ok (sizeBuf, sizePos, rest, pos) =>
        let d := { d with state := .needSize more isCommand long sizeBuf sizePos }
        if sizePos < sizeNeeded long then (d, .ok (pos, none))
        else
          let len := bodyLen tgt long sizeBuf.toList
          if cap < len then ({ d with state := .poisoned }, .error (.err .bodyTooLarge))
          else if len = 0 then
            -- Zero-length body: the frame is immediately complete.
            ({ d with state := .needFlags, bufPos := 0 }, .ok (pos, some ⟨more, isCommand, []⟩))
          else feedLoop tgt fuel { d with state := .needBody more isCommand len, bufPos := 0 } rest pos
    | .needBody more isCommand remaining =>
      let toCopy := min (b :: rest).length remaining
      match copyInto d.buf d.bufPos ((b :: rest).take toCopy) with
      | .error f => (d, .error f)
      | .ok buf =>
        let bodyEnd := d.bufPos + toCopy
        if remaining - toCopy = 0 then
          match slice buf.toList 0 bodyEnd with
          | .error f => (d, .error f)
          | .ok body => ({ state := .needFlags, buf := buf, bufPos := 0 }, .ok (pos + toCopy, some ⟨more, isCommand, body⟩))
        else
          -- Still waiting for more body bytes.
          ({ state := .needBody more isCommand (remaining - toCopy), buf := buf, bufPos := bodyEnd },
            .ok (pos + toCopy, none))

/-- Feed bytes into the decoder: how many were consumed, and the frame they complete. A turn of the loop leaves `NeedFlags`
for `NeedSize` and `NeedSize` for `NeedBody`, so three turns are enough. -/
def feed (tgt : Target) (d : FrameDecoder cap) (input : List UInt8) :
    FrameDecoder cap × Res DecodeError (Nat × Option DecodedFrame) :=
  feedLoop tgt 3 d input 0

end FrameDecoder

end Mzmq
