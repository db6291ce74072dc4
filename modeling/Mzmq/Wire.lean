import Mzmq.Frame

/-!
# The frame grammar

What the bytes of a frame are (RFC 37), independently of the decoder: a flags byte, one size byte or eight, and the body.
A long size counts as the pointer-sized integer it is cast to, which on a 64-bit target is the size itself
(`isWire_w64`).
-/

namespace Mzmq

open Checked FrameDecoder

/-- A flags byte of a well-formed header: no reserved bit, and MORE only on a message. -/
def flagsOk (flags : UInt8) : Bool := !(flagReserved flags || (flagCommand flags && flagMore flags))

/-- `wire` is the complete wire form of the frame `f`. -/
def IsWire (tgt : Target) (wire : List UInt8) (f : DecodedFrame) : Prop :=
  ∃ flags size, flagsOk flags = true ∧ size.length = sizeNeeded (flagLong flags) ∧ wire = flags :: (size ++ f.body) ∧
    f.more = flagMore flags ∧ f.isCommand = flagCommand flags ∧ f.body.length = bodyLen tgt (flagLong flags) size

/-- `s` is the wire form of the frames `fs`, none of which has a body of more than `cap` bytes. -/
inductive IsStream (tgt : Target) (cap : Nat) : List UInt8 → List DecodedFrame → Prop where
  | nil : IsStream tgt cap [] []
  | cons {wire s : List UInt8} {f : DecodedFrame} {fs : List DecodedFrame} : IsWire tgt wire f → f.body.length ≤ cap →
      IsStream tgt cap s fs → IsStream tgt cap (wire ++ s) (f :: fs)

/-- `wires` is the longest part at the beginning of `s` that is a stream of frames, and `fs` are its frames. -/
structure LongestStream (tgt : Target) (cap : Nat) (s wires : List UInt8) (fs : List DecodedFrame) : Prop where
  front : wires <+: s
  stream : IsStream tgt cap wires fs
  longest : ∀ wires' fs', wires' <+: s → IsStream tgt cap wires' fs' → wires'.length ≤ wires.length

/-- A stream whose header cannot be the header of a frame of at most `cap` bytes. -/
def badHeader (tgt : Target) (cap : Nat) : List UInt8 → Bool
  | [] => false
  | flags :: rest =>
    !flagsOk flags || (decide (sizeNeeded (flagLong flags) ≤ rest.length) &&
      decide (cap < bodyLen tgt (flagLong flags) (rest.take (sizeNeeded (flagLong flags)))))

/-- The bytes of a header up to the one at which it breaks the rules: a flags byte, or the last byte of a size that is too
large. -/
inductive Breaks (tgt : Target) (cap : Nat) : List UInt8 → DecodeError → Prop where
  | flags {flags : UInt8} : flagsOk flags = false → Breaks tgt cap [flags] .reservedFlagBits
  | size {flags : UInt8} {size : List UInt8} : flagsOk flags = true → size.length = sizeNeeded (flagLong flags) →
      cap < bodyLen tgt (flagLong flags) size → Breaks tgt cap (flags :: size) .bodyTooLarge

/-- A stream that begins with a well-formed long header, the size in which satisfies `P`. -/
def LongHeader (P : Nat → Prop) (s : List UInt8) : Prop :=
  ∃ flags size rest, s = flags :: (size ++ rest) ∧ flagsOk flags = true ∧ flagLong flags = true ∧ size.length = 8 ∧
    P (beNat size)

/-- `u` is what a decoder in the state of `d` has read of the frame in progress. -/
def Pending {cap : Nat} (tgt : Target) (d : FrameDecoder cap) (u : List UInt8) : Prop :=
  match d.state with
  | .needFlags => u = []
  | .needSize more isCommand long sizeBuf sizePos =>
    ∃ flags, flagsOk flags = true ∧ more = flagMore flags ∧ isCommand = flagCommand flags ∧ long = flagLong flags ∧
      u = flags :: sizeBuf.toList.take sizePos
  | .needBody more isCommand remaining =>
    ∃ flags size, flagsOk flags = true ∧ size.length = sizeNeeded (flagLong flags) ∧ more = flagMore flags ∧
      isCommand = flagCommand flags ∧ u = flags :: (size ++ d.buf.toList.take d.bufPos) ∧
      bodyLen tgt (flagLong flags) size = d.bufPos + remaining
  | .poisoned => False

/-- What one feed of the decoder answers. -/
abbrev FrameDecoder.Fed := Res DecodeError (Nat × Option DecodedFrame)

namespace FrameDecoder

variable {cap : Nat}

/-- Feed a piece of a stream, and again what was not consumed of it: what each feed answers, up to an error. -/
def feedAll (tgt : Target) : Nat → FrameDecoder cap → List UInt8 → FrameDecoder cap × List Fed
  | 0, d, _ => (d, [.error .hang])
  | fuel + 1, d, xs =>
    match d.feed tgt xs with
    | (d', .error e) => (d', [.error e])
    | (d', .ok (n, o)) =>
      if xs.length ≤ n then (d', [.ok (n, o)])
      else ((feedAll tgt fuel d' (xs.drop n)).1, .ok (n, o) :: (feedAll tgt fuel d' (xs.drop n)).2)

/-- Feed the pieces of a stream one after the other, whatever the decoder answers. -/
def feedChunks (tgt : Target) : FrameDecoder cap → List (List UInt8) → List Fed
  | _, [] => []
  | d, c :: cs => (feedAll tgt (c.length + 1) d c).2 ++ feedChunks tgt (feedAll tgt (c.length + 1) d c).1 cs

end FrameDecoder

/-- The frames that were delivered. -/
def delivered (fed : List FrameDecoder.Fed) : List DecodedFrame :=
  fed.filterMap fun
    | .ok (_, o) => o
    | .error _ => none

/-- The two size forms of a frame of a 64-bit target, with the size as it is written. -/
theorem isWire_w64 {wire : List UInt8} {f : DecodedFrame} (checks : Bool) :
    IsWire ⟨.w64, checks⟩ wire f ↔
      ∃ flags size, flagsOk flags = true ∧ wire = flags :: (size ++ f.body) ∧ f.more = flagMore flags ∧
        f.isCommand = flagCommand flags ∧ f.body.length = beNat size ∧ size.length = if flagLong flags then 8 else 1 := by
  have hsize : ∀ long size, size.length = sizeNeeded long → bodyLen ⟨.w64, checks⟩ long size = beNat size := by
    intro long size hl
    cases long with
    | true =>
      have hlt := beNat_lt size
      rw [hl] at hlt
      exact Target.cast_of_lt hlt
    | false =>
      obtain ⟨b, rfl⟩ := List.length_eq_one_iff.mp hl
      simp [bodyLen, beNat]
  constructor
  · rintro ⟨flags, size, hok, hl, hw, hm, hc, hb⟩
    exact ⟨flags, size, hok, hw, hm, hc, hb.trans (hsize _ size hl), hl⟩
  · rintro ⟨flags, size, hok, hw, hm, hc, hb, hl⟩
    exact ⟨flags, size, hok, hl, hw, hm, hc, hb.trans (hsize _ size hl).symm⟩

end Mzmq
