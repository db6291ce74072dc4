import Mzmq.Lemmas.Wire

/-!
# What the encoders write

The two frame encoders write one header (`frameHeader`), which is the header of a wire form of the grammar. Of the two size
forms they choose the short one for bodies of at most 255 bytes.
-/

namespace Mzmq

open Checked FrameDecoder

variable {tgt : Target}

/-- The flag bits of a frame, LONG apart. -/
def headerBits (more isCommand : Bool) : UInt8 := if isCommand then 0x04 else if more then 0x01 else 0x00

/-- The header with the flag bits `bits` for a body of `n` bytes. -/
def frameHeader (bits : UInt8) (n : Nat) : List UInt8 :=
  if n ≤ 255 then [bits, UInt8.ofNat n] else (0x02 ||| bits) :: beBytes 8 n

theorem frameHeader_length (bits : UInt8) (n : Nat) : (frameHeader bits n).length = if n ≤ 255 then 2 else 9 := by
  unfold frameHeader
  split
  · rfl
  · rw [List.length_cons, beBytes_length]

theorem frameHeader_length_le (bits : UInt8) (n : Nat) : (frameHeader bits n).length ≤ maxFrameHeader := by
  rw [frameHeader_length]
  split <;> decide

/-- A header is written at the front of every buffer that it fits. -/
theorem encodeFrameHeader_eq (bits : UInt8) (buf : List UInt8) (n : Nat) :
    encodeFrameHeader bits buf n =
      if buf.length < (frameHeader bits n).length then (buf, .error .bufferTooSmall)
      else (splice buf 0 (frameHeader bits n), .ok (frameHeader bits n).length) := by
  rw [frameHeader_length]
  unfold encodeFrameHeader frameHeader
  by_cases h : n ≤ 255
  · simp only [if_pos h]
  · simp only [if_neg h]

/-- The flag bits that a header may have. -/
theorem flags_eq {flags : UInt8} (h : flagsOk flags = true) :
    flags = (if flagLong flags then 0x02 else 0x00) ||| headerBits (flagMore flags) (flagCommand flags) := by
  have hall : ∀ n : Fin 256, flagsOk (UInt8.ofFin n) = true → UInt8.ofFin n =
      (if flagLong (UInt8.ofFin n) then 0x02 else 0x00) |||
        headerBits (flagMore (UInt8.ofFin n)) (flagCommand (UInt8.ofFin n)) := by
    decide +kernel
  exact hall flags.toFin h

/-- The encoders write a header of the grammar. -/
theorem isWire_frameHeader {f : DecodedFrame} (hf : f.isCommand = true → f.more = false) (hlen : f.body.length < tgt.size) :
    IsWire tgt (frameHeader (headerBits f.more f.isCommand) f.body.length ++ f.body) f := by
  obtain ⟨more, isCommand, body⟩ := f
  simp only at hf hlen ⊢
  have hbits : ∀ long, flagsOk ((if long then 0x02 else 0x00) ||| headerBits more isCommand) = true ∧
      flagLong ((if long then 0x02 else 0x00) ||| headerBits more isCommand) = long ∧
      flagMore ((if long then 0x02 else 0x00) ||| headerBits more isCommand) = more ∧
      flagCommand ((if long then 0x02 else 0x00) ||| headerBits more isCommand) = isCommand := by
    intro long
    cases isCommand with
    | false => cases more <;> cases long <;> decide
    | true =>
      rw [hf rfl]
      cases long <;> decide
  unfold frameHeader
  split
  · rename_i hshort
    obtain ⟨hok, hl, hm, hc⟩ := hbits false
    have h0 : (0x00 : UInt8) ||| headerBits more isCommand = headerBits more isCommand := UInt8.zero_or
    simp only [Bool.false_eq_true, if_false, h0] at hok hl hm hc
    refine ⟨headerBits more isCommand, [UInt8.ofNat body.length], hok, by rw [hl]; rfl, rfl, hm.symm, hc.symm, ?_⟩
    have hbyte : (UInt8.ofNat body.length).toNat = body.length := by
      rw [UInt8.toNat_ofNat']
      omega
    rw [hl, bodyLen, if_neg Bool.false_ne_true, List.headD_cons, hbyte]
  · obtain ⟨hok, hl, hm, hc⟩ := hbits true
    simp only [if_true] at hok hl hm hc
    refine ⟨0x02 ||| headerBits more isCommand, beBytes 8 body.length, hok, by rw [hl, beBytes_length]; rfl, rfl, hm.symm,
      hc.symm, ?_⟩
    have h64 : body.length < 256 ^ 8 := Nat.lt_of_lt_of_le hlen tgt.size_le
    rw [hl, bodyLen, if_pos rfl, beNat_beBytes h64, Target.cast_of_lt hlen]

/-- A short header is the one that the encoders write. -/
theorem frameHeader_of_short {flags : UInt8} {size : List UInt8} {f : DecodedFrame} (hok : flagsOk flags = true)
    (hshort : flagLong flags = false) (hl : size.length = sizeNeeded (flagLong flags)) (hm : f.more = flagMore flags)
    (hc : f.isCommand = flagCommand flags) (hb : f.body.length = bodyLen tgt (flagLong flags) size) :
    frameHeader (headerBits f.more f.isCommand) f.body.length = flags :: size := by
  have hflags := flags_eq hok
  rw [hshort] at hl hb hflags
  obtain ⟨b, rfl⟩ := List.length_eq_one_iff.mp hl
  have hlen : f.body.length = b.toNat := hb
  have hb256 := b.toNat_lt
  rw [frameHeader, if_pos (by omega), hlen, hm, hc, UInt8.ofNat_toNat]
  rw [if_neg Bool.false_ne_true, UInt8.zero_or] at hflags
  rw [← hflags]

/-- A long header is the one that the encoders write when the short form would not do, and no part of its size is lost. -/
theorem frameHeader_of_long {flags : UInt8} {size : List UInt8} {f : DecodedFrame} (hok : flagsOk flags = true)
    (hlong : flagLong flags = true) (hl : size.length = sizeNeeded (flagLong flags)) (hm : f.more = flagMore flags)
    (hc : f.isCommand = flagCommand flags) (hb : f.body.length = bodyLen tgt (flagLong flags) size) :
    frameHeader (headerBits f.more f.isCommand) f.body.length = flags :: size ↔
      255 < f.body.length ∧ beNat size < tgt.size := by
  have hflags := flags_eq hok
  rw [hlong] at hl hb hflags
  have hl : size.length = 8 := hl
  have hlen : f.body.length = tgt.cast (beNat size) := hb
  have hlt : f.body.length < tgt.size := by
    rw [hlen]
    exact Nat.mod_lt _ tgt.size_pos
  constructor
  · intro h
    have hlength := congrArg List.length h
    rw [frameHeader_length, List.length_cons, hl] at hlength
    have h255 : ¬f.body.length ≤ 255 := by
      intro hle
      rw [if_pos hle] at hlength
      omega
    rw [frameHeader, if_neg h255, List.cons.injEq] at h
    refine ⟨by omega, ?_⟩
    have h64 : f.body.length < 256 ^ 8 := Nat.lt_of_lt_of_le hlt tgt.size_le
    rw [← h.2, beNat_beBytes h64]
    exact hlt
  · rintro ⟨h255, hsize⟩
    rw [Target.cast_of_lt hsize] at hlen
    have hbytes : beBytes 8 (beNat size) = size := by
      rw [← hl]
      exact beBytes_beNat size
    rw [frameHeader, if_neg (by omega), hlen, hbytes, hm, hc]
    rw [if_pos rfl] at hflags
    rw [← hflags]

end Mzmq
