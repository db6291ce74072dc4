import Mzmq.Lemmas.Header

/-!
# Frame headers round-trip

A decoder returns the frame whose header an encoder has written, and leaves what stands behind its body. Encoding the header
of a frame that a decoder returned gives the bytes it was read from, if they use the short form where it would do; but on a
32-bit target the upper half of a long size is lost, and with it the bytes.
-/

namespace Mzmq

open Checked FrameDecoder

variable {tgt : Target} {cap : Nat}

/-- The call of an encoder wrote `header`. -/
def Writes (r : List UInt8 × Except FrameError Nat) (header : List UInt8) : Prop :=
  ∃ buf n, r = (buf, .ok n) ∧ header = buf.take n

/-- Write the header of `f` by the encoder of its kind. -/
def encodeHeaderOf (f : DecodedFrame) (buf : List UInt8) : List UInt8 × Except FrameError Nat :=
  if f.isCommand then encodeCommandFrame buf f.body.length else encodeMessageFrame buf f.body.length f.more

/-- From the frame `f`, the first `n` bytes of the input come back exactly when they use the short form where it would do. -/
def Reencodes (input : List UInt8) (n : Nat) (f : DecodedFrame) : Prop :=
  ∀ buf header, Writes (encodeHeaderOf f buf) header →
    (header ++ f.body = input.take n ↔ (f.body.length ≤ 255 → flagLong (input.headD 0) = false))

/-- A size that is too large for the target, and that the short form would not do for when its upper half is dropped. -/
def LosesSize (tgt : Target) (size : Nat) : Prop := tgt.size ≤ size ∧ 255 < tgt.cast size

/-- What an encoder writes is the header. -/
theorem writes_iff {bits : UInt8} {buf : List UInt8} {n : Nat} {header : List UInt8} :
    Writes (encodeFrameHeader bits buf n) header ↔ (frameHeader bits n).length ≤ buf.length ∧ header = frameHeader bits n := by
  unfold Writes
  rw [encodeFrameHeader_eq]
  constructor
  · rintro ⟨buf', k, h, rfl⟩
    split at h
    · cases h
    · rename_i hfit
      cases h
      exact ⟨Nat.le_of_not_lt hfit, take_splice_zero buf _⟩
  · rintro ⟨hfit, rfl⟩
    rw [if_neg (Nat.not_lt.mpr hfit)]
    exact ⟨_, _, rfl, (take_splice_zero buf _).symm⟩

theorem encodeHeaderOf_eq (f : DecodedFrame) (buf : List UInt8) :
    encodeHeaderOf f buf = encodeFrameHeader (headerBits f.more f.isCommand) buf f.body.length := by
  unfold encodeHeaderOf headerBits
  cases f.isCommand <;> rfl

/-- A fresh decoder returns the frame whose header was written. -/
theorem feed_of_writes (hcap : cap < tgt.size) {f : DecodedFrame} (hf : f.isCommand = true → f.more = false)
    (hlen : f.body.length ≤ cap) {buf header : List UInt8} (hw : Writes (encodeHeaderOf f buf) header) (tail : List UInt8) :
    ∃ d, (new : FrameDecoder cap).feed tgt (header ++ f.body ++ tail) = (d, .ok ((header ++ f.body).length, some f)) := by
  rw [encodeHeaderOf_eq, writes_iff] at hw
  obtain ⟨_, rfl⟩ := hw
  obtain ⟨d, hd, _⟩ :=
    feed_wire inv_new rfl (isWire_frameHeader hf (Nat.lt_of_le_of_lt hlen hcap)) hlen tail
  exact ⟨d, hd⟩

/-- A frame that a fresh decoder returns is on the wire in what it has consumed. -/
theorem isWire_of_feed {input : List UInt8} {d : FrameDecoder cap} {n : Nat} {f : DecodedFrame}
    (h : (new : FrameDecoder cap).feed tgt input = (d, .ok (n, some f))) : IsWire tgt (input.take n) f := by
  rcases feed_spec tgt inv_new pending_new input with ⟨d', ho, _⟩ | ⟨d', n', f', ho, _, _, _, _, hw, _⟩ | ⟨d', e, ho, _⟩
  · rw [ho] at h
    cases h
  · rw [ho] at h
    cases h
    exact hw
  · rw [ho] at h
    cases h

/-- Whether the bytes of a frame come back depends on its header. -/
theorem reencodes_iff_header {input size : List UInt8} {n : Nat} {f : DecodedFrame} {flags : UInt8}
    (hwire : input.take n = flags :: (size ++ f.body)) (hhead : input.headD 0 = flags) :
    Reencodes input n f ↔ (frameHeader (headerBits f.more f.isCommand) f.body.length = flags :: size ↔
      (f.body.length ≤ 255 → flagLong flags = false)) := by
  have hcancel : ∀ header : List UInt8, header ++ f.body = input.take n ↔ header = flags :: size := by
    intro header
    rw [hwire, ← List.cons_append]
    exact List.append_left_inj f.body
  constructor
  · intro hre
    have hwrites : Writes (encodeHeaderOf f (List.replicate maxFrameHeader 0))
        (frameHeader (headerBits f.more f.isCommand) f.body.length) := by
      rw [encodeHeaderOf_eq, writes_iff, List.length_replicate]
      exact ⟨frameHeader_length_le _ _, rfl⟩
    have := hre _ _ hwrites
    rwa [hcancel, hhead] at this
  · intro hre buf header hw
    rw [encodeHeaderOf_eq, writes_iff] at hw
    rw [hcancel, hhead, hw.2]
    exact hre

/-- The header in front of a stream is the only one. -/
theorem longHeader_iff {P : Nat → Prop} {flags : UInt8} {size rest : List UInt8} (hok : flagsOk flags = true)
    (hl : size.length = sizeNeeded (flagLong flags)) :
    LongHeader P (flags :: (size ++ rest)) ↔ flagLong flags = true ∧ P (beNat size) := by
  constructor
  · rintro ⟨flags', size', rest', hi, _, hlong, hl', hp⟩
    rw [List.cons.injEq] at hi
    rw [← hi.1] at hlong
    rw [hlong] at hl
    have hl8 : size.length = 8 := hl
    rw [(List.append_inj hi.2 (hl8.trans hl'.symm)).1]
    exact ⟨hlong, hp⟩
  · rintro ⟨hlong, hp⟩
    rw [hlong] at hl
    exact ⟨flags, size, rest, rfl, hok, hlong, hl, hp⟩

/-- The frame that a fresh decoder returns gives its bytes back, unless a part of its size was lost. -/
theorem reencodes_iff {input : List UInt8} {d : FrameDecoder cap} {n : Nat} {f : DecodedFrame}
    (h : (new : FrameDecoder cap).feed tgt input = (d, .ok (n, some f))) :
    Reencodes input n f ↔ ¬LongHeader (LosesSize tgt) input := by
  obtain ⟨flags, size, hok, hl, hwire, hm, hc, hb⟩ := isWire_of_feed h
  have hinput : input = flags :: (size ++ (f.body ++ input.drop n)) := by
    rw [← List.append_assoc, ← List.cons_append, ← hwire, List.take_append_drop]
  have hhead : input.headD 0 = flags := by rw [hinput, List.headD_cons]
  have hheader : LongHeader (LosesSize tgt) input ↔ flagLong flags = true ∧ LosesSize tgt (beNat size) := by
    rw [hinput]
    exact longHeader_iff hok hl
  rw [reencodes_iff_header hwire hhead, hheader]
  cases hlong : flagLong flags with
  | false =>
    -- The short form is what the encoder writes.
    have heq := frameHeader_of_short hok hlong hl hm hc hb
    exact ⟨fun _ hno => (by cases hno.1), fun _ => ⟨fun _ _ => rfl, fun _ => heq⟩⟩
  | true =>
    have heq := frameHeader_of_long hok hlong hl hm hc hb
    have hbody : f.body.length = tgt.cast (beNat size) := by rw [hb, hlong]; rfl
    rw [heq, and_iff_right rfl, LosesSize, ← hbody]
    constructor
    · rintro hre ⟨hsize, h255⟩
      have := (hre.mpr fun hle => absurd h255 (Nat.not_lt.mpr hle)).2
      omega
    · intro hno
      constructor
      · rintro ⟨h255, _⟩ hle
        omega
      · intro hshort
        have h255 : 255 < f.body.length := by
          by_contra hle
          cases hshort (Nat.le_of_not_lt hle)
        exact ⟨h255, Nat.lt_of_not_le fun hsize => hno ⟨hsize, h255⟩⟩

/-- No size is too large for a 64-bit target. -/
theorem not_losesSize {s : List UInt8} (h : tgt.width = .w64) : ¬LongHeader (LosesSize tgt) s := by
  rintro ⟨flags, size, rest, _, _, _, hl, hsize, _⟩
  have hlt := beNat_lt size
  rw [hl] at hlt
  rw [Target.size_w64 (by simp [h])] at hsize
  omega

/-- A fresh decoder returns every frame whose header an encoder has written, and nothing of what stands behind it is consumed.
The bytes of a frame that it returns come back from the encoder, if they use the short form where it would do, exactly when
no part of a long size is lost, which never happens on a 64-bit target. -/
theorem frame_headers_round_trip_iff (tgt : Target) {cap : Nat} (hcap : cap < tgt.size) :
    (∀ buf n more, maxFrameHeader ≤ buf.length →
      (∃ header, Writes (encodeMessageFrame buf n more) header) ∧ ∃ header, Writes (encodeCommandFrame buf n) header) ∧
    (∀ body more buf header tail, body.length ≤ cap → Writes (encodeMessageFrame buf body.length more) header →
      ∃ d, (new : FrameDecoder cap).feed tgt (header ++ body ++ tail) =
        (d, .ok ((header ++ body).length, some ⟨more, false, body⟩))) ∧
    (∀ body buf header tail, body.length ≤ cap → Writes (encodeCommandFrame buf body.length) header →
      ∃ d, (new : FrameDecoder cap).feed tgt (header ++ body ++ tail) =
        (d, .ok ((header ++ body).length, some ⟨false, true, body⟩))) ∧
    (∀ input d n f, (new : FrameDecoder cap).feed tgt input = (d, .ok (n, some f)) →
      (Reencodes input n f ↔ ¬LongHeader (LosesSize tgt) input)) ∧
    (tgt.width = .w64 → ∀ input, ¬LongHeader (LosesSize tgt) input) := by
  refine ⟨?_, ?_, ?_, ?_, fun h input => not_losesSize h⟩
  · intro buf n more hbuf
    exact ⟨⟨_, writes_iff.mpr ⟨Nat.le_trans (frameHeader_length_le _ n) hbuf, rfl⟩⟩,
      _, writes_iff.mpr ⟨Nat.le_trans (frameHeader_length_le _ n) hbuf, rfl⟩⟩
  · intro body more buf header tail hlen hw
    exact feed_of_writes (f := ⟨more, false, body⟩) hcap (fun h => by cases h) hlen hw tail
  · intro body buf header tail hlen hw
    exact feed_of_writes (f := ⟨false, true, body⟩) hcap (fun _ => rfl) hlen hw tail
  · intro input d n f h
    exact reencodes_iff h

/-- The header of a long frame that declares 2^32 + 256 bytes. -/
def lostSize : List UInt8 := [0x02, 0, 0, 0, 1, 0, 0, 1, 0]

/-- On a 32-bit target a frame of 256 bytes is read behind this header, which does not come back. -/
theorem frame_header_not_reencoded :
    ¬∀ input d n f, (new : FrameDecoder 256).feed ⟨.w32, false⟩ input = (d, .ok (n, some f)) → Reencodes input n f := by
  intro hall
  obtain ⟨body, hbody⟩ : ∃ body : List UInt8, body.length = 256 := ⟨List.replicate 256 0x41, List.length_replicate⟩
  have hwire : IsWire ⟨.w32, false⟩ (lostSize ++ body) ⟨false, false, body⟩ :=
    ⟨0x02, lostSize.tail, rfl, rfl, rfl, rfl, rfl, hbody.trans (by decide)⟩
  have hlost : LongHeader (LosesSize ⟨.w32, false⟩) (lostSize ++ body ++ []) :=
    ⟨0x02, lostSize.tail, body ++ [], by simp [lostSize], rfl, rfl, rfl, by decide, by decide⟩
  obtain ⟨d, hfeed, _⟩ :=
    feed_wire (inv_new : (new : FrameDecoder 256).Inv) rfl hwire (Nat.le_of_eq hbody) []
  exact (reencodes_iff hfeed).mp (hall _ _ _ _ hfeed) hlost

/-- A frame of two bytes goes through the decoder and back. -/
theorem frame_headers_round_trip_iff_short :
    Reencodes [0x01, 0x02, 0x41, 0x42, 0x00] 4 ⟨true, false, [0x41, 0x42]⟩ ∧
      ∃ d, (new : FrameDecoder 4).feed ⟨.w64, false⟩ ([0x01, 0x02] ++ [0x41, 0x42] ++ [0x00]) =
        (d, .ok (4, some ⟨true, false, [0x41, 0x42]⟩)) := by
  obtain ⟨_, hmessage, _, hback, h64⟩ := frame_headers_round_trip_iff ⟨.w64, false⟩ (show 4 < 2 ^ 64 by decide)
  have hwrites : Writes (encodeMessageFrame [0, 0] 2 true) [0x01, 0x02] := ⟨_, 2, rfl, rfl⟩
  obtain ⟨d, hd⟩ := hmessage [0x41, 0x42] true [0, 0] [0x01, 0x02] [0x00] (by decide) hwrites
  exact ⟨(hback _ d _ _ hd).mpr (h64 rfl _), d, hd⟩

end Mzmq
