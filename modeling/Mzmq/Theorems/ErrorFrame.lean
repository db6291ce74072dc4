import Mzmq.Lemmas.Command
import Mzmq.Lemmas.Header
import Mzmq.Lemmas.Wire

/-!
# The ERROR frame

What `encode_error` writes for a reason that fits one short frame, the decoder reads back whatever follows, and every parser
of the handshake takes for the ERROR of the peer.
-/

namespace Mzmq

open Checked FrameDecoder

/-- The body of ERROR. -/
def errorBody (reason : List UInt8) : List UInt8 := 5 :: (errorName ++ UInt8.ofNat reason.length :: reason)

/-- The frame of ERROR. -/
def errorWire (reason : List UInt8) : List UInt8 := 0x04 :: UInt8.ofNat (errorBody reason).length :: errorBody reason

section ErrorFrame

variable {reason : List UInt8}

theorem errorBody_length (reason : List UInt8) : (errorBody reason).length = 7 + reason.length := by
  simp only [errorBody, errorName, List.length_cons, List.length_append, List.length_nil]
  omega

theorem errorWire_length (reason : List UInt8) : (errorWire reason).length = 9 + reason.length := by
  simp only [errorWire, List.length_cons, errorBody_length]
  omega

theorem named_error (reason : List UInt8) : Named (errorBody reason) errorName := ⟨by decide, _, rfl⟩

/-- What `encode_error` does to every buffer, for every reason. -/
theorem encodeError_eq (buf reason : List UInt8) :
    encodeError buf reason =
      if 248 < reason.length then (buf, .error .reasonTooLong)
      else if buf.length < 9 + reason.length then (buf, .error .bufferTooSmall)
      else (splice buf 0 (errorWire reason), .ok (9 + reason.length)) := by
  have hsize : 1 + 5 + 1 + reason.length = (errorBody reason).length := by rw [errorBody_length]
  have htotal : 2 + (1 + 5 + 1 + reason.length) = 9 + reason.length := by omega
  unfold encodeError
  simp only [htotal]
  by_cases hlong : 248 < reason.length
  · rw [if_pos (by omega), if_pos hlong]
  · rw [if_neg (by omega), if_neg hlong]
    split
    · rfl
    · rw [hsize]
      rfl

/-- The written bytes are the wire form of a command frame. -/
theorem isWire_error (tgt : Target) (h : reason.length ≤ 248) :
    IsWire tgt (errorWire reason) ⟨false, true, errorBody reason⟩ := by
  have hlen := errorBody_length reason
  have hsize := tgt.size_ge
  let f : DecodedFrame := ⟨false, true, errorBody reason⟩
  have hfit : f.body.length < tgt.size := by
    simp only [f]
    omega
  have hshort : f.body.length ≤ 255 := by
    simp only [f]
    omega
  have hwire := isWire_frameHeader (fun _ => rfl) hfit
  rwa [frameHeader, if_pos hshort] at hwire

/-- The raw parser of READY takes the frame for an ERROR of the peer, whatever follows it. -/
theorem parseReady_errorWire (tgt : Target) (h : reason.length ≤ 248) (tail : List UInt8) :
    parseReady tgt (errorWire reason ++ tail) = .error (.err .peerError) := by
  have hlen := errorBody_length reason
  have hbyte : (UInt8.ofNat (errorBody reason).length).toNat = (errorBody reason).length :=
    UInt8.toNat_ofNat_of_lt' (Nat.lt_succ_of_le (by omega))
  have hne : errorBody reason ++ tail ≠ [] := by simp [errorBody]
  have hcommand : flagCommand 0x04 = true := by decide
  rw [parseReady, errorWire, List.cons_append, List.cons_append, parseRaw_cons _ _ _ hne, hbyte,
    if_neg (by rw [List.length_append]; omega), List.take_left, hcommand, parseReadyFrom,
    parseReadyCommand_named tgt (named_error reason), if_pos rfl]
  rfl

end ErrorFrame

/-- ERROR round-trips: `encode_error` fails exactly on a reason or into a buffer of the wrong size, and leaves the buffer as it
was; what it writes otherwise, any decoder between two frames reads back as the ERROR command, and every parser takes for
that. -/
theorem encodeError_roundtrip (tgt : Target) (cap : Nat) (hcap : 255 ≤ cap) (buf reason : List UInt8) :
    ((encodeError buf reason).2 = .error .reasonTooLong ↔ 248 < reason.length) ∧
      ((encodeError buf reason).2 = .error .bufferTooSmall ↔ reason.length ≤ 248 ∧ buf.length < 9 + reason.length) ∧
      (∀ e, (encodeError buf reason).2 = .error e → (encodeError buf reason).1 = buf) ∧
      (reason.length ≤ 248 → 9 + reason.length ≤ buf.length →
        ∃ out, encodeError buf reason = (out, .ok (9 + reason.length)) ∧
          ∀ tail,
            (∀ d : FrameDecoder cap, d.Inv → d.state = .needFlags →
              ∃ d', d.feed tgt (out.take (9 + reason.length) ++ tail) =
                (d', .ok (9 + reason.length, some ⟨false, true, errorBody reason⟩))) ∧
            parseReady tgt (out.take (9 + reason.length) ++ tail) = .error (.err .peerError) ∧
            parseReadyFrom tgt true (errorBody reason) = .error (.err .peerError) ∧
            parseHelloFrom true (errorBody reason) = .error (.err .peerError)) := by
  rw [encodeError_eq]
  by_cases hlong : 248 < reason.length
  · rw [if_pos hlong]
    refine ⟨iff_of_true rfl hlong, iff_of_false (by simp) (by omega), fun _ _ => rfl, ?_⟩
    intro hle _
    omega
  · rw [if_neg hlong]
    by_cases hsmall : buf.length < 9 + reason.length
    · rw [if_pos hsmall]
      refine ⟨iff_of_false (by simp) hlong, iff_of_true rfl ⟨by omega, hsmall⟩, fun _ _ => rfl, ?_⟩
      intro _ hle
      omega
    · rw [if_neg hsmall]
      refine ⟨iff_of_false (by simp) hlong, iff_of_false (by simp) (by omega), by simp, ?_⟩
      intro hle hroom
      refine ⟨_, rfl, ?_⟩
      intro tail
      have htake : (splice buf 0 (errorWire reason)).take (9 + reason.length) = errorWire reason := by
        rw [← errorWire_length, take_splice_zero]
      rw [htake]
      refine ⟨?_, parseReady_errorWire tgt hle tail, ?_, ?_⟩
      · intro d hi hd
        have hbody : (errorBody reason).length ≤ cap := by
          rw [errorBody_length]
          omega
        obtain ⟨d', hfeed, _⟩ := feed_wire hi hd (isWire_error tgt hle) hbody tail
        rw [errorWire_length] at hfeed
        exact ⟨d', hfeed⟩
      · rw [parseReadyFrom, parseReadyCommand_named tgt (named_error reason), if_pos rfl]
        rfl
      · rw [parseHelloFrom_named (named_error reason), if_pos rfl]

/-- The reason `bye`, in a buffer of exactly its size, with the next frame behind it. -/
theorem encodeError_roundtrip_bye :
    let reason := [0x62, 0x79, 0x65]
    ∃ out, encodeError (List.replicate 12 0) reason = (out, .ok 12) ∧
      ∃ d, (FrameDecoder.new : FrameDecoder 255).feed ⟨.w64, false⟩ (out.take 12 ++ [0x00, 0x00]) =
        (d, .ok (12, some ⟨false, true, errorBody reason⟩)) := by
  obtain ⟨_, _, _, hok⟩ := encodeError_roundtrip ⟨.w64, false⟩ 255 (by decide) (List.replicate 12 0) [0x62, 0x79, 0x65]
  obtain ⟨out, he, hread⟩ := hok (by decide) (by decide)
  obtain ⟨hfeed, _⟩ := hread [0x00, 0x00]
  exact ⟨out, he, hfeed FrameDecoder.new inv_new rfl⟩

end Mzmq
