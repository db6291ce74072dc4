import Mzmq.Lemmas.Header
import Mzmq.Conn

/-!
# What a publish writes

A publish is two frames: the topic with MORE, and the payload (`publishBytes`). The connection hands out their headers, or
writes both frames into a buffer.
-/

namespace Mzmq

open Checked

/-- The header of the topic, and that of the payload. -/
def topicHeader (topic : List UInt8) : List UInt8 := frameHeader (headerBits true false) topic.length
def payloadHeader (payload : List UInt8) : List UInt8 := frameHeader (headerBits false false) payload.length

/-- The two frames of a publish. -/
def publishBytes (topic payload : List UInt8) : List UInt8 := topicHeader topic ++ topic ++ (payloadHeader payload ++ payload)

theorem publishBytes_length (topic payload : List UInt8) : (publishBytes topic payload).length =
    (topicHeader topic).length + topic.length + (payloadHeader payload).length + payload.length := by
  simp only [publishBytes, List.length_append, Nat.add_assoc]

theorem publishBytes_pos (topic payload : List UInt8) : 0 < (publishBytes topic payload).length := by
  have : 0 < (topicHeader topic).length := by
    rw [topicHeader, frameHeader_length]
    split <;> decide
  rw [publishBytes_length]
  omega

/-- Both are frames of the grammar. -/
theorem isWire_topic {tgt : Target} {topic : List UInt8} (h : topic.length < tgt.size) :
    IsWire tgt (topicHeader topic ++ topic) ⟨true, false, topic⟩ :=
  isWire_frameHeader (f := ⟨true, false, topic⟩) (fun h => by cases h) h

theorem isWire_payload {tgt : Target} {payload : List UInt8} (h : payload.length < tgt.size) :
    IsWire tgt (payloadHeader payload ++ payload) ⟨false, false, payload⟩ :=
  isWire_frameHeader (f := ⟨false, false, payload⟩) (fun h => by cases h) h

namespace Conn

variable {τ : Type} {cap : Nat} {R : Role τ} {c : Conn τ cap}

/-- A message header fits an array of `MAX_FRAME_HEADER` bytes. -/
theorem encodeMessageFrame_ok (n : Nat) (more : Bool) :
    ∃ out, encodeMessageFrame (List.replicate maxFrameHeader 0) n more = (out, .ok (frameHeader (headerBits more false) n).length) ∧
      out.take (frameHeader (headerBits more false) n).length = frameHeader (headerBits more false) n := by
  have hbits : (if more then 0x01 else 0x00 : UInt8) = headerBits more false := by
    cases more <;> rfl
  have hfit : ¬(List.replicate maxFrameHeader (0 : UInt8)).length < (frameHeader (headerBits more false) n).length := by
    rw [List.length_replicate]
    exact Nat.not_lt.mpr (frameHeader_length_le _ _)
  refine ⟨splice (List.replicate maxFrameHeader 0) 0 (frameHeader (headerBits more false) n), ?_, take_splice_zero _ _⟩
  rw [encodeMessageFrame, hbits, encodeFrameHeader_eq, if_neg hfit]

/-- An established connection whose table matches hands out both headers. -/
theorem publishHeaders_ok (h : c.state = .established) {topic : List UInt8} (hm : R.matchesKey c.table topic = true)
    (payload : List UInt8) :
    ∃ th ph, c.publishHeaders R topic payload = .ok (some (th, (topicHeader topic).length, ph, (payloadHeader payload).length)) ∧
      th.take (topicHeader topic).length = topicHeader topic ∧
      ph.take (payloadHeader payload).length = payloadHeader payload := by
  obtain ⟨th, hth, htake⟩ := encodeMessageFrame_ok topic.length true
  obtain ⟨ph, hph, hptake⟩ := encodeMessageFrame_ok payload.length false
  refine ⟨th, ph, ?_, htake, hptake⟩
  rw [publishHeaders, if_neg (by simp [h]), if_neg (by simp [hm]), hth]
  simp only [hph]
  rfl

/-- An established connection whose table does not match hands out nothing. -/
theorem publishHeaders_none (h : c.state = .established) {topic : List UInt8} (hm : R.matchesKey c.table topic = false)
    (payload : List UInt8) : c.publishHeaders R topic payload = .ok none := by
  rw [publishHeaders, if_neg (by simp [h]), if_pos hm]

/-- Only an established connection hands out headers, and they are those of the two frames. -/
theorem publishHeaders_some {topic payload th ph : List UInt8} {thN phN : Nat}
    (h : c.publishHeaders R topic payload = .ok (some (th, thN, ph, phN))) :
    c.state = .established ∧ th.take thN = topicHeader topic ∧ ph.take phN = payloadHeader payload := by
  by_cases hs : c.state = .established
  · cases hm : R.matchesKey c.table topic with
    | false =>
      rw [publishHeaders_none hs hm] at h
      cases h
    | true =>
      obtain ⟨th', ph', hok, htake, hptake⟩ := publishHeaders_ok hs hm payload
      rw [hok] at h
      cases h
      exact ⟨hs, htake, hptake⟩
  · rw [publishHeaders, if_pos hs] at h
    cases h

/-- The sum of the four lengths does not overflow when the whole fits. -/
theorem publishTotal_ok {tgt : Target} {topic payload : List UInt8} (hfit : (publishBytes topic payload).length < tgt.size) :
    (do
      let n ← tgt.add (topicHeader topic).length topic.length
      let n ← tgt.add n (payloadHeader payload).length
      tgt.add n payload.length : Res ConnError Nat) = .ok (publishBytes topic payload).length := by
  rw [publishBytes_length] at hfit ⊢
  rw [Target.add_ok (by omega)]
  simp only [bind, Except.bind]
  rw [Target.add_ok (by omega)]
  simp only
  rw [Target.add_ok (by omega)]

/-- A copy that fits. -/
theorem copyOut_ok {out src : List UInt8} {start : Nat} (h : start + src.length ≤ out.length) :
    copyOut out start src = .ok (splice out start src) := if_pos h

/-- Four copies one behind the other are one copy. -/
theorem copyOut_four {out a b c d : List UInt8} (h : (a ++ b ++ (c ++ d)).length ≤ out.length) :
    (do
      let out ← copyOut out 0 a
      let out ← copyOut out a.length b
      let out ← copyOut out (a.length + b.length) c
      copyOut out (a.length + b.length + c.length) d : Res ConnError (List UInt8)) = .ok (splice out 0 (a ++ b ++ (c ++ d))) := by
  simp only [List.length_append] at h
  have hlen : ∀ src : List UInt8, src.length ≤ out.length → (splice out 0 src).length = out.length :=
    fun src hsrc => splice_length (by omega)
  have hnext : ∀ src more : List UInt8, src.length ≤ out.length →
      splice (splice out 0 src) src.length more = splice out 0 (src ++ more) := by
    intro src more hsrc
    have hfit : 0 + src.length ≤ out.length := by omega
    have : splice (splice out 0 src) (0 + src.length) more = splice out 0 (src ++ more) := splice_splice hfit
    rwa [Nat.zero_add] at this
  rw [copyOut_ok (by omega)]
  simp only [bind, Except.bind]
  rw [copyOut_ok (by rw [hlen a (by omega)]; omega), hnext a b (by omega)]
  have hab : a.length + b.length = (a ++ b).length := List.length_append.symm
  simp only
  rw [copyOut_ok (by rw [hlen (a ++ b) (by rw [List.length_append]; omega)]; omega), hab, hnext (a ++ b) c (by omega)]
  have habc : (a ++ b).length + c.length = (a ++ b ++ c).length := List.length_append.symm
  have hfit : (a ++ b ++ c).length ≤ out.length := by
    simp only [List.length_append]
    omega
  simp only
  rw [habc, copyOut_ok (by rw [hlen _ hfit]; simp only [List.length_append]; omega), hnext _ d hfit, List.append_assoc (a ++ b)]

/-- A publish of an established connection whose table matches, when the whole does not overflow. -/
theorem publish_eq (h : c.state = .established) {tgt : Target} {topic payload : List UInt8}
    (hm : R.matchesKey c.table topic = true) (hfit : (publishBytes topic payload).length < tgt.size) (out : List UInt8) :
    c.publish R tgt topic payload out =
      if out.length < (publishBytes topic payload).length then (out, .error (.err .bufferTooSmall))
      else (splice out 0 (publishBytes topic payload), .ok (publishBytes topic payload).length) := by
  obtain ⟨th, ph, hok, hth, hph⟩ := publishHeaders_ok h hm payload
  have htotal := publishTotal_ok hfit
  unfold publish
  rw [hok]
  simp only [htotal, hth, hph]
  by_cases hlt : out.length < (publishBytes topic payload).length
  · rw [if_pos hlt, if_pos hlt]
  · have hcopy := copyOut_four (Nat.le_of_not_lt hlt)
    rw [if_neg hlt, if_neg hlt, hcopy, publishBytes_length]
    rfl

end Conn
end Mzmq
