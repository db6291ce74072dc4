import Mzmq.Lib.Writer
import Mzmq.Lemmas.Bounds
import Mzmq.Lemmas.Publish
import Mzmq.Outbound
import Mzmq.Peer

/-!
# Outputs are all or nothing

Each call that writes into an output buffer writes all of its bytes and sets its flag, or fails and changes neither the
connection nor the buffer. What it would have written it writes into a buffer that is large enough, when it is called again.
-/

namespace Mzmq

open Checked Writer

/-- The errors that say that an output buffer is too small. -/
def ConnError.isBufferTooSmall : ConnError → Bool
  | .bufferTooSmall => true
  | .nullError e => e == .bufferTooSmall
  | .plainError e => e == .bufferTooSmall
  | .frameError e => e == .bufferTooSmall
  | _ => false

namespace Conn

variable {τ : Type} {cap : Nat}

/-- A call that writes into an output buffer. -/
inductive OutputCall where
  | writeGreeting
  | writeReady
  | writeWelcome
  | writePong
  | writeError
  | publish (topic payload : List UInt8)

/-- Make the call: the number of bytes that it reports, which is none when no PONG is pending. -/
def output (R : Role τ) (tgt : Target) (c : Conn τ cap) : OutputCall → List UInt8 → Conn τ cap × List UInt8 × Res ConnError Nat
  | .writeGreeting, out => c.writeGreeting out
  | .writeReady, out => c.writeReady R out
  | .writeWelcome, out => c.writeWelcome out
  | .writePong, out => let r := c.writePong out; (r.1, r.2.1, r.2.2.map (·.getD 0))
  | .writeError, out => let r := writeError out; (c, r.1, r.2)
  | .publish topic payload, out => let r := c.publish R tgt topic payload out; (c, r.1, r.2)

variable {R : Role τ} {tgt : Target} {c : Conn τ cap}

/-- The call writes all of `bytes` and leaves `c'`, or fails and changes nothing. -/
abbrev Atomic (R : Role τ) (tgt : Target) (c c' : Conn τ cap) (k : OutputCall) (bytes : List UInt8) : Prop :=
  AllOrNothing ConnError.isBufferTooSmall (c.output R tgt k) c c' bytes

/-! ## The handshake -/

theorem atomic_writeGreeting (R : Role τ) (tgt : Target) (c : Conn τ cap) : ∃ c' bytes, Atomic R tgt c c' .writeGreeting bytes := by
  by_cases h : c.state ≠ .greeting ∨ c.ourGreetingSent = true
  · refine ⟨c, [], AllOrNothing.refused (e := .wrongState) rfl ?_⟩
    intro out
    rw [output, writeGreeting, if_pos h]
  · have hlen : (greetingBytes c.mechanism).length = greetingLen := by
      cases c.mechanism <;> decide
    refine ⟨{ c with ourGreetingSent := true }, greetingBytes c.mechanism, AllOrNothing.of_eq (e := .bufferTooSmall) ?_⟩
    intro out
    rw [output, writeGreeting, if_neg h, hlen]
    cases c.mechanism <;> rfl

theorem atomic_writeReady (R : Role τ) (tgt : Target) (c : Conn τ cap) : ∃ c' bytes, Atomic R tgt c c' .writeReady bytes := by
  by_cases h : c.inReadyState = true ∧ c.ourReadySent = false
  · refine ⟨{ c with ourReadySent := true }, R.readyFrame, AllOrNothing.of_eq (e := .bufferTooSmall) ?_⟩
    intro out
    by_cases hlt : out.length < R.readyFrame.length
    · simp only [output, writeReady, h, if_pos hlt, Bool.true_eq_false, Bool.false_eq_true, if_false]
    · rw [if_neg hlt]
      exact writeReady_ok h.1 h.2 (Nat.le_of_not_lt hlt)
  · refine ⟨c, [], AllOrNothing.refused (e := .wrongState) rfl ?_⟩
    intro out
    exact writeReady_refused h out

theorem atomic_writeWelcome (R : Role τ) (tgt : Target) (c : Conn τ cap) : ∃ c' bytes, Atomic R tgt c c' .writeWelcome bytes := by
  by_cases h : c.state ≠ .plainReady ∨ c.ourWelcomeSent = true
  · refine ⟨c, [], AllOrNothing.refused (e := .wrongState) rfl ?_⟩
    intro out
    rw [output, writeWelcome, if_pos h]
  · refine ⟨{ c with ourWelcomeSent := true }, welcomeFrame,
      AllOrNothing.of_eq (e := .plainError .bufferTooSmall) ?_⟩
    intro out
    rw [output, writeWelcome, if_neg h, encodeWelcome]
    by_cases hlt : out.length < welcomeFrame.length
    · rw [if_pos hlt, if_pos hlt]
    · rw [if_neg hlt, if_neg hlt]

/-! ## PONG and ERROR -/

theorem atomic_writePong (R : Role τ) (tgt : Target) (hf : c.PongFits) : ∃ c' bytes, Atomic R tgt c c' .writePong bytes := by
  cases hp : c.pendingPong with
  | none =>
    refine ⟨c, [], AllOrNothing.silent ?_⟩
    intro out
    simp only [output, writePong_none hp]
    rfl
  | some p =>
    obtain ⟨ctx, n⟩ := p
    refine ⟨{ c with pendingPong := none }, pongFrame (ctx.toList.take n), AllOrNothing.of_eq (e := .bufferTooSmall) ?_⟩
    intro out
    simp only [output, writePong_some hp (hf ctx n hp)]
    by_cases hlt : out.length < (pongFrame (ctx.toList.take n)).length
    · simp only [if_pos hlt]
      rfl
    · simp only [if_neg hlt]
      rfl

theorem atomic_writeError (R : Role τ) (tgt : Target) (c : Conn τ cap) : ∃ c' bytes, Atomic R tgt c c' .writeError bytes := by
  refine ⟨c, errorFrame, AllOrNothing.of_eq (e := .nullError .bufferTooSmall) ?_⟩
  intro out
  have hsize : 2 + (1 + 5 + 1 + invalidSocketType.length) = errorFrame.length := by decide
  have hshort : ¬1 + 5 + 1 + invalidSocketType.length > 255 := by decide
  simp only [output, writeError, encodeError, if_neg hshort, hsize]
  by_cases hlt : out.length < errorFrame.length
  · simp only [if_pos hlt]
  · simp only [if_neg hlt]
    rfl

/-! ## Publishing -/

/-- A sum ends with a number that is no larger than the exact one, as it may wrap around, or with a panic. -/
theorem add_cases (ε : Type) (tgt : Target) (a b : Nat) :
    (∃ n, tgt.add (ε := ε) a b = .ok n ∧ n ≤ a + b) ∨ tgt.add (ε := ε) a b = .error .panic := by
  unfold Target.add
  split
  · exact .inl ⟨_, rfl, Nat.le_refl _⟩
  · split
    · exact .inr rfl
    · exact .inl ⟨_, rfl, Nat.mod_le _ _⟩

/-- So does the sum of the four lengths of a publish. -/
theorem publishTotal_cases (tgt : Target) (topic payload : List UInt8) :
    (∃ n, (do
      let n ← tgt.add (topicHeader topic).length topic.length
      let n ← tgt.add n (payloadHeader payload).length
      tgt.add n payload.length : Res ConnError Nat) = .ok n ∧ n ≤ (publishBytes topic payload).length) ∨
    (do
      let n ← tgt.add (topicHeader topic).length topic.length
      let n ← tgt.add n (payloadHeader payload).length
      tgt.add n payload.length : Res ConnError Nat) = .error .panic := by
  rcases add_cases ConnError tgt (topicHeader topic).length topic.length with ⟨n1, h1, hle1⟩ | h1
  · rcases add_cases ConnError tgt n1 (payloadHeader payload).length with ⟨n2, h2, hle2⟩ | h2
    · rcases add_cases ConnError tgt n2 payload.length with ⟨n3, h3, hle3⟩ | h3
      · refine .inl ⟨n3, by simp only [bind, Except.bind, h1, h2, h3], ?_⟩
        rw [publishBytes_length]
        omega
      · exact .inr (by simp only [bind, Except.bind, h1, h2, h3])
    · exact .inr (by simp only [bind, Except.bind, h1, h2])
  · exact .inr (by simp only [bind, Except.bind, h1])

/-- A copy fits and keeps the size of the buffer, or it panics. -/
theorem copyOut_cases (out : List UInt8) (start : Nat) (src : List UInt8) :
    (start + src.length ≤ out.length ∧ ∃ out', copyOut out start src = .ok out' ∧ out'.length = out.length) ∨
      copyOut out start src = .error .panic := by
  by_cases h : start + src.length ≤ out.length
  · exact .inl ⟨h, _, copyOut_ok h, splice_length h⟩
  · exact .inr (if_neg h)

/-- Four copies, one behind the other, that do not fit together panic. -/
theorem copyOut_four_panic {out a b c d : List UInt8} (h : out.length < (a ++ b ++ (c ++ d)).length) :
    (do
      let out ← copyOut out 0 a
      let out ← copyOut out a.length b
      let out ← copyOut out (a.length + b.length) c
      copyOut out (a.length + b.length + c.length) d : Res ConnError (List UInt8)) = .error .panic := by
  simp only [List.length_append] at h
  rcases copyOut_cases out 0 a with ⟨_, out1, h1, l1⟩ | h1
  · rcases copyOut_cases out1 a.length b with ⟨_, out2, h2, l2⟩ | h2
    · rcases copyOut_cases out2 (a.length + b.length) c with ⟨_, out3, h3, l3⟩ | h3
      · rcases copyOut_cases out3 (a.length + b.length + c.length) d with ⟨hfit, _⟩ | h4
        · omega
        · simp only [bind, Except.bind, h1, h2, h3, h4]
      · simp only [bind, Except.bind, h1, h2, h3]
    · simp only [bind, Except.bind, h1, h2]
  · simp only [bind, Except.bind, h1]

/-- What a publish of an established connection whose table matches does: it panics with every buffer, or it looks at the sum
of the lengths, which is no larger than the exact one, and writes all of its bytes or panics. -/
theorem publish_cases (hs : c.state = .established) {topic : List UInt8} (hm : R.matchesKey c.table topic = true)
    (tgt : Target) (payload : List UInt8) :
    (∀ out, c.publish R tgt topic payload out = (out, .error .panic)) ∨
    ∃ n ≤ (publishBytes topic payload).length, ∀ out, c.publish R tgt topic payload out =
      if out.length < n then (out, .error (.err .bufferTooSmall))
      else if out.length < (publishBytes topic payload).length then (out, .error .panic)
      else (splice out 0 (publishBytes topic payload), .ok (publishBytes topic payload).length) := by
  obtain ⟨th, ph, hok, hth, hph⟩ := publishHeaders_ok hs hm payload
  rcases publishTotal_cases tgt topic payload with ⟨n, hn, hle⟩ | hn
  · refine .inr ⟨n, hle, ?_⟩
    intro out
    unfold publish
    rw [hok]
    simp only [hn, hth, hph]
    by_cases hlt : out.length < n
    · rw [if_pos hlt, if_pos hlt]
    · rw [if_neg hlt, if_neg hlt]
      by_cases hfit : out.length < (publishBytes topic payload).length
      · rw [copyOut_four_panic hfit, if_pos hfit]
      · rw [copyOut_four (Nat.le_of_not_lt hfit), if_neg hfit, publishBytes_length]
        rfl
  · refine .inl ?_
    intro out
    unfold publish
    rw [hok]
    simp only [hn]

theorem atomic_publish (R : Role τ) (tgt : Target) (c : Conn τ cap) (topic payload : List UInt8) :
    ∃ c' bytes, Atomic R tgt c c' (.publish topic payload) bytes := by
  by_cases hs : c.state = .established
  · cases hm : R.matchesKey c.table topic with
    | false =>
      refine ⟨c, [], AllOrNothing.silent ?_⟩
      intro out
      simp only [output, publish, publishHeaders_none hs hm]
    | true =>
      refine ⟨c, publishBytes topic payload, ?_⟩
      rcases publish_cases hs hm tgt payload with hpanic | ⟨n, hle, heq⟩
      · exact AllOrNothing.panics fun out => by simp only [output, hpanic]
      · refine AllOrNothing.of_eq_panic (e := .bufferTooSmall) hle ?_
        intro out
        simp only [output, heq]
        split
        · rfl
        · split <;> rfl
  · refine ⟨c, [], AllOrNothing.refused (e := .wrongState) rfl ?_⟩
    intro out
    simp only [output, publish, publishHeaders, if_pos hs]

/-! ## Feeding -/

/-- A feed that returns `WrongState` has not done anything. -/
theorem feed_wrongState (hb : c.Bounded) (tgt : Target) {input : List UInt8} {c' : Conn τ cap}
    (h : c.feed R tgt input = (c', .error (.err .wrongState))) : c' = c := by
  have hframe : ∀ {handle : Conn τ cap → DecodedFrame → Conn τ cap × Res ConnError Unit},
      (∀ d f, (handle (c.withDecoder d) f).2 ≠ .error (.err .wrongState)) →
      (feedFrame tgt c input handle).2 ≠ .error (.err .wrongState) := by
    intro handle hh hfeed
    rcases feedFrame_cases hb.decoder tgt input handle with ⟨d, n, _, he⟩ | ⟨d, e, _, he⟩ | ⟨d, n, f, _, _, he⟩
    · rw [he] at hfeed
      cases hfeed
    · rw [he] at hfeed
      cases hfeed
    · rw [he] at hfeed
      have hno := hh d f
      rcases ho : handle (c.withDecoder d) f with ⟨c1, e | u⟩ <;> rw [ho] at hfeed hno
      · cases hfeed
        exact hno rfl
      · cases hfeed
  rcases c.feed_stage with hs | hs | hs | hs | hs
  · rw [feed_greeting R tgt input hs] at h
    obtain ⟨buf, _, ⟨e, he, _⟩ | ⟨_, _, he⟩ | ⟨pg, _, _, he⟩⟩ := feedGreeting_spec hb.greeting input <;> rw [he] at h <;>
      cases h
  · rw [feed_hello R tgt input hs] at h
    refine absurd (congrArg Prod.snd h) (hframe ?_)
    intro d f
    rcases onHello_spec (c.withDecoder d) f with ⟨_, _, _, _, he⟩ | ⟨_, _, _, _, he⟩ | ⟨e, _, he⟩ <;> rw [he] <;>
      exact fun hno => by cases hno
  · rw [feed_awaiting R tgt input hs] at h
    refine absurd (congrArg Prod.snd h) (hframe ?_)
    intro d f
    rcases onReady_spec R tgt (c.withDecoder d) f with ⟨_, _, _, he⟩ | ⟨_, _, he⟩ | ⟨flt, _, _, hab, he⟩ <;> rw [he]
    · exact fun hno => by cases hno
    · exact fun hno => by cases hno
    · cases flt with
      | err e => cases hab
      | panic => exact fun hno => by cases hno
      | hang => exact fun hno => by cases hno
  · rw [feed_established R tgt input hs] at h
    refine absurd (congrArg Prod.snd h) (hframe ?_)
    intro d f
    obtain ⟨t, pong, he, _⟩ := onEstablished_spec R (c.withDecoder d) f
    rw [he]
    exact fun hno => by cases hno
  · rw [feed_refused R tgt input hs] at h
    cases h
    rfl

/-- All outputs of the connection are all or nothing, and a feed that is refused does nothing. -/
structure OutputsAtomic (R : Role τ) (tgt : Target) (c : Conn τ cap) : Prop where
  output : ∀ k, ∃ c' bytes, Atomic R tgt c c' k bytes
  behind : ∀ k out c' out' n, c.output R tgt k out = (c', out', .ok n) →
    n ≤ out.length ∧ out'.length = out.length ∧ out'.drop n = out.drop n
  feed : ∀ input c', c.feed R tgt input = (c', .error (.err .wrongState)) → c' = c

theorem Bounded.outputsAtomic (hb : c.Bounded) (R : Role τ) (tgt : Target) : c.OutputsAtomic R tgt := by
  have hout : ∀ k, ∃ c' bytes, Atomic R tgt c c' k bytes := by
    intro k
    cases k with
    | writeGreeting => exact atomic_writeGreeting R tgt c
    | writeReady => exact atomic_writeReady R tgt c
    | writeWelcome => exact atomic_writeWelcome R tgt c
    | writePong => exact atomic_writePong R tgt hb.pong
    | writeError => exact atomic_writeError R tgt c
    | publish topic payload => exact atomic_publish R tgt c topic payload
  refine ⟨hout, ?_, fun _ _ h => feed_wrongState hb tgt h⟩
  intro k out c' out' n h
  obtain ⟨_, _, hk⟩ := hout k
  exact hk.drop h

end Conn

/-- Failed outputs are atomic and can be repeated, in every connection that a run reaches. -/
theorem outputs_atomic (V : Type → Nat → Type) [FixedVec V] (tgt : Target) (tableCap nameCap frameCap : Nat) :
    (∀ c0 : Connection V tableCap nameCap frameCap, c0.Fresh Connection.role →
      ∀ h c, ConnRun Connection.role tgt c0 h c → c.OutputsAtomic Connection.role tgt) ∧
    ∀ c0 : RadioConnection V tableCap nameCap frameCap, c0.Fresh RadioConnection.role →
      ∀ h c, ConnRun RadioConnection.role tgt c0 h c → c.OutputsAtomic RadioConnection.role tgt := by
  refine ⟨?_, ?_⟩
  · intro c0 h0 h c hr
    exact (Conn.bounded_of_run h0 hr).outputsAtomic Connection.role tgt
  · intro c0 h0 h c hr
    exact (Conn.bounded_of_run h0 hr).outputsAtomic RadioConnection.role tgt

/-- A pending PONG is not lost on four bytes, and READY not on a second buffer of 26: both are written when they fit. -/
theorem outputs_atomic_short_buffers :
    let pub := (Run.exec (Conn.apply Connection.role ⟨.w64, false⟩) Conn.OpResult.halts
      (Connection.new : Connection BVec 2 8 32)
      (Peer.opening ++ [.feed Peer.subReady, .feed (Peer.commandFrame pingName [0, 0, 0x70])])).2
    let radio := (Run.exec (Conn.apply RadioConnection.role ⟨.w64, false⟩) Conn.OpResult.halts
      (RadioConnection.new : RadioConnection BVec 2 8 32) (Peer.opening.take 2)).2
    (∃ c' bytes, 4 < bytes.length ∧ ∀ out, bytes.length ≤ out.length →
      pub.output Connection.role ⟨.w64, false⟩ .writePong out = (c', splice out 0 bytes, .ok bytes.length)) ∧
    ∃ c' bytes, 26 < bytes.length ∧ ∀ out, bytes.length ≤ out.length →
      radio.output RadioConnection.role ⟨.w64, false⟩ .writeReady out = (c', splice out 0 bytes, .ok bytes.length) := by
  intro pub radio
  obtain ⟨hpub, hradio⟩ := outputs_atomic BVec ⟨.w64, false⟩ 2 8 32
  obtain ⟨c1, pong, hpong⟩ := (hpub _ (.inl rfl) _ _ (Run.runs_exec _ _)).output .writePong
  obtain ⟨c2, ready, hready⟩ := (hradio _ (.inl rfl) _ _ (Run.runs_exec _ _)).output .writeReady
  have hsmall : (pub.output Connection.role ⟨.w64, false⟩ .writePong (List.replicate 4 0)).2.2 =
      .error (.err .bufferTooSmall) := by decide +kernel
  have hsmall' : (radio.output RadioConnection.role ⟨.w64, false⟩ .writeReady (List.replicate 26 0)).2.2 =
      .error (.err .bufferTooSmall) := by decide +kernel
  obtain ⟨hlt, hagain⟩ := hpong.retry (Prod.ext rfl (Prod.ext rfl hsmall)) rfl
  obtain ⟨hlt', hagain'⟩ := hready.retry (Prod.ext rfl (Prod.ext rfl hsmall')) rfl
  exact ⟨⟨c1, pong, hlt, fun out => hagain out⟩, c2, ready, hlt', fun out => hagain' out⟩

end Mzmq
