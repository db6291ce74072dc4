import Mzmq.Lemmas.Run
import Mzmq.Lemmas.Session

/-!
# Between the feeds of a driver

A driver feeds what is in its buffer, also after an error. Between two feeds its connection is in the middle of a session
(`Conn.Quiet`), or it is stuck: it refuses every further byte and stays as it is (`Conn.Stuck`). `Conn.Quiet.feed_spec` says
what a feed of a quiet connection can do.
-/

namespace Mzmq
namespace Conn

open Checked Consumer

variable {τ : Type} {cap : Nat} {R : Role τ} {tgt : Target}

/-- The states in which every byte is refused: a rejected greeting fills the buffer, the decoder is poisoned, READY will never
be sent behind a WELCOME, or the state is `Failed`. -/
def Stuck (c : Conn τ cap) : Prop :=
  match c.state with
  | .greeting => c.greetingPos = greetingLen ∧ c.Doomed
  | .ready => c.ourReadySent = true ∧ c.frameDecoder.state = .poisoned
  | .plainHello => c.frameDecoder.state = .poisoned
  | .plainReady => c.ourReadySent = false ∨ c.frameDecoder.state = .poisoned
  | .established => c.frameDecoder.state = .poisoned
  | .failed => True

/-- A poisoned decoder refuses a feed. -/
theorem feedFrame_poisoned {c : Conn τ cap} (h : c.frameDecoder.state = .poisoned) {input : List UInt8} (hne : input ≠ [])
    (handle : Conn τ cap → DecodedFrame → Conn τ cap × Res ConnError Unit) :
    feedFrame tgt c input handle = (c, .error (.err (.decodeError .reservedFlagBits))) := by
  have hf : c.frameDecoder.feed tgt input = _ := FrameDecoder.feed_poisoned h input
  rw [if_neg hne] at hf
  simp only [feedFrame, hf, withDecoder_self, Fault.mapErr]

/-- A stuck connection refuses every byte and stays as it is. -/
theorem Stuck.feed {c : Conn τ cap} (h : c.Stuck) (R : Role τ) (tgt : Target) {input : List UInt8} (hne : input ≠ []) :
    ∃ e, c.feed R tgt input = (c, .error (.err e)) := by
  unfold Stuck at h
  cases hs : c.state with
  | greeting =>
    rw [hs] at h
    obtain ⟨hpos, hd⟩ := h
    have htaken : c.greetingTaken input = 0 := by
      rw [greetingTaken, hpos, Nat.sub_self, Nat.min_zero]
    obtain ⟨buf, hb, hcases⟩ := feedGreeting_spec (Nat.le_of_eq hpos) input
    rw [htaken, List.take_zero, splice_nil] at hb
    have hbuf : buf = c.greetingBuf := List.Vector.eq _ _ hb
    rw [feed_greeting R tgt input hs]
    rcases hcases with ⟨e, he, _⟩ | ⟨_, hlt, _⟩ | ⟨g, _, hg, _⟩
    · rw [he, htaken, hbuf]
      exact ⟨_, rfl⟩
    · omega
    · obtain ⟨e, he⟩ := hd buf (by rw [hbuf])
      rw [hg] at he
      cases he
  | ready =>
    rw [hs] at h
    rw [feed_ready R tgt input hs, feedReady, if_neg (by simp [h.1]), feedReadyInner, feedFrame_poisoned h.2 hne]
    exact ⟨_, rfl⟩
  | plainHello =>
    rw [hs] at h
    rw [feed_hello R tgt input hs, feedFrame_poisoned h hne]
    exact ⟨_, rfl⟩
  | plainReady =>
    rw [hs] at h
    rw [feed_plainReady R tgt input hs, feedPlainReady]
    split
    · exact ⟨_, rfl⟩
    · rename_i hsent
      rcases h with h | h
      · exact absurd (.inr h) hsent
      · rw [feedReadyInner, feedFrame_poisoned h hne]
        exact ⟨_, rfl⟩
  | established =>
    rw [hs] at h
    rw [feed_established R tgt input hs, feedFrame_poisoned h hne]
    exact ⟨_, rfl⟩
  | failed => exact ⟨.wrongState, feed_failed R tgt input hs⟩

/-- Behind the greeting, READY is sent in `Ready`. -/
theorem Quiet.poisoned_stuck {c : Conn τ cap} (q : c.Quiet) (h : c.state ≠ .greeting) {d : FrameDecoder cap}
    (hd : d.state = .poisoned) : (c.withDecoder d).Stuck := by
  have hq := q.phase
  unfold Stuck
  cases hs : c.state with
  | greeting => exact absurd hs h
  | ready =>
    rw [hs] at hq
    simp only [withDecoder_state, hs]
    exact ⟨hq, hd⟩
  | plainReady =>
    simp only [withDecoder_state, hs]
    exact .inr hd
  | plainHello =>
    simp only [withDecoder_state, hs]
    exact hd
  | established =>
    simp only [withDecoder_state, hs]
    exact hd
  | failed =>
    simp only [withDecoder_state, hs]

/-- An error of a handler moves to `Failed`. -/
theorem handler_fail {s : State} {c c' : Conn τ cap} {f : DecodedFrame} {e : Fault ConnError}
    (h : handler R tgt s c f = (c', .error e)) : e.aborts = true ∨ c'.state = .failed := by
  cases s with
  | plainHello => exact .inr (onHello_fail h)
  | established => exact absurd h onEstablished_ne_error
  | greeting => exact onReady_fail h
  | ready => exact onReady_fail h
  | plainReady => exact onReady_fail h
  | failed => exact onReady_fail h

/-- What no feed of a quiet connection changes. -/
theorem Quiet.kept {c : Conn τ cap} (q : c.Quiet) (R : Role τ) (tgt : Target) (input : List UInt8) :
    Kept c (c.feed R tgt input).1 := by
  refine feed_kept R tgt c input ?_
  intro hs
  have hq := q.phase
  rw [hs] at hq
  exact Nat.le_of_lt hq.2.1

/-- A feed that fails in a quiet state panicked, or it left the connection stuck; or it rejected a part of the greeting. -/
theorem Quiet.feed_fail {c c' : Conn τ cap} (q : c.Quiet) {input : List UInt8} {f : Fault ConnError}
    (h : c.feed R tgt input = (c', .error f)) : f.aborts = true ∨ c'.Stuck ∨ c.state = .greeting ∧ c'.Quiet := by
  by_cases hg : c.state = .greeting
  · have hq := q.phase
    rw [hg] at hq
    obtain ⟨h1, h2, h3, h4⟩ := hq
    rw [feed_greeting R tgt input hg] at h
    have hle : c.greetingPos + c.greetingTaken input ≤ greetingLen := by
      unfold greetingTaken
      omega
    obtain ⟨buf, hb, ⟨e, he, hrej⟩ | ⟨_, _, he⟩ | ⟨g, _, _, he⟩⟩ := feedGreeting_spec (Nat.le_of_lt h2) input
    · rw [he] at h
      cases h
      refine .inr ?_
      rcases Nat.lt_or_eq_of_le hle with hlt | heq
      · refine .inr ⟨hg, q.decoder, q.pong, ?_⟩
        simp only [withGreeting, hg]
        exact ⟨h1, hlt, h3, h4⟩
      · have hd := doomed_of_rejected (c := c) hrej
        refine .inl ?_
        unfold Stuck
        simp only [show (c.withGreeting buf (c.greetingPos + c.greetingTaken input)).state = .greeting from hg]
        exact ⟨heq, hd⟩
    · rw [he] at h
      cases h
    · rw [he] at h
      cases h
  · rcases ho : offer (push R tgt) c input with ⟨c1, e | ⟨n, o⟩⟩
    · rw [q.feed_frame hg, feedFrame_eq_offer q.decoder, ← q.offer_frame hg, ho] at h
      cases h
      have hmore : ∀ (s s' : Conn τ cap) b, s.Quiet ∧ s.state = c.state → push R tgt s b = (s', .more) →
          s'.Quiet ∧ s'.state = c.state := by
        intro s s' b hs hp
        exact ⟨(hs.1.more hp).1, (hs.1.more hp).2.trans hs.2⟩
      obtain ⟨t, b, ⟨ht, hts⟩, hp⟩ := offer_last hmore ⟨q, rfl⟩ ho
      have hgt : t.state ≠ .greeting := by
        rw [hts]
        exact hg
      rw [ht.push_frame hgt] at hp
      rcases pushFrame_fail hp with ⟨d, e', hd, rfl, rfl⟩ | ⟨d, fr, _, hh⟩
      · obtain ⟨_, _, hpo⟩ := FrameDecoder.push_fail ht.decoder hd
        exact .inr (.inl (ht.poisoned_stuck hgt hpo))
      · rcases handler_fail hh with hab | hst
        · exact .inl hab
        · refine .inr (.inl ?_)
          unfold Stuck
          rw [hst]
          trivial
    · have hfeed := q.feed_offer ho
      simp only at hfeed
      rw [hfeed] at h
      cases h

/-- A feed that succeeded asks for more, or has completed a unit of input. -/
def Answered (prev : State) (c' : Conn τ cap) : Prop := c'.Quiet ∧ c'.state = prev ∨ Completed prev c' ∧ c'.frameDecoder.Inv

/-- The reply to a feed that succeeded does so too, stays in the state, and leaves the connection quiet. -/
theorem Answered.reply (hR : R.readyFrame.length ≤ 32) {c c' : Conn τ cap} (h : Answered c.state c') :
    (reply R c c').state.Quiet ∧ (reply R c c').fault = none ∧ (reply R c c').state.state = c'.state ∧
      (reply R c c').state.mechanism = c'.mechanism := by
  rcases h with ⟨q, hs⟩ | ⟨h, hi⟩
  · rw [reply_same hs, sendPong_none q.pong]
    exact ⟨q, rfl, rfl, rfl⟩
  · exact h.reply hR hi

/-- A unit of input ends behind the greeting. -/
theorem Completed.not_greeting {prev : State} {c' : Conn τ cap} (h : Completed prev c') : c'.state ≠ .greeting := by
  cases h with
  | ready _ h => simp [h]
  | hello _ h => simp [h]
  | welcome _ h => simp [h]
  | established h => simp [h]

/-- What the session of a quiet connection makes of some bytes. -/
abbrev sessionSteps (R : Role τ) (tgt : Target) : Conn τ cap → List UInt8 → Outcome (Conn τ cap) Sent ConnError :=
  steps (push R tgt) (reply R)

/-- What a feed of a quiet connection can do: consume a part of its input, which the reply to it carries on like a session
does, or fail like the session does. -/
theorem Quiet.feed_spec (hR : R.readyFrame.length ≤ 32) {c : Conn τ cap} (q : c.Quiet) {input : List UInt8}
    (hne : input ≠ []) :
    (∃ c' n, c.feed R tgt input = (c', .ok n) ∧ 0 < n ∧ n ≤ input.length ∧ Answered c.state c' ∧
      (n = input.length ∨ Completed c.state c') ∧
      sessionSteps R tgt c input = (reply R c c').andThen fun t => sessionSteps R tgt t (input.drop n)) ∨
    ∃ c' c'' f, c.feed R tgt input = (c', .error f) ∧ sessionSteps R tgt c input = ⟨c'', [], some f⟩ ∧
      seen c' = seen c'' ∧ (f.aborts = true ∨ c'.Stuck ∨ c.state = .greeting ∧ c'.Quiet) := by
  have law : (session R tgt : Feeder (Conn τ cap) UInt8 Sent ConnError).Lawful (push R tgt) Quiet seen :=
    session_lawful hR tgt
  have hmore : ∀ (s s' : Conn τ cap) b, s.Quiet ∧ s.state = c.state → push R tgt s b = (s', .more) →
      s'.Quiet ∧ s'.state = c.state := by
    intro s s' b hs hp
    exact ⟨(hs.1.more hp).1, (hs.1.more hp).2.trans hs.2⟩
  rcases ho : offer (push R tgt) c input with ⟨c', e | ⟨n, o⟩⟩
  · obtain ⟨c1, hfeed, hseen⟩ := q.feed_offer ho
    have hst := law.steps_offer q ho
    exact .inr ⟨c1, c', e, hfeed, hst, hseen, q.feed_fail hfeed⟩
  · obtain ⟨hn, hall, hpos⟩ := offer_consumed ho
    have hfeed := q.feed_offer ho
    have hlast := offer_last hmore ⟨q, rfl⟩ ho
    have hst := law.steps_offer q ho
    refine .inl ⟨c', n, hfeed, hpos hne, hn, ?_⟩
    cases o with
    | none =>
      obtain ⟨hst, hq', ha⟩ := hst
      have hr : reply R c c' = ⟨c', [], none⟩ := ha
      refine ⟨.inl hlast, .inl (hall rfl), ?_⟩
      rw [hr, Outcome.andThen_start, hall rfl, List.drop_length]
      exact hst
    | some u =>
      obtain ⟨t, b, ⟨ht, hts⟩, hp⟩ := hlast
      have hcomp := ht.completed hp
      rw [hts] at hcomp
      exact ⟨.inr hcomp, .inr hcomp.1, hst.1⟩

end Conn
end Mzmq
