import Mzmq.Lemmas.Order
import Mzmq.Lemmas.Session

/-!
# The bounds of the inbound path

The positions that a decoder and a connection keep between two calls stay inside their buffers (`Inv.feed`, `Bounded`): also
behind an error, and behind a panic.
-/

namespace Mzmq

open Checked Consumer

namespace FrameDecoder

variable {cap : Nat}

/-- A sound decoder is sound behind every feed, also one that fails, and never panics. -/
theorem Inv.feed {d : FrameDecoder cap} (hi : d.Inv) (tgt : Target) (input : List UInt8) :
    (d.feed tgt input).1.Inv ∧ ∀ f, (d.feed tgt input).2 = .error f → f.aborts = false := by
  have hmore : ∀ (s s' : FrameDecoder cap) (a : UInt8), s.Inv → push tgt s a = (s', .more) → s'.Inv := by
    intro s s' a hs hp
    have := inv_push tgt hs a
    rwa [hp] at this
  rcases ho : offer (push tgt) d input with ⟨d', e | ⟨n, _ | f⟩⟩
  · obtain ⟨t, a, ht, hp⟩ := offer_last hmore hi ho
    rw [feed_eq_offer hi, ho]
    have hd := inv_push tgt ht a
    rw [hp] at hd
    refine ⟨hd, ?_⟩
    intro f hf
    cases hf
    obtain ⟨e', rfl, _⟩ := push_fail ht hp
    rfl
  · rw [feed_eq_offer hi, ho]
    exact ⟨offer_last hmore hi ho, fun f hf => by cases hf⟩
  · obtain ⟨t, a, ht, hp⟩ := offer_last hmore hi ho
    rw [feed_eq_offer hi, ho]
    have hd := inv_push tgt ht a
    rw [hp] at hd
    exact ⟨hd, fun f hf => by cases hf⟩

end FrameDecoder

namespace Conn

variable {τ : Type} {cap : Nat} {R : Role τ} {tgt : Target}

/-- What a feed behind the greeting does: the decoder takes the bytes or rejects them, or the handler gets a frame. -/
theorem feedFrame_cases {c : Conn τ cap} (hi : c.frameDecoder.Inv) (tgt : Target) (input : List UInt8)
    (handle : Conn τ cap → DecodedFrame → Conn τ cap × Res ConnError Unit) :
    (∃ d n, d.Inv ∧ feedFrame tgt c input handle = (c.withDecoder d, .ok n)) ∨
    (∃ d e, d.Inv ∧ feedFrame tgt c input handle = (c.withDecoder d, .error (.err (.decodeError e)))) ∨
    (∃ d n f, d.Inv ∧ c.frameDecoder.feed tgt input = (d, .ok (n, some f)) ∧
      feedFrame tgt c input handle =
        match handle (c.withDecoder d) f with
        | (c, .error e) => (c, .error e)
        | (c, .ok ()) => (c, .ok n)) := by
  obtain ⟨hd, hsafe⟩ := hi.feed tgt input
  rcases hf : c.frameDecoder.feed tgt input with ⟨d, e | ⟨n, _ | f⟩⟩
  · rw [hf] at hd hsafe
    cases e with
    | err e => exact .inr (.inl ⟨d, e, hd, by simp only [feedFrame, hf, Fault.mapErr]⟩)
    | panic => cases hsafe _ rfl
    | hang => cases hsafe _ rfl
  · rw [hf] at hd
    exact .inl ⟨d, n, hd, by simp only [feedFrame, hf]⟩
  · rw [hf] at hd
    exact .inr (.inr ⟨d, n, f, hd, rfl, feedFrame_complete hf handle⟩)

/-- What bounds the indices of the inbound path. -/
structure Bounded (c : Conn τ cap) : Prop where
  greeting : c.greetingPos ≤ greetingLen
  pong : c.PongFits
  decoder : c.frameDecoder.Inv

variable {c : Conn τ cap}

theorem Bounded.withDecoder (h : c.Bounded) {d : FrameDecoder cap} (hd : d.Inv) : (c.withDecoder d).Bounded :=
  ⟨h.greeting, h.pong, hd⟩

/-- A new connection is bounded. -/
theorem Fresh.bounded (h : c.Fresh R) : c.Bounded := by
  rcases h with rfl | ⟨check, rfl⟩ <;> exact ⟨Nat.zero_le _, fun _ _ h => (by cases h), FrameDecoder.inv_new⟩

/-- A handler that keeps the bounds makes a feed that keeps them. -/
theorem Bounded.feedFrame (h : c.Bounded) (tgt : Target) (input : List UInt8)
    {handle : Conn τ cap → DecodedFrame → Conn τ cap × Res ConnError Unit}
    (hh : ∀ d f, d.Inv → (handle (c.withDecoder d) f).1.Bounded) : (Conn.feedFrame tgt c input handle).1.Bounded := by
  rcases feedFrame_cases h.decoder tgt input handle with ⟨d, n, hd, he⟩ | ⟨d, e, hd, he⟩ | ⟨d, n, f, hd, _, he⟩
  · rw [he]
    exact h.withDecoder hd
  · rw [he]
    exact h.withDecoder hd
  · have hb := hh d f hd
    rcases ho : handle (c.withDecoder d) f with ⟨c', e | u⟩ <;> rw [ho] at hb <;> rw [he, ho] <;> exact hb

/-- A feed of the greeting stays inside its buffer. -/
theorem Bounded.feedGreeting (h : c.Bounded) (input : List UInt8) : (Conn.feedGreeting c input).1.Bounded := by
  have hle : c.greetingPos + c.greetingTaken input ≤ greetingLen := by
    have := h.greeting
    unfold greetingTaken
    omega
  obtain ⟨buf, _, ⟨e, he, _⟩ | ⟨_, _, he⟩ | ⟨pg, _, _, he⟩⟩ := feedGreeting_spec h.greeting input
  · rw [he]
    exact ⟨hle, h.pong, h.decoder⟩
  · rw [he]
    exact ⟨hle, h.pong, h.decoder⟩
  · rw [he]
    exact ⟨Nat.le_refl _, h.pong, h.decoder⟩

/-- A feed keeps the bounds, in every state. -/
theorem Bounded.feed (h : c.Bounded) (R : Role τ) (tgt : Target) (input : List UInt8) : (c.feed R tgt input).1.Bounded := by
  rcases c.feed_stage with hs | hs | hs | hs | hs
  · rw [feed_greeting R tgt input hs]
    exact h.feedGreeting input
  · rw [feed_hello R tgt input hs]
    refine h.feedFrame tgt input ?_
    intro d f hd
    rcases onHello_spec (c.withDecoder d) f with ⟨_, _, _, _, he⟩ | ⟨_, _, _, _, he⟩ | ⟨e, _, he⟩ <;> rw [he] <;>
      exact ⟨h.greeting, h.pong, hd⟩
  · rw [feed_awaiting R tgt input hs]
    refine h.feedFrame tgt input ?_
    intro d f hd
    rcases onReady_spec R tgt (c.withDecoder d) f with ⟨_, _, _, he⟩ | ⟨_, _, he⟩ | ⟨_, _, _, _, he⟩ <;> rw [he] <;>
      exact ⟨h.greeting, h.pong, hd⟩
  · rw [feed_established R tgt input hs]
    refine h.feedFrame tgt input ?_
    intro d f hd
    have hfits := (h.withDecoder hd).pong.onEstablished R f
    obtain ⟨t, pong, he, _⟩ := onEstablished_spec R (c.withDecoder d) f
    rw [he] at hfits ⊢
    exact ⟨h.greeting, hfits, hd⟩
  · rw [feed_refused R tgt input hs]
    exact h

/-- Every operation keeps the bounds. -/
theorem Bounded.step (h : c.Bounded) (R : Role τ) (tgt : Target) (op : Op) : (apply R tgt c op).1.Bounded := by
  cases op with
  | writeGreeting out =>
    rcases c.writeGreeting_spec out with ⟨out', he, _⟩ | ⟨e, he⟩ <;> simp only [apply, he] <;>
      exact ⟨h.greeting, h.pong, h.decoder⟩
  | writeReady out =>
    rcases c.writeReady_spec R out with ⟨out', he, _⟩ | ⟨out', e, he⟩ <;> simp only [apply, he] <;>
      exact ⟨h.greeting, h.pong, h.decoder⟩
  | writeWelcome out =>
    rcases c.writeWelcome_spec out with ⟨out', he, _⟩ | ⟨out', e, he⟩ <;> simp only [apply, he] <;>
      exact ⟨h.greeting, h.pong, h.decoder⟩
  | feed input => exact h.feed R tgt input
  | publishHeaders _ _ => exact h
  | publish _ _ _ => exact h
  | writeError _ => exact h
  | writePong out =>
    cases hp : c.pendingPong with
    | none =>
      simp only [apply, writePong_none hp]
      exact h
    | some p =>
      obtain ⟨ctx, n⟩ := p
      simp only [apply, writePong_some hp (h.pong ctx n hp)]
      split
      · exact h
      · exact ⟨h.greeting, fun _ _ hno => (by cases hno), h.decoder⟩

/-- Every connection that a run reaches is bounded. -/
theorem bounded_of_run {c0 : Conn τ cap} (h0 : c0.Fresh R) {h : List (Run.Event (Conn τ cap) Op OpResult)}
    (hr : ConnRun R tgt c0 h c) : c.Bounded :=
  hr.state_invariant Bounded h0.bounded fun _ op hb => hb.step R tgt op

end Conn
end Mzmq
