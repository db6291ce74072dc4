import Mzmq.Lemmas.Run

/-!
# What the state says about the outputs

`Ordered` says for each state which outputs of the handshake there were, in order. Feeding keeps it, and every output is the
next one.
-/

namespace Mzmq

open Checked

variable {τ : Type} {cap : Nat} {m : Mechanism} {os : List Output}

/-- A part of the handshake is in order. -/
theorem inOrder_of_prefix (h : os <+: handshakeOutputs m) : InOrder m os :=
  ⟨[], by simp, by rwa [List.append_nil]⟩

namespace Conn

/-- What the state says about the outputs so far. -/
def Ordered (m : Mechanism) (os : List Output) (c : Conn τ cap) : Prop :=
  c.mechanism = m ∧
  match c.state with
  | .greeting => os = (if c.ourGreetingSent then [.greeting] else []) ∧ c.ourReadySent = false ∧
      c.ourWelcomeSent = false ∧ c.pendingPong = none ∧ c.greetingPos ≤ greetingLen
  | .ready => m = .null ∧ os = .greeting :: (if c.ourReadySent then [.ready] else []) ∧ c.pendingPong = none
  | .plainHello => m = .plain ∧ os = [.greeting] ∧ c.ourReadySent = false ∧ c.ourWelcomeSent = false ∧
      c.pendingPong = none
  | .plainReady => m = .plain ∧
      os = .greeting :: ((if c.ourWelcomeSent then [.welcome] else []) ++ if c.ourReadySent then [.ready] else []) ∧
      (c.ourReadySent = true → c.ourWelcomeSent = true) ∧ c.pendingPong = none
  | .established => ∃ tail : List Output, (∀ o ∈ tail, o = .pong ∨ o = .publish) ∧ os = handshakeOutputs m ++ tail
  | .failed => os <+: handshakeOutputs m ∧ c.pendingPong = none

variable {c : Conn τ cap}

/-- The outputs of an ordered connection are in order. -/
theorem Ordered.inOrder (h : Ordered m os c) : InOrder m os := by
  obtain ⟨_, h⟩ := h
  cases hs : c.state with
  | greeting =>
    rw [hs] at h
    rw [h.1]
    refine inOrder_of_prefix ?_
    cases c.ourGreetingSent <;> cases m <;> decide
  | ready =>
    rw [hs] at h
    obtain ⟨rfl, rfl, _⟩ := h
    refine inOrder_of_prefix ?_
    cases c.ourReadySent <;> decide
  | plainHello =>
    rw [hs] at h
    obtain ⟨rfl, rfl, _⟩ := h
    exact inOrder_of_prefix (by decide)
  | plainReady =>
    rw [hs] at h
    obtain ⟨rfl, rfl, hw, _⟩ := h
    refine inOrder_of_prefix ?_
    cases hr : c.ourReadySent with
    | false => cases c.ourWelcomeSent <;> decide
    | true =>
      rw [hw hr]
      decide
  | established =>
    rw [hs] at h
    obtain ⟨tail, ht, rfl⟩ := h
    exact ⟨tail, ht, List.prefix_refl _⟩
  | failed =>
    rw [hs] at h
    exact inOrder_of_prefix h.1

/-- A connection before its handshake is complete has no PONG to write. -/
theorem Ordered.no_pong (h : Ordered m os c) (hs : c.state ≠ .established) : c.pendingPong = none := by
  obtain ⟨_, h⟩ := h
  cases hst : c.state with
  | greeting => rw [hst] at h; exact h.2.2.2.1
  | ready => rw [hst] at h; exact h.2.2
  | plainHello => rw [hst] at h; exact h.2.2.2.2
  | plainReady => rw [hst] at h; exact h.2.2.2
  | established => exact absurd hst hs
  | failed => rw [hst] at h; exact h.2

/-- Before the greeting is complete, it fits its buffer. -/
theorem Ordered.greetingPos_le (h : Ordered m os c) (hs : c.state = .greeting) : c.greetingPos ≤ greetingLen := by
  obtain ⟨_, h⟩ := h
  rw [hs] at h
  exact h.2.2.2.2

/-- A PONG or a publish follows what an established connection has written before. -/
theorem Ordered.more (h : Ordered m os c) (hs : c.state = .established) {o : Output} (ho : o = .pong ∨ o = .publish) :
    Ordered m (os ++ [o]) c := by
  unfold Ordered at h ⊢
  rw [hs] at h ⊢
  obtain ⟨hm, tail, ht, rfl⟩ := h
  refine ⟨hm, tail ++ [o], ?_, by rw [List.append_assoc]⟩
  intro o' ho'
  rcases List.mem_append.mp ho' with ho' | ho'
  · exact ht o' ho'
  · rw [List.mem_singleton] at ho'
    rw [ho']
    exact ho

/-- An established connection stays ordered, whatever its frames change. -/
theorem Ordered.established (h : Ordered m os c) (hs : c.state = .established) {c' : Conn τ cap} (hs' : c'.state = .established)
    (hm : c'.mechanism = c.mechanism) : Ordered m os c' := by
  unfold Ordered at h ⊢
  rw [hs] at h
  rw [hs', hm]
  exact h

/-- A READY frame of the peer is handled when all of the handshake is written. -/
theorem Ordered.onReady (h : Ordered m os c) (ha : c.awaitsReady = true) (R : Role τ) (tgt : Target) (f : DecodedFrame) :
    Ordered m os (onReady R tgt c f).1 := by
  have hos : c.mechanism = m ∧ os = handshakeOutputs m ∧ c.pendingPong = none := by
    have h' := h
    unfold Ordered at h'
    simp only [awaitsReady, Bool.and_eq_true, Bool.or_eq_true, beq_iff_eq] at ha
    obtain ⟨hr, hs | ⟨hs, hw⟩⟩ := ha
    · rw [hs] at h'
      obtain ⟨hm, rfl, rfl, hp⟩ := h'
      exact ⟨hm, by simp [hr, handshakeOutputs], hp⟩
    · rw [hs] at h'
      obtain ⟨hm, rfl, rfl, _, hp⟩ := h'
      exact ⟨hm, by simp [hr, hw, handshakeOutputs], hp⟩
  obtain ⟨hm, hos, hp⟩ := hos
  rcases onReady_spec R tgt c f with ⟨_, _, _, he⟩ | ⟨_, _, he⟩ | ⟨_, _, _, _, he⟩
  · rw [he]
    exact ⟨hm, [], by simp, by rw [hos, List.append_nil]⟩
  · rw [he]
    exact ⟨hm, hos ▸ List.prefix_refl os, hp⟩
  · rw [he]
    exact h

/-- A feed keeps the order. -/
theorem Ordered.feed (h : Ordered m os c) (R : Role τ) (tgt : Target) (input : List UInt8) :
    Ordered m os (c.feed R tgt input).1 := by
  have hdec : ∀ d, Ordered m os (c.withDecoder d) := fun _ => h
  refine feed_keeps (Ordered m os) R tgt input ?_ hdec ?_ (fun hs d f => (hdec d).onReady hs R tgt f) ?_
  · intro hs
    unfold Ordered at h
    rw [hs] at h
    obtain ⟨hm, hos, hr, hw, hp, hpos⟩ := h
    have hpos' : c.greetingPos + c.greetingTaken input ≤ greetingLen := by
      unfold greetingTaken
      omega
    have hbuffered : ∀ buf, Ordered m os (c.withGreeting buf (c.greetingPos + c.greetingTaken input)) := by
      intro buf
      simp only [Ordered, withGreeting, hs]
      exact ⟨hm, hos, hr, hw, hp, hpos'⟩
    obtain ⟨buf, _, ⟨e, he, _⟩ | ⟨_, _, he⟩ | ⟨pg, _, _, he⟩⟩ := feedGreeting_spec hpos input
    · rw [he]
      exact hbuffered buf
    · rw [he]
      exact hbuffered buf
    · rw [he]
      unfold Ordered greeted
      refine ⟨hm, ?_⟩
      cases hsent : c.ourGreetingSent with
      | false =>
        rw [hsent] at hos
        simp only [Bool.false_eq_true, if_false, hs]
        exact ⟨hos, hr, hw, hp, Nat.le_refl _⟩
      | true =>
        rw [hsent] at hos
        rw [hm]
        cases m with
        | null =>
          simp only [if_true, afterGreeting, hr]
          exact ⟨trivial, hos, hp⟩
        | plain =>
          simp only [if_true, afterGreeting]
          exact ⟨trivial, hos, hr, hw, hp⟩
  · intro hs d f
    unfold Ordered at h
    rw [hs] at h
    obtain ⟨hm, rfl, rfl, hr, hw, hp⟩ := h
    rcases onHello_spec (c.withDecoder d) f with ⟨u, p, _, _, he⟩ | ⟨u, p, _, _, he⟩ | ⟨e, _, he⟩
    · rw [he]
      refine ⟨hm, rfl, ?_, ?_, hp⟩
      · simp only [withDecoder_ourWelcomeSent, withDecoder_ourReadySent, hw, hr, Bool.false_eq_true, if_false,
          List.append_nil]
      · intro hno
        rw [withDecoder_ourReadySent, hr] at hno
        cases hno
    · rw [he]
      exact ⟨hm, by decide, hp⟩
    · rw [he]
      exact ⟨hm, by decide, hp⟩
  · intro hs d f
    obtain ⟨t, pong, he, _⟩ := onEstablished_spec R (c.withDecoder d) f
    rw [he]
    exact h.established hs hs rfl

/-- Writing our greeting is the first output. -/
theorem Ordered.writeGreeting (h : Ordered m os c) (hs : c.state = .greeting) (hsent : c.ourGreetingSent = false) :
    Ordered m (os ++ [.greeting]) { c with ourGreetingSent := true } := by
  unfold Ordered at h ⊢
  rw [hs] at h
  obtain ⟨hm, rfl, h⟩ := h
  simp only [hs, hsent]
  exact ⟨hm, rfl, h⟩

/-- Writing WELCOME follows the greeting. -/
theorem Ordered.writeWelcome (h : Ordered m os c) (hs : c.state = .plainReady) (hsent : c.ourWelcomeSent = false) :
    Ordered m (os ++ [.welcome]) { c with ourWelcomeSent := true } := by
  unfold Ordered at h ⊢
  rw [hs] at h
  obtain ⟨hm, rfl, rfl, hw, hp⟩ := h
  have hr : c.ourReadySent = false := by
    by_contra hr
    rw [hw (by simpa using hr)] at hsent
    cases hsent
  simp only [hs, hsent, hr]
  exact ⟨hm, trivial, rfl, fun _ => trivial, hp⟩

/-- Writing READY follows the greeting, or WELCOME. -/
theorem Ordered.writeReady (h : Ordered m os c) (hin : c.inReadyState = true) (hsent : c.ourReadySent = false) :
    Ordered m (os ++ [.ready]) { c with ourReadySent := true } := by
  have hs : c.state = .ready ∨ c.state = .plainReady ∧ c.ourWelcomeSent = true := by
    unfold inReadyState at hin
    cases hm : c.mechanism with
    | null =>
      rw [hm] at hin
      exact .inl (by simpa using hin)
    | plain =>
      rw [hm] at hin
      simpa using hin
  unfold Ordered at h ⊢
  rcases hs with hs | ⟨hs, hw⟩
  · rw [hs] at h
    obtain ⟨hm, rfl, rfl, hp⟩ := h
    simp only [hs, hsent]
    exact ⟨hm, trivial, rfl, hp⟩
  · rw [hs] at h
    obtain ⟨hm, rfl, rfl, _, hp⟩ := h
    simp only [hs, hsent, hw]
    exact ⟨hm, trivial, rfl, fun _ => trivial, hp⟩

/-! ## The pending PONG -/

/-- A pending PONG has at most sixteen bytes of context. -/
def PongFits (c : Conn τ cap) : Prop := ∀ ctx n, c.pendingPong = some (ctx, n) → n ≤ 16

/-- A frame queues no larger PONG. -/
theorem PongFits.onEstablished (h : c.PongFits) (R : Role τ) (f : DecodedFrame) : (Conn.onEstablished R c f).1.PongFits := by
  obtain ⟨t, pong, he, hpong⟩ := onEstablished_spec R c f
  rw [he]
  intro ctx n hn
  have hn : pong = some (ctx, n) := hn
  rcases hpong with rfl | ⟨ctx', n', rfl, hle⟩
  · exact h ctx n hn
  · cases hn
    exact hle

/-- A feed queues no larger PONG. -/
theorem PongFits.feed (h : c.PongFits) (hpos : c.state = .greeting → c.greetingPos ≤ greetingLen) (R : Role τ) (tgt : Target)
    (input : List UInt8) : (c.feed R tgt input).1.PongFits := by
  refine feed_keeps PongFits R tgt input ?_ (fun _ => h) ?_ ?_ ?_
  · intro hs
    obtain ⟨buf, _, ⟨e, he, _⟩ | ⟨_, _, he⟩ | ⟨pg, _, _, he⟩⟩ := feedGreeting_spec (hpos hs) input <;> rw [he] <;> exact h
  · intro _ d f
    rcases onHello_spec (c.withDecoder d) f with ⟨_, _, _, _, he⟩ | ⟨_, _, _, _, he⟩ | ⟨_, _, he⟩ <;> rw [he] <;> exact h
  · intro _ d f
    rcases onReady_spec R tgt (c.withDecoder d) f with ⟨_, _, _, he⟩ | ⟨_, _, he⟩ | ⟨_, _, _, _, he⟩ <;> rw [he] <;> exact h
  · intro _ d f
    have hd : (c.withDecoder d).PongFits := h
    exact hd.onEstablished R f

end Conn
end Mzmq
