import Mzmq.Lemmas.Roles
import Mzmq.Lemmas.Transcript

/-!
# What holds in every run

`Known` is the invariant of the runs of a connection: the flags say what was sent, the authenticator was asked at most once,
and the transcript is the part of a handshake that the state says it is (`Phase`). Every step keeps it (`Known.step`), so it
holds in every state that a run reaches (`known_of_run`); behind a panic only the state of the decoder is not known.
-/

namespace Mzmq
namespace Conn

open Checked

variable {τ : Type} {cap : Nat} {R : Role τ} {tgt : Target}

/-! ## What a feed leaves alone -/

/-- The fields that no feed changes. -/
structure Kept (c c' : Conn τ cap) : Prop where
  greeting : c'.ourGreetingSent = c.ourGreetingSent
  ready : c'.ourReadySent = c.ourReadySent
  welcome : c'.ourWelcomeSent = c.ourWelcomeSent
  mechanism : c'.mechanism = c.mechanism
  check : c'.auth.check = c.auth.check

/-- A feed changes none of them, in any state. -/
theorem feed_kept (R : Role τ) (tgt : Target) (c : Conn τ cap) (input : List UInt8)
    (hg : c.state = .greeting → c.greetingPos ≤ greetingLen) : Kept c (c.feed R tgt input).1 := by
  refine feed_keeps (Kept c) R tgt input ?_ (fun _ => ⟨rfl, rfl, rfl, rfl, rfl⟩) ?_ ?_ ?_
  · intro hs
    obtain ⟨buf, _, ⟨e, he, _⟩ | ⟨_, _, he⟩ | ⟨g, _, _, he⟩⟩ := feedGreeting_spec (hg hs) input <;> rw [he] <;>
      exact ⟨rfl, rfl, rfl, rfl, rfl⟩
  · intro _ d f
    rcases onHello_spec (c.withDecoder d) f with ⟨_, _, _, _, he⟩ | ⟨_, _, _, _, he⟩ | ⟨_, _, he⟩ <;> rw [he] <;>
      exact ⟨rfl, rfl, rfl, rfl, rfl⟩
  · intro _ d f
    rcases onReady_spec R tgt (c.withDecoder d) f with ⟨_, _, _, he⟩ | ⟨_, _, he⟩ | ⟨_, _, _, _, he⟩ <;> rw [he] <;>
      exact ⟨rfl, rfl, rfl, rfl, rfl⟩
  · intro _ d f
    obtain ⟨t, pong, he, _⟩ := onEstablished_spec R (c.withDecoder d) f
    rw [he]
    exact ⟨rfl, rfl, rfl, rfl, rfl⟩

/-! ## The invariant -/

/-- What the state says about the transcript `t`. `B` relates the decoder to what was consumed since the last frame. -/
def Phase (R : Role τ) (tgt : Target) (check : List UInt8 → List UInt8 → Bool) (B : FrameDecoder cap → List UInt8 → Prop)
    (t : List UInt8) (c : Conn τ cap) : Prop :=
  match c.state with
  | .greeting => GreetingPhase t c ∧ c.frameDecoder.state = .needFlags ∧ c.ourReadySent = false ∧
      c.ourWelcomeSent = false ∧ c.table = R.emptyTable ∧ c.auth.asked = []
  | .ready => c.mechanism = .null ∧ c.ourGreetingSent = true ∧ c.auth.asked = [] ∧ ∃ g u, t = g ++ u ∧
      AcceptedGreeting .null g ∧ B c.frameDecoder u ∧ (c.ourReadySent = false → u = [])
  | .plainHello => c.mechanism = .plain ∧ c.ourReadySent = false ∧ c.ourWelcomeSent = false ∧
      c.table = R.emptyTable ∧ c.auth.asked = [] ∧ ∃ g u, t = g ++ u ∧ AcceptedGreeting .plain g ∧ B c.frameDecoder u
  | .plainReady => c.mechanism = .plain ∧ PlainAuthenticated check tgt t ∧ ∃ u, B c.frameDecoder u
  | .established => (c.mechanism = .null → c.ourGreetingSent = true ∧ c.ourReadySent = true ∧ NullHandshake R tgt t) ∧
      (c.mechanism = .plain → PlainAuthenticated check tgt t) ∧ ∃ u, B c.frameDecoder u
  | .failed => (c.mechanism = .null → c.ourReadySent = true ∧ ∃ g u, t = g ++ u ∧ AcceptedGreeting .null g ∧
        Unfinished tgt cap u) ∧
      (c.mechanism = .plain → PlainAuthenticated check tgt t ∨
        c.ourReadySent = false ∧ c.ourWelcomeSent = false ∧ c.table = R.emptyTable)

/-- The flags record what has succeeded in the run. -/
structure Flags (h : List (Run.Event (Conn τ cap) Op OpResult)) (c : Conn τ cap) : Prop where
  greeting : c.ourGreetingSent = true ↔ succeeded Op.isWriteGreeting h
  ready : c.ourReadySent = true ↔ succeeded Op.isWriteReady h
  welcome : c.ourWelcomeSent = true ↔ succeeded Op.isWriteWelcome h

/-- The authenticator was asked at most once, and never again after it refused. -/
structure AskedOnce (c : Conn τ cap) : Prop where
  once : c.auth.asked.length ≤ 1
  refused : (∃ x, (x, false) ∈ c.auth.asked) → c.state = .failed

/-- The invariant of runs. -/
structure Known (R : Role τ) (tgt : Target) (m : Mechanism) (check : List UInt8 → List UInt8 → Bool)
    (B : FrameDecoder cap → List UInt8 → Prop) (h : List (Run.Event (Conn τ cap) Op OpResult)) (c : Conn τ cap) :
    Prop where
  mechanism : c.mechanism = m
  auth : c.auth.check = check
  flags : Flags h c
  asked : AskedOnce c
  published : succeeded Op.isPublish h → m = .plain → PlainAuthenticated check tgt (consumed h)
  phase : Phase R tgt check B (consumed h) c

/-! ## A feed keeps the phase -/

/-- What a feed adds to the transcript. -/
def gained (input : List UInt8) : Res ConnError Nat → List UInt8
  | .ok n => input.take n
  | .error _ => []

/-- What a step leaves: the phase goes on and the decoder is sound, or the step panicked. -/
def Stepped (R : Role τ) (tgt : Target) (check : List UInt8 → List UInt8 → Bool) (t : List UInt8) (c : Conn τ cap)
    (r : Res ConnError Nat) : Prop :=
  AskedOnce c ∧ ((Phase R tgt check (Behind tgt) t c ∧ c.frameDecoder.Inv) ∨
    (∃ f, r = .error f ∧ f.aborts = true) ∧ Phase R tgt check (fun _ u => Unfinished tgt cap u) t c)

variable {check : List UInt8 → List UInt8 → Bool} {t : List UInt8} {c : Conn τ cap}

/-- A feed in the `Greeting` state. -/
theorem Phase.feed_greeting (hs : c.state = .greeting) (hi : c.frameDecoder.Inv) (ha : AskedOnce c)
    (ph : Phase R tgt check (Behind tgt) t c) (input : List UInt8) :
    Stepped R tgt check (t ++ gained input (c.feed R tgt input).2) (c.feed R tgt input).1 (c.feed R tgt input).2 := by
  rw [Conn.feed_greeting R tgt input hs]
  rw [Phase, hs] at ph
  obtain ⟨p, hd, hr, hw, ht, hq⟩ := ph
  rcases p.feed input with ⟨buf, pos, e, he, p', _⟩ | ⟨buf, pos, n, he, p', _⟩ | ⟨buf, pg, n, he, hpg, hbuf, _⟩
  · rw [he]
    refine ⟨⟨ha.once, ha.refused⟩, .inl ⟨?_, hi⟩⟩
    rw [gained, List.append_nil]
    have hst : (c.withGreeting buf pos).state = .greeting := hs
    rw [Phase, hst]
    exact ⟨p', hd, hr, hw, ht, hq⟩
  · rw [he]
    refine ⟨⟨ha.once, ha.refused⟩, .inl ⟨?_, hi⟩⟩
    have hst : (c.withGreeting buf pos).state = .greeting := hs
    rw [Phase, hst]
    exact ⟨p', hd, hr, hw, ht, hq⟩
  · rw [he]
    have hrefused : ¬∃ x, (x, false) ∈ (c.greeted buf pg).auth.asked := by
      rintro ⟨x, hx⟩
      have : (c.greeted buf pg).auth.asked = [] := hq
      simp [this] at hx
    refine ⟨⟨ha.once, fun h => absurd h hrefused⟩, .inl ⟨?_, hi⟩⟩
    have hB : Behind tgt (c.greeted buf pg).frameDecoder [] := .inl (FrameDecoder.pending_needFlags hd)
    have hacc : AcceptedGreeting c.mechanism (t ++ input.take n) := ⟨buf, hbuf.symm, pg, hpg⟩
    rw [gained]
    cases hsent : c.ourGreetingSent with
    | false =>
      -- Our greeting is not sent yet: the state stays, with the whole greeting in the buffer.
      have hst : (c.greeted buf pg).state = .greeting := by
        simp only [greeted, hsent, Bool.false_eq_true, if_false, hs]
      rw [Phase, hst]
      refine ⟨⟨Nat.le_refl _, ?_, .inl ?_⟩, hd, hr, hw, ht, hq⟩
      · rw [hbuf, buf.toList_length]
        exact Nat.le_refl _
      · rw [hbuf]
        exact (take_greetingLen buf).symm
    | true =>
      have hst : (c.greeted buf pg).state = afterGreeting c.mechanism := by simp only [greeted, hsent, if_true]
      cases hm : c.mechanism with
      | null =>
        rw [hm] at hst hacc
        rw [Phase, hst]
        exact ⟨hm, hsent, hq, _, [], (List.append_nil _).symm, hacc, hB, fun _ => rfl⟩
      | plain =>
        rw [hm] at hst hacc
        rw [Phase, hst]
        exact ⟨hm, hr, hw, ht, hq, _, [], (List.append_nil _).symm, hacc, hB⟩

/-- A call that does nothing keeps the phase. -/
theorem Phase.stay (hi : c.frameDecoder.Inv) (ha : AskedOnce c) (ph : Phase R tgt check (Behind tgt) t c)
    (f : Fault ConnError) (input : List UInt8) : Stepped R tgt check (t ++ gained input (.error f)) c (.error f) := by
  rw [gained, List.append_nil]
  exact ⟨ha, .inl ⟨ph, hi⟩⟩

/-- A feed in the `Ready` state. -/
theorem Phase.feed_ready (L : R.Lawful) (hs : c.state = .ready) (hi : c.frameDecoder.Inv) (ha : AskedOnce c)
    (ph : Phase R tgt check (Behind tgt) t c) (input : List UInt8) :
    Stepped R tgt check (t ++ gained input (c.feed R tgt input).2) (c.feed R tgt input).1 (c.feed R tgt input).2 := by
  rw [Conn.feed_ready R tgt input hs, feedReady]
  by_cases hsent : c.ourReadySent = false
  · rw [if_pos hsent]
    exact ph.stay hi ha _ input
  rw [if_neg hsent]
  rw [Phase, hs] at ph
  obtain ⟨hm, hgs, hq, g, u, rfl, hg, hb, _⟩ := ph
  have hrs : c.ourReadySent = true := by simpa using hsent
  have hnull : ∀ {P : Prop}, c.mechanism = .plain → P := by
    intro P hp
    rw [hm] at hp
    cases hp
  have hrefused : ¬∃ x, (x, false) ∈ c.auth.asked := by
    rintro ⟨x, hx⟩
    simp [hq] at hx
  rcases feedFrame_spec hi hb input (onReady R tgt) with ⟨d, n, he, hi', hb', _⟩ |
    ⟨d, n, f, hi', hd, hn, hw, hc, _, he⟩ | ⟨d, e, he, hi', _, hb'⟩
  · rw [feedReadyInner, he]
    refine ⟨⟨ha.once, ha.refused⟩, .inl ⟨?_, hi'⟩⟩
    rw [Phase, withDecoder_state, hs]
    refine ⟨hm, hgs, hq, g, u ++ input.take n, List.append_assoc _ _ _, hg, hb', ?_⟩
    intro hno
    rw [withDecoder_ourReadySent, hrs] at hno
    cases hno
  · rw [feedReadyInner, he]
    rcases onReady_spec R tgt (c.withDecoder d) f with ⟨ty, hlen, hp, ho⟩ | ⟨e, _, ho⟩ | ⟨flt, _, _, hab, ho⟩
    · rw [ho]
      refine ⟨⟨ha.once, fun h => absurd h hrefused⟩, .inl ⟨?_, hi'⟩⟩
      refine ⟨fun _ => ⟨hgs, hrs, g, u ++ input.take n, [], ?_, hg, f, hw, L.isCommand hp, hlen, ty, hp⟩, hnull, [],
        .inl (FrameDecoder.pending_needFlags hd)⟩
      simp only [gained, List.append_assoc, List.append_nil]
    · rw [ho]
      refine ⟨⟨ha.once, fun _ => rfl⟩, .inl ⟨?_, hi'⟩⟩
      rw [gained, List.append_nil]
      exact ⟨fun _ => ⟨hrs, g, u, rfl, hg, hb.unfinished hi⟩, hnull⟩
    · rw [ho]
      refine ⟨⟨ha.once, ha.refused⟩, .inr ⟨⟨_, rfl, by rw [Fault.aborts_mapErr, hab]⟩, ?_⟩⟩
      rw [gained, List.append_nil, Phase, withDecoder_state, hs]
      refine ⟨hm, hgs, hq, g, u, rfl, hg, hb.unfinished hi, ?_⟩
      intro hno
      rw [withDecoder_ourReadySent, hrs] at hno
      cases hno
  · rw [feedReadyInner, he]
    refine ⟨⟨ha.once, ha.refused⟩, .inl ⟨?_, hi'⟩⟩
    rw [gained, List.append_nil, Phase, withDecoder_state, hs]
    refine ⟨hm, hgs, hq, g, u, rfl, hg, hb', ?_⟩
    intro hno
    rw [withDecoder_ourReadySent, hrs] at hno
    cases hno

/-- A feed in the `PlainHello` state. -/
theorem Phase.feed_plainHello (hc : c.auth.check = check) (hs : c.state = .plainHello) (hi : c.frameDecoder.Inv)
    (ha : AskedOnce c) (ph : Phase R tgt check (Behind tgt) t c) (input : List UInt8) :
    Stepped R tgt check (t ++ gained input (c.feed R tgt input).2) (c.feed R tgt input).1 (c.feed R tgt input).2 := by
  rw [Conn.feed_hello R tgt input hs]
  rw [Phase, hs] at ph
  obtain ⟨hm, hr, hw, ht, hq, g, u, rfl, hg, hb⟩ := ph
  have hplain : ∀ {P : Prop}, c.mechanism = .null → P := by
    intro P hp
    rw [hm] at hp
    cases hp
  rcases feedFrame_spec hi hb input onHello with ⟨d, n, he, hi', hb', _⟩ |
    ⟨d, n, f, hi', hd, hn, hwire, hcap, _, he⟩ | ⟨d, e, he, hi', _, hb'⟩
  · rw [he]
    refine ⟨⟨ha.once, ha.refused⟩, .inl ⟨?_, hi'⟩⟩
    rw [Phase, withDecoder_state, hs]
    exact ⟨hm, hr, hw, ht, hq, g, u ++ input.take n, List.append_assoc _ _ _, hg, hb'⟩
  · rw [he]
    rcases onHello_spec (c.withDecoder d) f with ⟨user, pass, hp, hyes, ho⟩ | ⟨user, pass, hp, hno, ho⟩ | ⟨e, hp, ho⟩
    · rw [ho]
      refine ⟨⟨by simp [Auth.consult, hq], ?_⟩, .inl ⟨?_, hi'⟩⟩
      · rintro ⟨x, hx⟩
        rw [withDecoder_auth] at hyes
        simp [Auth.consult, hq, hyes] at hx
      · have hcmd := parseHelloFrom_isCommand hp
        refine ⟨hm, ⟨g, u ++ input.take n, [], ?_, hg, f, hwire, hcmd, user, pass, hp, by rw [← hc]; exact hyes⟩, [],
          .inl (FrameDecoder.pending_needFlags hd)⟩
        simp only [gained, List.append_assoc, List.append_nil]
    · rw [ho]
      refine ⟨⟨by simp [Auth.consult, hq], fun _ => rfl⟩, .inl ⟨?_, hi'⟩⟩
      exact ⟨hplain, fun _ => .inr ⟨hr, hw, ht⟩⟩
    · rw [ho]
      refine ⟨⟨ha.once, fun _ => rfl⟩, .inl ⟨?_, hi'⟩⟩
      exact ⟨hplain, fun _ => .inr ⟨hr, hw, ht⟩⟩
  · rw [he]
    refine ⟨⟨ha.once, ha.refused⟩, .inl ⟨?_, hi'⟩⟩
    rw [gained, List.append_nil, Phase, withDecoder_state, hs]
    exact ⟨hm, hr, hw, ht, hq, g, u, rfl, hg, hb'⟩

/-- A feed in the `PlainReady` state. -/
theorem Phase.feed_plainReady (hs : c.state = .plainReady) (hi : c.frameDecoder.Inv) (ha : AskedOnce c)
    (ph : Phase R tgt check (Behind tgt) t c) (input : List UInt8) :
    Stepped R tgt check (t ++ gained input (c.feed R tgt input).2) (c.feed R tgt input).1 (c.feed R tgt input).2 := by
  rw [Conn.feed_plainReady R tgt input hs, feedPlainReady]
  by_cases hsent : c.ourWelcomeSent = false ∨ c.ourReadySent = false
  · rw [if_pos hsent]
    exact ph.stay hi ha _ input
  rw [if_neg hsent]
  rw [Phase, hs] at ph
  obtain ⟨hm, hpa, u, hb⟩ := ph
  have hplain : ∀ {P : Prop}, c.mechanism = .null → P := by
    intro P hp
    rw [hm] at hp
    cases hp
  have hrefused : ¬∃ x, (x, false) ∈ c.auth.asked := by
    rintro ⟨x, hx⟩
    have := ha.refused ⟨x, hx⟩
    rw [hs] at this
    cases this
  rcases feedFrame_spec hi hb input (onReady R tgt) with ⟨d, n, he, hi', hb', _⟩ |
    ⟨d, n, f, hi', hd, hn, hw, hc, _, he⟩ | ⟨d, e, he, hi', _, hb'⟩
  · rw [feedReadyInner, he]
    refine ⟨⟨ha.once, ha.refused⟩, .inl ⟨?_, hi'⟩⟩
    rw [Phase, withDecoder_state, hs]
    exact ⟨hm, hpa.append _, u ++ input.take n, hb'⟩
  · rw [feedReadyInner, he]
    rcases onReady_spec R tgt (c.withDecoder d) f with ⟨ty, hlen, hp, ho⟩ | ⟨e, _, ho⟩ | ⟨flt, _, _, hab, ho⟩
    · rw [ho]
      refine ⟨⟨ha.once, fun h => absurd h hrefused⟩, .inl ⟨?_, hi'⟩⟩
      exact ⟨hplain, fun _ => hpa.append _, [], .inl (FrameDecoder.pending_needFlags hd)⟩
    · rw [ho]
      refine ⟨⟨ha.once, fun _ => rfl⟩, .inl ⟨?_, hi'⟩⟩
      exact ⟨hplain, fun _ => .inl (hpa.append _)⟩
    · rw [ho]
      refine ⟨⟨ha.once, ha.refused⟩, .inr ⟨⟨_, rfl, by rw [Fault.aborts_mapErr, hab]⟩, ?_⟩⟩
      rw [Phase, withDecoder_state, hs]
      exact ⟨hm, hpa.append _, u, hb.unfinished hi⟩
  · rw [feedReadyInner, he]
    refine ⟨⟨ha.once, ha.refused⟩, .inl ⟨?_, hi'⟩⟩
    rw [Phase, withDecoder_state, hs]
    exact ⟨hm, hpa.append _, u, hb'⟩

/-- A feed in the `Established` state. -/
theorem Phase.feed_established (hs : c.state = .established) (hi : c.frameDecoder.Inv) (ha : AskedOnce c)
    (ph : Phase R tgt check (Behind tgt) t c) (input : List UInt8) :
    Stepped R tgt check (t ++ gained input (c.feed R tgt input).2) (c.feed R tgt input).1 (c.feed R tgt input).2 := by
  rw [Conn.feed_established R tgt input hs]
  rw [Phase, hs] at ph
  obtain ⟨hnull, hplain, u, hb⟩ := ph
  rcases feedFrame_spec hi hb input (onEstablished R) with ⟨d, n, he, hi', hb', _⟩ |
    ⟨d, n, f, hi', hd, hn, hw, hc, _, he⟩ | ⟨d, e, he, hi', _, hb'⟩
  · rw [he]
    refine ⟨⟨ha.once, ha.refused⟩, .inl ⟨?_, hi'⟩⟩
    rw [Phase, withDecoder_state, hs]
    exact ⟨fun hm => ⟨(hnull hm).1, (hnull hm).2.1, (hnull hm).2.2.append _⟩, fun hm => (hplain hm).append _,
      u ++ input.take n, hb'⟩
  · rw [he]
    obtain ⟨tab, pong, ho, _⟩ := onEstablished_spec R (c.withDecoder d) f
    rw [ho]
    refine ⟨⟨ha.once, ha.refused⟩, .inl ⟨?_, hi'⟩⟩
    have hst : ((c.withDecoder d).withTable tab pong).state = .established := hs
    rw [Phase, hst]
    exact ⟨fun hm => ⟨(hnull hm).1, (hnull hm).2.1, (hnull hm).2.2.append _⟩, fun hm => (hplain hm).append _, [],
      .inl (FrameDecoder.pending_needFlags hd)⟩
  · rw [he]
    refine ⟨⟨ha.once, ha.refused⟩, .inl ⟨?_, hi'⟩⟩
    rw [Phase, withDecoder_state, hs]
    exact ⟨fun hm => ⟨(hnull hm).1, (hnull hm).2.1, (hnull hm).2.2.append _⟩, fun hm => (hplain hm).append _, u, hb'⟩

/-- A feed in any state. -/
theorem Phase.feed (L : R.Lawful) (hc : c.auth.check = check) (hi : c.frameDecoder.Inv) (ha : AskedOnce c)
    (ph : Phase R tgt check (Behind tgt) t c) (input : List UInt8) :
    Stepped R tgt check (t ++ gained input (c.feed R tgt input).2) (c.feed R tgt input).1 (c.feed R tgt input).2 := by
  cases hs : c.state with
  | greeting => exact ph.feed_greeting hs hi ha input
  | ready => exact ph.feed_ready L hs hi ha input
  | plainHello => exact ph.feed_plainHello hc hs hi ha input
  | plainReady => exact ph.feed_plainReady hs hi ha input
  | established => exact ph.feed_established hs hi ha input
  | failed =>
    rw [feed_failed R tgt input hs]
    exact ph.stay hi ha _ input

/-! ## A step keeps the invariant -/

/-- The step that an operation makes. -/
def eventOf (R : Role τ) (tgt : Target) (c : Conn τ cap) (op : Op) : Run.Event (Conn τ cap) Op OpResult :=
  ⟨c, op, (apply R tgt c op).2, (apply R tgt c op).1⟩

/-- An operation that is no feed adds nothing to the transcript. -/
theorem consumedBy_eventOf (R : Role τ) (tgt : Target) (c : Conn τ cap) (op : Op) :
    consumedBy (eventOf R tgt c op) =
      match op with
      | .feed input => gained input (c.feed R tgt input).2
      | _ => [] := by
  cases op with
  | feed input =>
    simp only [consumedBy, eventOf, apply, gained]
    cases (c.feed R tgt input).2 <;> rfl
  | _ => rfl

/-- A flag is set by the write it records, and by nothing else. -/
theorem eventOf_flags (R : Role τ) (tgt : Target) (hg : c.state = .greeting → c.greetingPos ≤ greetingLen) (op : Op) :
    ((eventOf R tgt c op).post.ourGreetingSent = true ↔
      c.ourGreetingSent = true ∨ op.isWriteGreeting = true ∧ wrote (eventOf R tgt c op) = true) ∧
    ((eventOf R tgt c op).post.ourReadySent = true ↔
      c.ourReadySent = true ∨ op.isWriteReady = true ∧ wrote (eventOf R tgt c op) = true) ∧
    ((eventOf R tgt c op).post.ourWelcomeSent = true ↔
      c.ourWelcomeSent = true ∨ op.isWriteWelcome = true ∧ wrote (eventOf R tgt c op) = true) := by
  cases op with
  | writeGreeting out =>
    rcases c.writeGreeting_spec out with ⟨out', he, _⟩ | ⟨e, he⟩ <;>
      simp [eventOf, apply, he, wrote, Op.isWriteGreeting, Op.isWriteReady, Op.isWriteWelcome]
  | writeReady out =>
    rcases c.writeReady_spec R out with ⟨out', he, _⟩ | ⟨out', e, he⟩ <;>
      simp [eventOf, apply, he, wrote, Op.isWriteGreeting, Op.isWriteReady, Op.isWriteWelcome]
  | writeWelcome out =>
    rcases c.writeWelcome_spec out with ⟨out', he, _⟩ | ⟨out', e, he⟩ <;>
      simp [eventOf, apply, he, wrote, Op.isWriteGreeting, Op.isWriteReady, Op.isWriteWelcome]
  | feed input =>
    have hk := feed_kept R tgt c input hg
    simp [eventOf, apply, hk.greeting, hk.ready, hk.welcome, Op.isWriteGreeting, Op.isWriteReady, Op.isWriteWelcome]
  | writePong out =>
    obtain ⟨pong, he⟩ := c.writePong_spec out
    simp [eventOf, apply, he, Op.isWriteGreeting, Op.isWriteReady, Op.isWriteWelcome]
  | publishHeaders _ _ => simp [eventOf, apply, Op.isWriteGreeting, Op.isWriteReady, Op.isWriteWelcome]
  | publish _ _ _ => simp [eventOf, apply, Op.isWriteGreeting, Op.isWriteReady, Op.isWriteWelcome]
  | writeError _ => simp [eventOf, apply, Op.isWriteGreeting, Op.isWriteReady, Op.isWriteWelcome]

/-- The flags follow every step. -/
theorem Flags.step {h : List (Run.Event (Conn τ cap) Op OpResult)} (hf : Flags h c)
    (R : Role τ) (tgt : Target) (hg : c.state = .greeting → c.greetingPos ≤ greetingLen) (op : Op) :
    Flags (h ++ [eventOf R tgt c op]) (eventOf R tgt c op).post := by
  obtain ⟨h1, h2, h3⟩ := eventOf_flags R tgt hg op
  refine ⟨?_, ?_, ?_⟩
  · rw [succeeded_snoc, ← hf.greeting]
    exact h1
  · rw [succeeded_snoc, ← hf.ready]
    exact h2
  · rw [succeeded_snoc, ← hf.welcome]
    exact h3

/-- A publish succeeds in the `Established` state alone. -/
theorem publish_ok {c : Conn τ cap} {topic payload out : List UInt8} {n : Nat}
    (h : (c.publish R tgt topic payload out).2 = .ok n) : c.state = .established := by
  by_contra hs
  simp only [publish, publishHeaders, if_pos hs] at h
  cases h

/-- Writing our greeting keeps the phase. -/
theorem Phase.writeGreeting {B : FrameDecoder cap → List UInt8 → Prop} (hs : c.state = .greeting)
    (ph : Phase R tgt check B t c) : Phase R tgt check B t { c with ourGreetingSent := true } := by
  rw [Phase, hs] at ph
  obtain ⟨p, h⟩ := ph
  simp only [Phase, hs]
  exact ⟨⟨p.pos, p.short, p.buffered⟩, h⟩

/-- Writing READY keeps the phase. -/
theorem Phase.writeReady {B : FrameDecoder cap → List UInt8 → Prop} (hin : c.inReadyState = true)
    (ph : Phase R tgt check B t c) : Phase R tgt check B t { c with ourReadySent := true } := by
  have hs : c.state = .ready ∨ c.state = .plainReady := by
    unfold inReadyState at hin
    cases hm : c.mechanism with
    | null =>
      rw [hm] at hin
      exact .inl (by simpa using hin)
    | plain =>
      rw [hm] at hin
      simp only [Bool.or_eq_true, beq_iff_eq, Bool.and_eq_true] at hin
      rcases hin with h | h
      · exact .inl h
      · exact .inr h.1
  rcases hs with hs | hs
  · rw [Phase, hs] at ph
    obtain ⟨hm, hgs, hq, g, u, ht, hg, hb, _⟩ := ph
    simp only [Phase, hs]
    exact ⟨hm, hgs, hq, g, u, ht, hg, hb, fun hno => by cases hno⟩
  · rw [Phase, hs] at ph
    simp only [Phase, hs]
    exact ph

/-- Writing WELCOME keeps the phase. -/
theorem Phase.writeWelcome {B : FrameDecoder cap → List UInt8 → Prop} (hs : c.state = .plainReady)
    (ph : Phase R tgt check B t c) : Phase R tgt check B t { c with ourWelcomeSent := true } := by
  rw [Phase, hs] at ph
  simp only [Phase, hs]
  exact ph

/-- Writing a PONG keeps the phase. -/
theorem Phase.writePong {B : FrameDecoder cap → List UInt8 → Prop} (ph : Phase R tgt check B t c)
    (pong : Option (List.Vector UInt8 16 × Nat)) : Phase R tgt check B t { c with pendingPong := pong } := by
  unfold Phase at ph ⊢
  cases hs : c.state with
  | greeting =>
    rw [hs] at ph
    obtain ⟨p, h⟩ := ph
    simp only
    exact ⟨⟨p.pos, p.short, p.buffered⟩, h⟩
  | ready => rw [hs] at ph; exact ph
  | plainHello => rw [hs] at ph; exact ph
  | plainReady => rw [hs] at ph; exact ph
  | established => rw [hs] at ph; exact ph
  | failed => rw [hs] at ph; exact ph

/-- An operation that is no feed keeps the phase. -/
theorem Phase.other {B : FrameDecoder cap → List UInt8 → Prop} (ph : Phase R tgt check B t c) (ha : AskedOnce c) (op : Op)
    (hop : ∀ input, op ≠ .feed input) :
    Phase R tgt check B t (eventOf R tgt c op).post ∧ AskedOnce (eventOf R tgt c op).post ∧
      (eventOf R tgt c op).post.frameDecoder = c.frameDecoder ∧ (eventOf R tgt c op).post.mechanism = c.mechanism ∧
      (eventOf R tgt c op).post.auth = c.auth := by
  cases op with
  | writeGreeting out =>
    rcases c.writeGreeting_spec out with ⟨out', he, hs⟩ | ⟨e, he⟩
    · simp only [eventOf, apply, he]
      exact ⟨ph.writeGreeting hs.1, ⟨ha.once, ha.refused⟩, trivial, trivial, trivial⟩
    · simp only [eventOf, apply, he]
      exact ⟨ph, ha, trivial, trivial, trivial⟩
  | writeReady out =>
    rcases c.writeReady_spec R out with ⟨out', he, hs⟩ | ⟨out', e, he⟩
    · simp only [eventOf, apply, he]
      exact ⟨ph.writeReady hs.1, ⟨ha.once, ha.refused⟩, trivial, trivial, trivial⟩
    · simp only [eventOf, apply, he]
      exact ⟨ph, ha, trivial, trivial, trivial⟩
  | writeWelcome out =>
    rcases c.writeWelcome_spec out with ⟨out', he, hs⟩ | ⟨out', e, he⟩
    · simp only [eventOf, apply, he]
      exact ⟨ph.writeWelcome hs.1, ⟨ha.once, ha.refused⟩, trivial, trivial, trivial⟩
    · simp only [eventOf, apply, he]
      exact ⟨ph, ha, trivial, trivial, trivial⟩
  | feed input => exact absurd rfl (hop input)
  | writePong out =>
    obtain ⟨pong, he⟩ := c.writePong_spec out
    simp only [eventOf, apply, he]
    exact ⟨ph.writePong pong, ⟨ha.once, ha.refused⟩, trivial, trivial, trivial⟩
  | publishHeaders _ _ => exact ⟨ph, ha, rfl, rfl, rfl⟩
  | publish _ _ _ => exact ⟨ph, ha, rfl, rfl, rfl⟩
  | writeError _ => exact ⟨ph, ha, rfl, rfl, rfl⟩

/-- The phase of a live run is the phase of a run that panicked. -/
theorem Phase.weaken (hi : c.frameDecoder.Inv) (ph : Phase R tgt check (Behind tgt) t c) :
    Phase R tgt check (fun _ u => Unfinished tgt cap u) t c := by
  unfold Phase at ph ⊢
  cases hs : c.state with
  | greeting => rw [hs] at ph; exact ph
  | ready =>
    rw [hs] at ph
    obtain ⟨hm, hgs, hq, g, u, ht, hg, hb, hu⟩ := ph
    exact ⟨hm, hgs, hq, g, u, ht, hg, hb.unfinished hi, hu⟩
  | plainHello =>
    rw [hs] at ph
    obtain ⟨hm, hr, hw, ht, hq, g, u, h1, hg, hb⟩ := ph
    exact ⟨hm, hr, hw, ht, hq, g, u, h1, hg, hb.unfinished hi⟩
  | plainReady =>
    rw [hs] at ph
    obtain ⟨hm, hpa, u, hb⟩ := ph
    exact ⟨hm, hpa, u, hb.unfinished hi⟩
  | established =>
    rw [hs] at ph
    obtain ⟨h1, h2, u, hb⟩ := ph
    exact ⟨h1, h2, u, hb.unfinished hi⟩
  | failed => rw [hs] at ph; exact ph

variable {m : Mechanism} {h : List (Run.Event (Conn τ cap) Op OpResult)}

/-- The greeting buffer is never overfull. -/
theorem Phase.greetingPos_le {B : FrameDecoder cap → List UInt8 → Prop} (ph : Phase R tgt check B t c) :
    c.state = .greeting → c.greetingPos ≤ greetingLen := by
  intro hs
  rw [Phase, hs] at ph
  exact ph.1.pos

/-- A publish that succeeds is one of an authenticated peer. -/
theorem Known.published_step (k : Known R tgt m check (Behind tgt) h c) (op : Op) :
    succeeded Op.isPublish (h ++ [eventOf R tgt c op]) → m = .plain →
      PlainAuthenticated check tgt (consumed (h ++ [eventOf R tgt c op])) := by
  intro hsucc hm
  rw [consumed_snoc]
  apply PlainAuthenticated.append
  rcases (succeeded_snoc _ _ _).mp hsucc with hs | ⟨hkind, hwrote⟩
  · exact k.published hs hm
  · cases op with
    | publish topic payload out =>
      have hst : c.state = .established := by
        simp only [wrote, eventOf, apply] at hwrote
        cases hr : (c.publish R tgt topic payload out).2 with
        | ok n => exact publish_ok hr
        | error f => simp [hr] at hwrote
      have ph := k.phase
      rw [Phase, hst] at ph
      exact ph.2.1 (k.mechanism.trans hm)
    | _ => cases hkind

/-- Every step keeps the invariant, or panics and keeps what is not about the decoder. -/
theorem Known.step (L : R.Lawful) (k : Known R tgt m check (Behind tgt) h c) (hi : c.frameDecoder.Inv) (op : Op) :
    (Known R tgt m check (Behind tgt) (h ++ [eventOf R tgt c op]) (eventOf R tgt c op).post ∧
        (eventOf R tgt c op).post.frameDecoder.Inv) ∨
      ((eventOf R tgt c op).res.halts = true ∧
        Known R tgt m check (fun _ u => Unfinished tgt cap u) (h ++ [eventOf R tgt c op]) (eventOf R tgt c op).post) := by
  have hflags := k.flags.step R tgt k.phase.greetingPos_le op
  have hpub := k.published_step op
  rcases op.feed_or with ⟨input, rfl⟩ | hop
  · have hk := feed_kept R tgt c input k.phase.greetingPos_le
    have hcons : consumed (h ++ [eventOf R tgt c (.feed input)]) = consumed h ++ gained input (c.feed R tgt input).2 := by
      rw [consumed_snoc, consumedBy_eventOf]
    obtain ⟨ha, ⟨ph, hi'⟩ | ⟨⟨f, hf, hab⟩, ph⟩⟩ := k.phase.feed L k.auth hi k.asked input
    · exact .inl ⟨⟨hk.mechanism.trans k.mechanism, hk.check.trans k.auth, hflags, ha, hpub, by rw [hcons]; exact ph⟩, hi'⟩
    · refine .inr ⟨?_, hk.mechanism.trans k.mechanism, hk.check.trans k.auth, hflags, ha, hpub, by rw [hcons]; exact ph⟩
      simp only [OpResult.halts, OpResult.fault, eventOf, apply, hf, hab]
  · obtain ⟨ph, ha, hd, hm, hauth⟩ := k.phase.other k.asked op hop
    refine .inl ⟨⟨hm.trans k.mechanism, by rw [hauth]; exact k.auth, hflags, ha, hpub, ?_⟩, by rw [hd]; exact hi⟩
    have hno : consumedBy (eventOf R tgt c op) = [] := by
      rw [consumedBy_eventOf]
      cases op with
      | feed input => exact absurd rfl (hop input)
      | _ => rfl
    rw [consumed_snoc, hno, List.append_nil]
    exact ph

/-- What is known of a live run is known of one that panicked. -/
theorem Known.weaken (hi : c.frameDecoder.Inv) (k : Known R tgt m check (Behind tgt) h c) :
    Known R tgt m check (fun _ u => Unfinished tgt cap u) h c :=
  ⟨k.mechanism, k.auth, k.flags, k.asked, k.published, k.phase.weaken hi⟩

/-- The invariant holds of a new connection. -/
theorem known_init (R : Role τ) (tgt : Target) (m : Mechanism) (auth : Auth) (ha : auth.asked = []) :
    Known R tgt m auth.check (Behind tgt) [] (init R m auth : Conn τ cap) := by
  refine ⟨rfl, rfl, ⟨?_, ?_, ?_⟩, ⟨?_, ?_⟩, ?_, ?_⟩
  · exact iff_of_false (by simp [init]) (not_succeeded_nil _)
  · exact iff_of_false (by simp [init]) (not_succeeded_nil _)
  · exact iff_of_false (by simp [init]) (not_succeeded_nil _)
  · simp [init, ha]
  · simp [init, ha]
  · exact fun hs => absurd hs (not_succeeded_nil _)
  · exact ⟨GreetingPhase.init R m auth, rfl, rfl, rfl, rfl, ha⟩

/-- The invariant holds in every state that a run reaches; as long as no step has panicked, so does what is about the
decoder. -/
theorem known_of_run (L : R.Lawful) {auth : Auth} (ha : auth.asked = []) (hr : ConnRun R tgt (init R m auth) h c) :
    Known R tgt m auth.check (fun _ u => Unfinished tgt cap u) h c ∧
      ((∀ ev ∈ h, ev.res.halts = false) → Known R tgt m auth.check (Behind tgt) h c ∧ c.frameDecoder.Inv) := by
  have h0 : Known R tgt m auth.check (Behind tgt) [] (init R m auth : Conn τ cap) := known_init R tgt m auth ha
  refine hr.invariant (fun h c => Known R tgt m auth.check (fun _ u => Unfinished tgt cap u) h c ∧
    ((∀ ev ∈ h, ev.res.halts = false) → Known R tgt m auth.check (Behind tgt) h c ∧ c.frameDecoder.Inv)) ?_ ?_
  · exact ⟨h0.weaken FrameDecoder.inv_new, fun _ => ⟨h0, FrameDecoder.inv_new⟩⟩
  · intro h c op hlive hk
    obtain ⟨k, hi⟩ := hk.2 hlive
    rcases k.step L hi op with ⟨k', hi'⟩ | ⟨hhalt, k'⟩
    · exact ⟨k'.weaken hi', fun _ => ⟨k', hi'⟩⟩
    · refine ⟨k', fun hno => ?_⟩
      have := hno _ (List.mem_append_right _ (List.mem_singleton_self (eventOf R tgt c op)))
      rw [hhalt] at this
      cases this

/-- What is known of a new connection, in a run that has not panicked. -/
theorem known_of_fresh (L : R.Lawful) {c0 : Conn τ cap} (h0 : c0.Fresh R) (hr : ConnRun R tgt c0 h c)
    (hlive : ∀ ev ∈ h, ev.res.halts = false) : ∃ m check, Known R tgt m check (Behind tgt) h c ∧ c.frameDecoder.Inv := by
  rcases h0 with rfl | ⟨check, rfl⟩
  · exact ⟨_, _, (known_of_run L rfl hr).2 hlive⟩
  · exact ⟨_, _, (known_of_run L rfl hr).2 hlive⟩

/-! ## Connections that are done for -/

/-- `Failed` is never left. -/
theorem failed_step (hs : c.state = .failed) (op : Op) : (apply R tgt c op).1.state = .failed := by
  cases op with
  | writeGreeting out => rcases c.writeGreeting_spec out with ⟨_, he, _⟩ | ⟨_, he⟩ <;> simp only [apply, he, hs]
  | writeReady out => rcases c.writeReady_spec R out with ⟨_, he, _⟩ | ⟨_, _, he⟩ <;> simp only [apply, he, hs]
  | writeWelcome out => rcases c.writeWelcome_spec out with ⟨_, he, _⟩ | ⟨_, _, he⟩ <;> simp only [apply, he, hs]
  | feed input => simp only [apply, Conn.feed, hs]
  | writePong out =>
    obtain ⟨pong, he⟩ := c.writePong_spec out
    simp only [apply, he, hs]
  | publishHeaders _ _ => exact hs
  | publish _ _ _ => exact hs
  | writeError _ => exact hs

/-- `Failed` is never left in a run. -/
theorem failed_run {c' : Conn τ cap} (hs : c.state = .failed) (hr : ConnRun R tgt c h c') : c'.state = .failed :=
  hr.state_invariant (fun c => c.state = .failed) hs fun _ op hs => failed_step hs op

/-- A NULL handshake that can never be completed: the greeting is rejected, the decoder is poisoned, or the state is
`Failed`. -/
def Dead (c : Conn τ cap) : Prop :=
  c.state = .greeting ∧ c.greetingPos ≤ greetingLen ∧ c.Doomed ∨
    c.state = .ready ∧ c.frameDecoder.state = .poisoned ∨ c.state = .failed

theorem Dead.not_established (hd : c.Dead) : c.state ≠ .established := by
  intro hs
  rcases hd with ⟨h, _⟩ | ⟨h, _⟩ | h <;> rw [hs] at h <;> cases h

/-- A feed does not bring a dead handshake back. -/
theorem Dead.feed (hd : c.Dead) (input : List UInt8) : (c.feed R tgt input).1.Dead := by
  rcases hd with ⟨hs, hpos, hdoom⟩ | ⟨hs, hpo⟩ | hs
  · rw [feed_greeting R tgt input hs]
    have p : GreetingPhase [] c := ⟨hpos, Nat.zero_le _, .inr hdoom⟩
    rcases p.feed input with ⟨buf, pos, e, he, p', hd'⟩ | ⟨buf, pos, n, he, p', hd'⟩ | ⟨buf, pg, n, he, _, _, hno⟩
    · rw [he]
      exact .inl ⟨hs, p'.pos, hd'⟩
    · rw [he]
      exact .inl ⟨hs, p'.pos, hd' hdoom⟩
    · exact absurd hdoom hno
  · rw [feed_ready R tgt input hs, feedReady]
    split
    · exact .inr (.inl ⟨hs, hpo⟩)
    · rw [feedReadyInner, feedFrame, FrameDecoder.feed_poisoned hpo]
      by_cases hn : input = []
      · rw [if_pos hn]
        exact .inr (.inl ⟨hs, hpo⟩)
      · rw [if_neg hn]
        exact .inr (.inl ⟨hs, hpo⟩)
  · rw [feed_failed R tgt input hs]
    exact .inr (.inr hs)

/-- No operation brings a dead handshake back. -/
theorem Dead.step (hd : c.Dead) (op : Op) : (apply R tgt c op).1.Dead := by
  cases op with
  | writeGreeting out => rcases c.writeGreeting_spec out with ⟨_, he, _⟩ | ⟨_, he⟩ <;> simp only [apply, he] <;> exact hd
  | writeReady out => rcases c.writeReady_spec R out with ⟨_, he, _⟩ | ⟨_, _, he⟩ <;> simp only [apply, he] <;> exact hd
  | writeWelcome out =>
    rcases c.writeWelcome_spec out with ⟨_, he, _⟩ | ⟨_, _, he⟩ <;> simp only [apply, he] <;> exact hd
  | feed input => exact hd.feed input
  | writePong out =>
    obtain ⟨pong, he⟩ := c.writePong_spec out
    simp only [apply, he]
    exact hd
  | publishHeaders _ _ => exact hd
  | publish _ _ _ => exact hd
  | writeError _ => exact hd

end Conn
end Mzmq
