import Mzmq.Lemmas.Run
import Mzmq.Peer

/-!
# The order of the greetings

The peer's greeting comes in chunks, and our own is written before, between or after them. The step to the next state is taken
by the feed that finds both greetings there; `writeGreeting` never takes it. So the exchange is finished exactly when a feed
follows the write.
-/

namespace Mzmq

open Checked

/-- The calls of an exchange of greetings: ours is written between two chunks of the peer's. -/
def greetingCalls (before after : List (List UInt8)) (out : List UInt8) : List Conn.Op :=
  before.map .feed ++ .writeGreeting out :: after.map .feed

/-- What an exchange of greetings has to come to: our greeting is written, the state is the one behind the greeting, and over
NULL, READY can be written at once. -/
def GreetingsExchanged {τ : Type} {cap : Nat} (R : Role τ) (tgt : Target) (c0 : Conn τ cap) (calls : List Conn.Op) : Prop :=
  let run := Run.exec (Conn.apply R tgt) Conn.OpResult.halts c0 calls
  succeeded Conn.Op.isWriteGreeting run.1 ∧ run.2.state = Conn.afterGreeting c0.mechanism ∧
    (c0.mechanism = .null → ∀ out, R.readyFrame.length ≤ out.length →
      ∃ c out', run.2.writeReady R out = (c, out', .ok R.readyFrame.length))

namespace Conn

variable {τ : Type} {cap : Nat} {R : Role τ} {tgt : Target} {m : Mechanism} {g t : List UInt8} {c : Conn τ cap}

/-- A feed of what comes next of an accepted greeting: it is buffered, or it completes the greeting. -/
theorem feedGreeting_accepted (hg : AcceptedGreeting c.mechanism g) (hpos : c.greetingPos = t.length)
    (hbuf : c.greetingBuf.toList.take c.greetingPos = t) {input : List UInt8} (hp : t ++ input <+: g) :
    ∃ buf, buf.toList.take (t ++ input).length = t ++ input ∧
      (t ++ input ≠ g ∧ feedGreeting c input = (c.withGreeting buf (t ++ input).length, .ok input.length) ∨
        t ++ input = g ∧ ∃ pg, feedGreeting c input = (c.greeted buf pg, .ok input.length)) := by
  obtain ⟨whole, rfl, pg, hpg⟩ := hg
  have h64 : whole.toList.length = greetingLen := whole.toList_length
  have hlen : t.length + input.length ≤ greetingLen := by
    have := hp.length_le
    rw [List.length_append] at this
    omega
  have hle : c.greetingPos ≤ greetingLen := by omega
  have htaken : c.greetingTaken input = input.length := by
    unfold greetingTaken
    omega
  obtain ⟨buf, hb, hcases⟩ := feedGreeting_spec hle input
  obtain ⟨hcopy, _⟩ := greeting_copy hle hb
  rw [htaken, List.take_length, hbuf, hpos, ← List.length_append] at hcopy
  rw [htaken, hpos, ← List.length_append] at hcases
  -- The first bytes of the buffer are the first bytes of the greeting.
  have hsame : ∀ k, k ≤ (t ++ input).length → buf.toList.take k = whole.toList.take k := by
    intro k hk
    have := congrArg (List.take k) (hcopy.trans (List.prefix_iff_eq_take.mp hp))
    rwa [List.take_take, List.take_take, Nat.min_eq_left hk] at this
  have hfull : (t ++ input).length = greetingLen → buf = whole ∧ t ++ input = whole.toList := by
    intro h
    have hall := hsame greetingLen (Nat.le_of_eq h.symm)
    rw [take_greetingLen, take_greetingLen] at hall
    exact ⟨List.Vector.eq _ _ hall, hp.eq_of_length (h.trans h64.symm)⟩
  refine ⟨buf, hcopy, ?_⟩
  rcases hcases with ⟨e, _, hcheck | ⟨hall, hparse⟩⟩ | ⟨_, hlt, he⟩ | ⟨pg', hall, _, he⟩
  · unfold greetingCheck at hcheck
    split at hcheck
    · rename_i hcross
      rw [hsame _ hcross.2, parsePartial_of_accepted hpg] at hcheck
      cases hcheck
    · cases hcheck
  · rw [(hfull hall).1, hpg] at hparse
    cases hparse
  · refine .inl ⟨?_, he⟩
    intro heq
    rw [heq] at hlt
    omega
  · exact .inr ⟨(hfull hall).2, pg', he⟩

/-- A connection in the exchange of greetings has read the bytes `t` of the peer's greeting `g`. -/
structure Exchanging (m : Mechanism) (g t : List UInt8) (c : Conn τ cap) : Prop where
  mechanism : c.mechanism = m
  ready : c.ourReadySent = false
  place : c.state = .greeting ∧ c.greetingPos = t.length ∧ c.greetingBuf.toList.take c.greetingPos = t ∨
    c.state = afterGreeting m ∧ c.ourGreetingSent = true ∧ t = g

theorem afterGreeting_ne (m : Mechanism) : afterGreeting m ≠ .greeting := by
  cases m <;> simp [afterGreeting]

/-- Behind the greetings, feeding nothing changes nothing. -/
theorem feed_nil_afterGreeting (R : Role τ) (tgt : Target) (hs : c.state = afterGreeting m) (hr : c.ourReadySent = false) :
    (c.feed R tgt []).1 = c ∧ ∀ f, (c.feed R tgt []).2 = .error f → f.aborts = false := by
  cases m with
  | null =>
    have hfeed : c.feed R tgt [] = (c, .error (.err .wrongState)) := by
      simp only [feed, hs, afterGreeting, feedReady, if_pos hr]
    rw [hfeed]
    refine ⟨rfl, ?_⟩
    intro f hf
    cases hf
    rfl
  | plain =>
    have hfeed : c.feed R tgt [] = (c, .ok 0) := by
      simp only [feed, hs, afterGreeting, feedPlainHello]
      rfl
    rw [hfeed]
    refine ⟨rfl, ?_⟩
    intro f hf
    cases hf

/-- A feed of the exchange does not panic, and reads its chunk. It moves the state on when both greetings are there. -/
theorem Exchanging.feed (hg : AcceptedGreeting m g) (s : Exchanging m g t c) {input : List UInt8} (hp : t ++ input <+: g) :
    (apply R tgt c (.feed input)).2.halts = false ∧ Exchanging m g (t ++ input) (c.feed R tgt input).1 ∧
      (c.feed R tgt input).1.ourGreetingSent = c.ourGreetingSent ∧
      (c.ourGreetingSent = true → t ++ input = g → (c.feed R tgt input).1.state = afterGreeting m) := by
  have hhalts : (∀ f, (c.feed R tgt input).2 = .error f → f.aborts = false) →
      (apply R tgt c (.feed input)).2.halts = false := by
    intro h
    simp only [apply, OpResult.halts, OpResult.fault]
    cases hr : (c.feed R tgt input).2 with
    | ok n => rfl
    | error f => exact h f hr
  rcases s.place with ⟨hs, hpos, hbuf⟩ | ⟨hs, hsent, rfl⟩
  · rw [feed_greeting R tgt input hs] at hhalts ⊢
    rw [← s.mechanism] at hg
    obtain ⟨buf, htake, ⟨hne, he⟩ | ⟨heq, pg, he⟩⟩ := feedGreeting_accepted hg hpos hbuf hp
    · rw [he] at hhalts ⊢
      refine ⟨hhalts fun f hf => (by cases hf), ⟨s.mechanism, s.ready, .inl ⟨hs, rfl, htake⟩⟩, rfl, ?_⟩
      intro _ heq
      exact absurd heq hne
    · rw [he] at hhalts ⊢
      refine ⟨hhalts fun f hf => (by cases hf), ⟨s.mechanism, s.ready, ?_⟩, rfl, ?_⟩
      · cases hsent : c.ourGreetingSent with
        | false =>
          obtain ⟨whole, hw, _⟩ := hg
          have hlen : (t ++ input).length = greetingLen := by rw [heq, ← hw, whole.toList_length]; rfl
          refine .inl ⟨?_, hlen.symm, ?_⟩
          · simp only [greeted, hsent, Bool.false_eq_true, if_false, hs]
          · rw [hlen] at htake
            exact htake
        | true =>
          refine .inr ⟨?_, hsent, heq⟩
          simp only [greeted, hsent, if_true, s.mechanism]
      · intro hsent _
        simp only [greeted, hsent, if_true, s.mechanism]
  · -- Nothing of the greeting is left.
    have hnil : input = [] := by
      have := hp.length_le
      rw [List.length_append] at this
      exact List.eq_nil_of_length_eq_zero (by omega)
    subst hnil
    obtain ⟨he, hab⟩ := feed_nil_afterGreeting R tgt hs s.ready
    rw [he, List.append_nil]
    exact ⟨hhalts hab, s, rfl, fun _ _ => hs⟩

/-- The feeds of some chunks, in front of other calls. With our greeting sent, the state has moved on behind the last byte of
the greeting, if it had done so before or a chunk is fed. -/
theorem Exchanging.feeds (hg : AcceptedGreeting m g) (calls : List Op) (chunks : List (List UInt8)) :
    ∀ {t : List UInt8} {c : Conn τ cap}, Exchanging m g t c → t ++ chunks.flatten <+: g →
    ∃ c', (Run.exec (apply R tgt) OpResult.halts c (chunks.map .feed ++ calls)).2 =
        (Run.exec (apply R tgt) OpResult.halts c' calls).2 ∧
      Exchanging m g (t ++ chunks.flatten) c' ∧ c'.ourGreetingSent = c.ourGreetingSent ∧
      (c.ourGreetingSent = true → chunks ≠ [] ∨ (t = g → c.state = afterGreeting m) →
        t ++ chunks.flatten = g → c'.state = afterGreeting m) := by
  induction chunks with
  | nil =>
    intro t c s _
    refine ⟨c, rfl, ?_, rfl, ?_⟩
    · rw [List.flatten_nil, List.append_nil]
      exact s
    · intro _ h heq
      rw [List.flatten_nil, List.append_nil] at heq
      exact h.resolve_left (fun hne => hne rfl) heq
  | cons chunk chunks ih =>
    intro t c s hp
    rw [List.flatten_cons, ← List.append_assoc] at hp ⊢
    obtain ⟨hlive, s', hsent, hmoved⟩ := s.feed (R := R) hg ((List.prefix_append _ _).trans hp)
    obtain ⟨c', hrun, s'', hsent', hmoved'⟩ := ih s' hp
    refine ⟨c', ?_, s'', hsent'.trans hsent, ?_⟩
    · rw [List.map_cons, List.cons_append, Run.exec_cons hlive]
      exact hrun
    · intro h _
      rw [← hsent] at h
      exact hmoved' h (.inr (hmoved (hsent ▸ h)))

/-- A new connection has read nothing of any greeting. -/
theorem Exchanging.init (R : Role τ) (m : Mechanism) (auth : Auth) (g : List UInt8) :
    Exchanging m g [] (Conn.init R m auth : Conn τ cap) :=
  ⟨rfl, rfl, .inl ⟨rfl, rfl, rfl⟩⟩

/-- Where the exchange of greetings ends: the greeting is read, ours is sent, and the state has moved on exactly when a chunk
is fed behind the write. -/
theorem exchange_end (R : Role τ) (tgt : Target) (auth : Auth) {before after : List (List UInt8)} {out : List UInt8}
    (hout : greetingLen ≤ out.length) (hg : AcceptedGreeting m (before.flatten ++ after.flatten)) :
    ∃ c, (Run.exec (apply R tgt) OpResult.halts (Conn.init R m auth : Conn τ cap) (greetingCalls before after out)).2 = c ∧
      Exchanging m (before.flatten ++ after.flatten) (before.flatten ++ after.flatten) c ∧ c.ourGreetingSent = true ∧
      (c.state = afterGreeting m ↔ after ≠ []) := by
  have s0 : Exchanging m (before.flatten ++ after.flatten) [] (Conn.init R m auth : Conn τ cap) := .init R m auth _
  -- Up to the write, the state is `Greeting`.
  obtain ⟨c1, hrun1, s1, hsent1, _⟩ := s0.feeds (R := R) hg (.writeGreeting out :: after.map .feed) before
    (List.prefix_append _ _)
  rw [List.nil_append] at s1
  have hsent1 : c1.ourGreetingSent = false := hsent1
  obtain ⟨hs1, hpos1, hbuf1⟩ := s1.place.resolve_right fun h => by
    rw [hsent1] at h
    cases h.2.1
  -- The write succeeds, and leaves the state.
  obtain ⟨out', hwrite⟩ := writeGreeting_ok hs1 hsent1 hout
  have happly : apply R tgt c1 (.writeGreeting out) = ({ c1 with ourGreetingSent := true }, .wrote out' (.ok greetingLen)) := by
    simp only [apply, hwrite]
  have hlive : (apply R tgt c1 (.writeGreeting out)).2.halts = false := by
    rw [happly]
    rfl
  have s2 : Exchanging m (before.flatten ++ after.flatten) before.flatten { c1 with ourGreetingSent := true } :=
    ⟨s1.mechanism, s1.ready, .inl ⟨hs1, hpos1, hbuf1⟩⟩
  obtain ⟨c2, hrun2, s3, hsent2, hmoved⟩ := s2.feeds (R := R) hg [] after (List.prefix_refl _)
  have hrun : (Run.exec (apply R tgt) OpResult.halts (Conn.init R m auth : Conn τ cap) (greetingCalls before after out)).2 =
      (Run.exec (apply R tgt) OpResult.halts { c1 with ourGreetingSent := true } (after.map .feed ++ [])).2 := by
    rw [greetingCalls, hrun1, Run.exec_cons hlive, happly, List.append_nil]
  refine ⟨c2, hrun.trans hrun2, s3, hsent2, ?_⟩
  constructor
  · rintro hst rfl
    have hc2 : c2 = { c1 with ourGreetingSent := true } := hrun2.symm
    rw [hc2] at hst
    exact afterGreeting_ne m (hst.symm.trans hs1)
  · intro hne
    exact hmoved rfl (.inl hne) rfl

/-- The exchange of greetings is finished exactly when a chunk is fed behind the write. -/
theorem greetingsExchanged_iff (L : R.Lawful) {auth : Auth} (ha : auth.asked = []) {before after : List (List UInt8)}
    {out : List UInt8} (hout : greetingLen ≤ out.length) (hg : AcceptedGreeting m (before ++ after).flatten) :
    GreetingsExchanged R tgt (Conn.init R m auth : Conn τ cap) (greetingCalls before after out) ↔ after ≠ [] := by
  rw [List.flatten_append] at hg
  obtain ⟨c, hrun, s, hsent, hst⟩ : ∃ c : Conn τ cap, _ := exchange_end R tgt auth hout hg
  obtain ⟨k, _⟩ := known_of_run L ha (Run.runs_exec (Conn.init R m auth : Conn τ cap) (greetingCalls before after out))
  unfold GreetingsExchanged
  simp only
  rw [hrun] at k ⊢
  rw [← hst]
  refine ⟨fun h => h.2.1, fun h => ⟨k.flags.greeting.mp hsent, h, ?_⟩⟩
  intro hm out' hout'
  have hm : m = .null := hm
  subst hm
  have hin : c.inReadyState = true := by
    rw [inReadyState, s.mechanism]
    simp [h, afterGreeting]
  exact ⟨_, _, writeReady_ok hin s.ready hout'⟩

end Conn

/-- The greetings of a peer are accepted. -/
theorem Peer.subGreeting_accepted : AcceptedGreeting .null Peer.subGreeting :=
  ⟨⟨Peer.subGreeting, rfl⟩, rfl, ⟨1⟩, by decide +kernel⟩

theorem Peer.plainSubGreeting_accepted : AcceptedGreeting .plain Peer.plainSubGreeting :=
  ⟨⟨Peer.plainSubGreeting, rfl⟩, rfl, ⟨1⟩, by decide +kernel⟩

/-- The exchange of greetings of both connections, in every order and every chunking. -/
theorem greetings_exchanged_iff_fed_after (V : Type → Nat → Type) [FixedVec V] (tgt : Target)
    (tableCap nameCap frameCap : Nat) (check : List UInt8 → List UInt8 → Bool) (before after : List (List UInt8))
    (out : List UInt8) (hout : greetingLen ≤ out.length) :
    (AcceptedGreeting .null (before ++ after).flatten →
      (GreetingsExchanged Connection.role tgt (Connection.new : Connection V tableCap nameCap frameCap)
        (greetingCalls before after out) ↔ after ≠ []) ∧
      (GreetingsExchanged RadioConnection.role tgt (RadioConnection.new : RadioConnection V tableCap nameCap frameCap)
        (greetingCalls before after out) ↔ after ≠ [])) ∧
    (AcceptedGreeting .plain (before ++ after).flatten →
      (GreetingsExchanged Connection.role tgt (Connection.newPlain check : Connection V tableCap nameCap frameCap)
        (greetingCalls before after out) ↔ after ≠ []) ∧
      (GreetingsExchanged RadioConnection.role tgt
        (RadioConnection.newPlain check : RadioConnection V tableCap nameCap frameCap)
        (greetingCalls before after out) ↔ after ≠ [])) := by
  constructor
  · intro hg
    exact ⟨Conn.greetingsExchanged_iff Connection.role_lawful rfl hout hg,
      Conn.greetingsExchanged_iff RadioConnection.role_lawful rfl hout hg⟩
  · intro hg
    exact ⟨Conn.greetingsExchanged_iff Connection.role_lawful rfl hout hg,
      Conn.greetingsExchanged_iff RadioConnection.role_lawful rfl hout hg⟩

/-- When our greeting is written behind the whole greeting of a SUB peer, the state is still `Greeting`. -/
theorem greeting_written_last_not_exchanged :
    ¬∀ (before after : List (List UInt8)) (out : List UInt8), greetingLen ≤ out.length →
      AcceptedGreeting .null (before ++ after).flatten →
      GreetingsExchanged Connection.role ⟨.w64, false⟩ (Connection.new : Connection BVec 2 8 32)
        (greetingCalls before after out) := by
  intro hall
  have h := hall [Peer.subGreeting] [] (List.replicate 64 0) (by decide) Peer.subGreeting_accepted
  exact absurd h.2.1 (by decide +kernel)

/-- The greeting of a SUB peer in three chunks, with ours behind the second; the one of a PLAIN client before ours. -/
theorem greetings_exchanged_iff_fed_after_two_orders :
    GreetingsExchanged Connection.role ⟨.w32, true⟩ (Connection.new : Connection BVec 2 8 32)
        (greetingCalls [Peer.subGreeting.take 7, (Peer.subGreeting.drop 7).take 20] [Peer.subGreeting.drop 27]
          (List.replicate 64 0)) ∧
      ¬GreetingsExchanged RadioConnection.role ⟨.w32, true⟩
        (RadioConnection.newPlain (fun _ _ => true) : RadioConnection BVec 2 8 32)
        (greetingCalls [Peer.plainSubGreeting] [] (List.replicate 70 0)) := by
  have hsub := greetings_exchanged_iff_fed_after BVec ⟨.w32, true⟩ 2 8 32 (fun _ _ => true)
    [Peer.subGreeting.take 7, (Peer.subGreeting.drop 7).take 20] [Peer.subGreeting.drop 27] (List.replicate 64 0) (by decide)
  have hplain := greetings_exchanged_iff_fed_after BVec ⟨.w32, true⟩ 2 8 32 (fun _ _ => true) [Peer.plainSubGreeting] []
    (List.replicate 70 0) (by decide)
  refine ⟨(hsub.1 Peer.subGreeting_accepted).1.mpr (by simp), ?_⟩
  rw [(hplain.2 Peer.plainSubGreeting_accepted).2]
  simp

end Mzmq
