import Mzmq.Lemmas.Run
import Mzmq.Peer

/-!
# READY on 32-bit targets

The metadata loop of the READY parser adds a length that the peer chooses to its position before it compares the sum with the
end of the body. On a 32-bit target the sum may not fit: then the parser panics, in the addition or in the slice behind it.
-/

namespace Mzmq

open Checked

/-- The parser answers alike on every target, and neither panics nor goes on for ever on any. With overflow checks an
addition beyond `usize::MAX` is a panic, and a slice whose bounds are out of order or out of the body is one on every
target. -/
def ReadySafe (isCommand : Bool) (body : List UInt8) : Prop :=
  ∀ tgt tgt' : Target, parseReadyCommand tgt isCommand body = parseReadyCommand tgt' isCommand body ∧
    ∀ f, parseReadyCommand tgt isCommand body = .error f → f.aborts = false

/-- The READY parser is safe exactly on the bodies whose metadata does not overrun. -/
theorem readySafe_iff (isCommand : Bool) {body : List UInt8} (hb : body.length ≤ maxBody) :
    ReadySafe isCommand body ↔ ¬Overrun isCommand body := by
  rcases parseReadyCommand_spec isCommand hb with ⟨ho, hp⟩ | ⟨ho, ⟨val, hp⟩ | ⟨e, hp⟩⟩
  · refine iff_of_false ?_ (not_not_intro ho)
    intro hsafe
    have := (hsafe ⟨.w32, true⟩ ⟨.w32, true⟩).2 .panic (hp ⟨.w32, true⟩)
    cases this
  · refine iff_of_true ?_ ho
    intro tgt tgt'
    refine ⟨by rw [hp tgt, hp tgt'], ?_⟩
    intro f hf
    rw [hp tgt] at hf
    cases hf
  · refine iff_of_true ?_ ho
    intro tgt tgt'
    refine ⟨by rw [hp tgt, hp tgt'], ?_⟩
    intro f hf
    rw [hp tgt] at hf
    cases hf
    rfl

variable {τ : Type} {cap : Nat} {R : Role τ} {tgt : Target}

namespace Conn

/-- On a 32-bit target, the input completes a READY frame whose metadata overruns, and the connection is ready to read it. -/
def CompletesOverrun (tgt : Target) (c : Conn τ cap) (input : List UInt8) : Prop :=
  tgt.width = .w32 ∧ c.ourReadySent = true ∧ (c.state = .plainReady → c.ourWelcomeSent = true) ∧
    ∃ u n f, Pending tgt c.frameDecoder u ∧ n ≤ input.length ∧ IsWire tgt (u ++ input.take n) f ∧ f.body.length ≤ cap ∧
      f.body.length ≤ 255 ∧ Overrun f.isCommand f.body

/-- The READY handler panics exactly on a short frame whose metadata overruns, on a 32-bit target. -/
theorem onReady_aborts_iff (L : R.Lawful) (tgt : Target) (c : Conn τ cap) (f : DecodedFrame) :
    (∃ flt, (onReady R tgt c f).2 = .error flt ∧ flt.aborts = true) ↔
      tgt.width = .w32 ∧ f.body.length ≤ 255 ∧ Overrun f.isCommand f.body := by
  have hmax : f.body.length ≤ 255 → f.body.length ≤ maxBody := by
    intro h
    unfold maxBody
    omega
  rcases onReady_spec R tgt c f with ⟨t, hlen, hp, ho⟩ | ⟨e, hbad, ho⟩ | ⟨flt, hlen, hp, hab, ho⟩
  · rw [ho]
    refine iff_of_false (by rintro ⟨flt, h, _⟩; cases h) ?_
    rintro ⟨hw, _, hov⟩
    rcases L.parses f.isCommand f.body (hmax hlen) with ⟨_, h⟩ | ⟨hno, _⟩
    · rw [h tgt, if_pos hw] at hp
      cases hp
    · exact hno hov
  · rw [ho]
    refine iff_of_false (by rintro ⟨flt, h, hab⟩; cases h; cases hab) ?_
    rintro ⟨hw, hlen, hov⟩
    rcases hbad with hlong | hp
    · omega
    · rcases L.parses f.isCommand f.body (hmax hlen) with ⟨_, h⟩ | ⟨hno, _⟩
      · rw [h tgt, if_pos hw] at hp
        cases hp
      · exact hno hov
  · rw [ho]
    refine iff_of_true ⟨_, rfl, by rw [Fault.aborts_mapErr, hab]⟩ ?_
    rcases L.parses f.isCommand f.body (hmax hlen) with ⟨hov, h⟩ | ⟨_, ⟨t, h⟩ | ⟨e, h⟩⟩
    · rw [h tgt] at hp
      by_cases hw : tgt.width = .w32
      · exact ⟨hw, hlen, hov⟩
      · rw [if_neg hw] at hp
        cases hp
        cases hab
    · rw [h tgt] at hp
      cases hp
    · rw [h tgt] at hp
      cases hp
      cases hab

/-- Reading READY panics exactly when the input completes an overrunning READY on a 32-bit target. -/
theorem feedReadyInner_aborts_iff (L : R.Lawful) {c : Conn τ cap} {u : List UInt8} (hi : c.frameDecoder.Inv)
    (hb : Behind tgt c.frameDecoder u) (input : List UInt8) :
    (∃ flt, (feedReadyInner R tgt c input).2 = .error flt ∧ flt.aborts = true) ↔
      tgt.width = .w32 ∧ ∃ u n f, Pending tgt c.frameDecoder u ∧ n ≤ input.length ∧ IsWire tgt (u ++ input.take n) f ∧
        f.body.length ≤ cap ∧ f.body.length ≤ 255 ∧ Overrun f.isCommand f.body := by
  unfold feedReadyInner
  constructor
  · rintro ⟨flt, hflt, hab⟩
    rcases feedFrame_spec hi hb input (onReady R tgt) with ⟨d, n, he, _⟩ | ⟨d, n, f, _, _, hn, hw, hc, hpo, he⟩ |
      ⟨d, e, he, _⟩
    · rw [he] at hflt
      cases hflt
    · have hp : Pending tgt c.frameDecoder u := by
        rcases hb with hp | ⟨h, _⟩
        · exact hp
        · exact absurd h hpo
      have hon : ∃ flt, (onReady R tgt (c.withDecoder d) f).2 = .error flt ∧ flt.aborts = true := by
        refine ⟨flt, ?_, hab⟩
        rcases ho : onReady R tgt (c.withDecoder d) f with ⟨c', r | r⟩
        · rw [he, ho] at hflt
          cases hflt
          rfl
        · rw [he, ho] at hflt
          cases hflt
      obtain ⟨hw32, hlen, hov⟩ := (onReady_aborts_iff L tgt _ f).mp hon
      exact ⟨hw32, u, n, f, hp, hn, hw, hc, hlen, hov⟩
    · rw [he] at hflt
      cases hflt
      cases hab
  · rintro ⟨hw32, u', n, f, hp, hn, hw, hc, hlen, hov⟩
    obtain ⟨d, hf, _⟩ := FrameDecoder.feed_of_isWire hi hp hn hw hc
    obtain ⟨flt, hflt, hab⟩ := (onReady_aborts_iff L tgt (c.withDecoder d) f).mpr ⟨hw32, hlen, hov⟩
    refine ⟨flt, ?_, hab⟩
    rcases ho : onReady R tgt (c.withDecoder d) f with ⟨c', r | r⟩
    · rw [ho] at hflt
      cases hflt
      simp only [feedFrame, hf, ho]
    · rw [ho] at hflt
      cases hflt

/-- A feed in the `Ready` or the `PlainReady` state of a run that has not panicked panics exactly when it completes an
overrunning READY on a 32-bit target. -/
theorem feed_aborts_iff (L : R.Lawful) {c0 : Conn τ cap} (h0 : c0.Fresh R)
    {h : List (Run.Event (Conn τ cap) Op OpResult)} {c : Conn τ cap} (hr : ConnRun R tgt c0 h c)
    (hlive : ∀ ev ∈ h, ev.res.halts = false) (hs : c.state = .ready ∨ c.state = .plainReady) (input : List UInt8) :
    (∃ flt, (c.feed R tgt input).2 = .error flt ∧ flt.aborts = true) ↔ c.CompletesOverrun tgt input := by
  obtain ⟨m, check, k, hi⟩ := known_of_fresh L h0 hr hlive
  have ph := k.phase
  have hwrong : ¬∃ flt, (c, (.error (.err .wrongState) : Res ConnError Nat)).2 = .error flt ∧ flt.aborts = true := by
    rintro ⟨flt, he, hab⟩
    cases he
    cases hab
  rcases hs with hs | hs
  · rw [feed_ready R tgt input hs, feedReady]
    rw [Phase, hs] at ph
    obtain ⟨_, _, _, g, u, _, _, hb, _⟩ := ph
    by_cases hsent : c.ourReadySent = false
    · rw [if_pos hsent]
      refine iff_of_false hwrong ?_
      rintro ⟨_, h1, _⟩
      rw [hsent] at h1
      cases h1
    · rw [if_neg hsent]
      refine (feedReadyInner_aborts_iff L hi hb input).trans ?_
      have hsent : c.ourReadySent = true := by simpa using hsent
      have hnot : c.state = .plainReady → c.ourWelcomeSent = true := by
        rw [hs]
        intro h
        cases h
      constructor
      · rintro ⟨h1, h2⟩
        exact ⟨h1, hsent, hnot, h2⟩
      · rintro ⟨h1, _, _, h2⟩
        exact ⟨h1, h2⟩
  · rw [feed_plainReady R tgt input hs, feedPlainReady]
    rw [Phase, hs] at ph
    obtain ⟨_, _, u, hb⟩ := ph
    by_cases hsent : c.ourWelcomeSent = false ∨ c.ourReadySent = false
    · rw [if_pos hsent]
      refine iff_of_false hwrong ?_
      rintro ⟨_, h1, h2, _⟩
      rw [h1, h2 hs] at hsent
      simp at hsent
    · rw [if_neg hsent]
      refine (feedReadyInner_aborts_iff L hi hb input).trans ?_
      have hsent : c.ourWelcomeSent = true ∧ c.ourReadySent = true := by simpa using hsent
      constructor
      · rintro ⟨h1, h2⟩
        exact ⟨h1, hsent.2, fun _ => hsent.1, h2⟩
      · rintro ⟨h1, _, _, h2⟩
        exact ⟨h1, h2⟩

end Conn

/-- Parsing READY is safe, on both widths and for both connections, exactly where no metadata overruns. -/
theorem ready_safe_iff_no_overrun (V : Type → Nat → Type) [FixedVec V] (tableCap nameCap frameCap : Nat) :
    (∀ isCommand body, body.length ≤ maxBody → (ReadySafe isCommand body ↔ ¬Overrun isCommand body)) ∧
    (∀ tgt, ∀ c0 : Connection V tableCap nameCap frameCap, c0.Fresh Connection.role →
      ∀ h c, ConnRun Connection.role tgt c0 h c → (∀ ev ∈ h, ev.res.halts = false) →
      c.state = .ready ∨ c.state = .plainReady → ∀ input,
      ((∃ flt, (Connection.feed tgt c input).2 = .error flt ∧ flt.aborts = true) ↔ c.CompletesOverrun tgt input)) ∧
    ∀ tgt, ∀ c0 : RadioConnection V tableCap nameCap frameCap, c0.Fresh RadioConnection.role →
      ∀ h c, ConnRun RadioConnection.role tgt c0 h c → (∀ ev ∈ h, ev.res.halts = false) →
      c.state = .ready ∨ c.state = .plainReady → ∀ input,
      ((∃ flt, (RadioConnection.feed tgt c input).2 = .error flt ∧ flt.aborts = true) ↔ c.CompletesOverrun tgt input) := by
  refine ⟨?_, ?_, ?_⟩
  · intro isCommand body hb
    exact readySafe_iff isCommand hb
  · intro tgt c0 h0 h c hr hlive hs input
    exact Conn.feed_aborts_iff Connection.role_lawful h0 hr hlive hs input
  · intro tgt c0 h0 h c hr hlive hs input
    exact Conn.feed_aborts_iff RadioConnection.role_lawful h0 hr hlive hs input

/-- A READY command with one property, `X`, which declares a value of 2^32 - 1 bytes. -/
def overrunBody : List UInt8 := 5 :: (readyName ++ [0x01, 0x58, 0xFF, 0xFF, 0xFF, 0xFF])

theorem overrunBody_not_safe : ¬ReadySafe true overrunBody := by
  intro hsafe
  have hpanic : parseReadyCommand ⟨.w32, false⟩ true overrunBody = .error .panic := by decide +kernel
  have := (hsafe ⟨.w32, false⟩ ⟨.w32, false⟩).2 _ hpanic
  cases this

/-- A release build for a 32-bit target panics on twelve bytes. -/
theorem ready_overrun_panics : ¬∀ isCommand body, body.length ≤ maxBody → ReadySafe isCommand body := by
  intro hall
  exact overrunBody_not_safe (hall true overrunBody (by decide))

/-- The condition finds the twelve bytes, in the parser and behind the greetings of both connections. -/
theorem ready_safe_iff_no_overrun_twelve_bytes :
    let pub := Run.exec (Conn.apply Connection.role ⟨.w32, false⟩) Conn.OpResult.halts
      (Connection.new : Connection BVec 2 8 32) Peer.opening
    let radio := Run.exec (Conn.apply RadioConnection.role ⟨.w32, false⟩) Conn.OpResult.halts
      (RadioConnection.new : RadioConnection BVec 2 8 32) Peer.opening
    Overrun true overrunBody ∧ pub.2.CompletesOverrun ⟨.w32, false⟩ ([0x04, 12] ++ overrunBody) ∧
      radio.2.CompletesOverrun ⟨.w32, false⟩ ([0x04, 12] ++ overrunBody) := by
  intro pub radio
  obtain ⟨hparse, hpub, hradio⟩ := ready_safe_iff_no_overrun BVec 2 8 32
  have hpublive : pub.1.all (fun ev => !ev.res.halts) = true := by decide +kernel
  have hradiolive : radio.1.all (fun ev => !ev.res.halts) = true := by decide +kernel
  rw [List.all_eq_true] at hpublive hradiolive
  refine ⟨?_, ?_, ?_⟩
  · by_contra hno
    exact overrunBody_not_safe ((hparse true overrunBody (by decide)).mpr hno)
  · refine (hpub _ Connection.new (.inl rfl) pub.1 pub.2 (Run.runs_exec _ _) ?_ (.inl (by decide +kernel)) _).mp
      ⟨.panic, by decide +kernel, rfl⟩
    intro ev hev
    simpa using hpublive ev hev
  · refine (hradio _ RadioConnection.new (.inl rfl) radio.1 radio.2 (Run.runs_exec _ _) ?_ (.inl (by decide +kernel)) _).mp
      ⟨.panic, by decide +kernel, rfl⟩
    intro ev hev
    simpa using hradiolive ev hev

end Mzmq
