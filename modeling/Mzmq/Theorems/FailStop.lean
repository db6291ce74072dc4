import Mzmq.Lemmas.Run
import Mzmq.Peer

/-!
# Errors and the `Failed` state

An error of a handshake command moves a connection to `Failed`, which it never leaves. A greeting or a frame header that is
rejected leaves the state as it was: a run is fail-stop exactly when none of its feeds comes upon one (`Conn.Rejects`).
-/

namespace Mzmq

open Checked

variable {τ : Type} {cap : Nat} {R : Role τ} {tgt : Target}

/-- The input makes the decoder return an error: it is poisoned, or the header in progress cannot be the header of a frame. -/
def FrameDecoder.Rejects (tgt : Target) (d : FrameDecoder cap) (input : List UInt8) : Prop :=
  input ≠ [] ∧ (d.state = .poisoned ∨ ∃ u, Pending tgt d u ∧ badHeader tgt cap (u ++ input) = true)

namespace Conn

/-- The greeting buffer and the input complete the first eleven bytes or the whole of a greeting that is rejected. -/
def RejectsGreeting (c : Conn τ cap) (input : List UInt8) : Prop :=
  (c.greetingPos < greetingPartialLen ∧ greetingPartialLen ≤ c.greetingPos + input.length ∧
    ∃ e, parsePartialGreeting ((c.greetingBuf.toList.take c.greetingPos ++ input).take greetingPartialLen) = .error e) ∨
  ∃ buf : List.Vector UInt8 64, buf.toList = (c.greetingBuf.toList.take c.greetingPos ++ input).take greetingLen ∧
    ∃ e, parsePeerGreeting c.mechanism buf = .error e

/-- The input is rejected as a greeting or as the header of a frame. -/
def Rejects (tgt : Target) (c : Conn τ cap) (input : List UInt8) : Prop :=
  match c.state with
  | .greeting => c.RejectsGreeting input
  | .ready => c.ourReadySent = true ∧ c.frameDecoder.Rejects tgt input
  | .plainHello => c.frameDecoder.Rejects tgt input
  | .plainReady => (c.ourWelcomeSent = true ∧ c.ourReadySent = true) ∧ c.frameDecoder.Rejects tgt input
  | .established => c.frameDecoder.Rejects tgt input
  | .failed => False

end Conn

/-- The step is none of `feed`, `publish` and `publish_headers`, or it was answered with `WrongState`. -/
def Turned (ev : Run.Event (Conn τ cap) Conn.Op Conn.OpResult) : Prop :=
  match ev.op with
  | .feed _ => ev.res = .fed (.error (.err .wrongState))
  | .publishHeaders _ _ => ev.res = .headers (.error (.err .wrongState))
  | .publish _ _ out => ev.res = .wrote out (.error (.err .wrongState))
  | _ => True

/-- After an error that bytes of the peer cause, the state is `Failed`, and it stays `Failed`: every later feed and publish is
answered with `WrongState`. -/
def FailStop (h : List (Run.Event (Conn τ cap) Conn.Op Conn.OpResult)) : Prop :=
  ∀ h1 ev h2 input e, h = h1 ++ ev :: h2 → ev.op = .feed input → ev.res = .fed (.error (.err e)) → e.fromPeer = true →
    ev.post.state = .failed ∧ ∀ ev' ∈ h2, ev'.post.state = .failed ∧ Turned ev'

/-! ## When the decoder errs -/

/-- A decoder that is fed behind `u` errs exactly on the inputs it rejects. -/
theorem FrameDecoder.rejects_iff {d : FrameDecoder cap} {u : List UInt8} (hi : d.Inv) (hb : Conn.Behind tgt d u)
    (input : List UInt8) : d.Rejects tgt input ↔ ∃ e, (d.feed tgt input).2 = .error (.err e) := by
  constructor
  · rintro ⟨hne, hpo | ⟨u', hp, hbad⟩⟩
    · rw [feed_poisoned hpo, if_neg hne]
      exact ⟨_, rfl⟩
    · rcases feed_spec tgt hi hp input with ⟨d', _, _, _, hgood⟩ | ⟨d', n, f, _, _, _, _, _, hw, hc⟩ | ⟨d', e, ho, _⟩
      · rw [hgood hne] at hbad
        cases hbad
      · have := badHeader_of_isWire hw hc (input.drop n)
        rw [List.append_assoc, List.take_append_drop, hbad] at this
        cases this
      · exact ⟨e, by rw [ho]⟩
  · rintro ⟨e, he⟩
    have hne : input ≠ [] := by
      rintro rfl
      cases he
    refine ⟨hne, ?_⟩
    rcases hb with hp | ⟨hpo, _⟩
    · rcases feed_spec tgt hi hp input with ⟨d', ho, _⟩ | ⟨d', n, f, ho, _⟩ | ⟨d', e', ho, _, _, n, _, _, hbad⟩
      · rw [ho] at he
        cases he
      · rw [ho] at he
        cases he
      · refine .inr ⟨u, hp, badHeader_mono ?_ (breaks_bad hbad)⟩
        exact (List.prefix_append_right_inj u).mpr (List.take_prefix n input)
    · exact .inl hpo

namespace Conn

/-! ## When a feed errs -/

/-- The bytes of a greeting that a feed puts into the buffer. -/
theorem greeting_take {c : Conn τ cap} (h : c.greetingPos ≤ greetingLen) {buf : List.Vector UInt8 64} {input : List UInt8}
    (hb : buf.toList = splice c.greetingBuf.toList c.greetingPos (input.take (c.greetingTaken input))) {k : Nat}
    (hk : k ≤ c.greetingPos + c.greetingTaken input) :
    (c.greetingBuf.toList.take c.greetingPos ++ input).take k = buf.toList.take k := by
  obtain ⟨hcopy, _⟩ := greeting_copy h hb
  have hlen : (c.greetingBuf.toList.take c.greetingPos).length = c.greetingPos := by
    rw [List.length_take, c.greetingBuf.toList_length]
    exact Nat.min_eq_left h
  have hfull : (c.greetingBuf.toList.take c.greetingPos ++ input).take (c.greetingPos + c.greetingTaken input) =
      buf.toList.take (c.greetingPos + c.greetingTaken input) := by
    rw [hcopy, ← List.take_length_add_append, hlen]
  have := congrArg (List.take k) hfull
  rwa [List.take_take, List.take_take, Nat.min_eq_left hk] at this

/-- A feed in the `Greeting` state errs exactly on the greetings that are rejected, and stays in the state. -/
theorem feedGreeting_rejects {c : Conn τ cap} (h : c.greetingPos ≤ greetingLen) (input : List UInt8) :
    (c.RejectsGreeting input → (∃ e, (feedGreeting c input).2 = .error (.err (.greetingError e))) ∧
      (feedGreeting c input).1.state = c.state) ∧
    (¬c.RejectsGreeting input → ∃ n, (feedGreeting c input).2 = .ok n) := by
  obtain ⟨buf, hb, hcases⟩ := feedGreeting_spec h input
  have hpos : c.greetingPos + c.greetingTaken input = min (c.greetingPos + input.length) greetingLen := by
    unfold greetingTaken
    omega
  have h11 : greetingPartialLen ≤ greetingLen := by decide
  -- The greeting behind the first 64 bytes is the buffer.
  have hwhole : c.greetingPos + c.greetingTaken input = greetingLen →
      (c.greetingBuf.toList.take c.greetingPos ++ input).take greetingLen = buf.toList := by
    intro hfull
    rw [greeting_take h hb (Nat.le_of_eq hfull.symm), take_greetingLen]
  rcases hcases with ⟨e, he, hrej⟩ | ⟨hcheck, hlt, he⟩ | ⟨g, hfull, hg, he⟩
  · rw [he]
    refine ⟨fun _ => ⟨⟨e, rfl⟩, rfl⟩, fun hno => absurd ?_ hno⟩
    rcases hrej with hch | ⟨hfull, hp⟩
    · unfold greetingCheck at hch
      split at hch
      · rename_i hcross
        refine .inl ⟨hcross.1, ?_, e, ?_⟩
        · have := hcross.2
          omega
        · rw [greeting_take h hb hcross.2]
          exact hch
      · cases hch
    · exact .inr ⟨buf, (hwhole hfull).symm, e, hp⟩
  · rw [he]
    refine ⟨?_, fun _ => ⟨_, rfl⟩⟩
    rintro (⟨h1, h2, e, hp⟩ | ⟨buf', hbuf', _⟩)
    · have hcross : greetingPartialLen ≤ c.greetingPos + c.greetingTaken input := by omega
      rw [greetingCheck, if_pos ⟨h1, hcross⟩, ← greeting_take h hb hcross, hp] at hcheck
      cases hcheck
    · have hl := congrArg List.length hbuf'
      have h64 : greetingLen = 64 := rfl
      rw [buf'.toList_length, List.length_take, List.length_append, List.length_take, c.greetingBuf.toList_length] at hl
      omega
  · rw [he]
    refine ⟨?_, fun _ => ⟨_, rfl⟩⟩
    rintro (⟨h1, h2, e, hp⟩ | ⟨buf', hbuf', e, hp⟩)
    · rw [greeting_take h hb (by omega), parsePartial_of_accepted hg] at hp
      cases hp
    · rw [hwhole hfull] at hbuf'
      rw [List.Vector.eq _ _ hbuf', hg] at hp
      cases hp

/-- A feed of frames errs with a `DecodeError` on the inputs that the decoder rejects, and stays in the state; its other errors
are those of the handler. -/
theorem feedFrame_rejects {c : Conn τ cap} {u : List UInt8} (hi : c.frameDecoder.Inv) (hb : Behind tgt c.frameDecoder u)
    (input : List UInt8) (handle : Conn τ cap → DecodedFrame → Conn τ cap × Res ConnError Unit) :
    (c.frameDecoder.Rejects tgt input → (∃ e, (feedFrame tgt c input handle).2 = .error (.err (.decodeError e))) ∧
      (feedFrame tgt c input handle).1.state = c.state) ∧
    (¬c.frameDecoder.Rejects tgt input → ∀ e, (feedFrame tgt c input handle).2 = .error (.err e) →
      ∃ c' f, handle c' f = ((feedFrame tgt c input handle).1, .error (.err e))) := by
  rw [FrameDecoder.rejects_iff hi hb input]
  rcases hf : c.frameDecoder.feed tgt input with ⟨d, flt | ⟨n, _ | f⟩⟩
  · constructor
    · rintro ⟨e, he⟩
      cases he
      simp only [feedFrame, hf]
      exact ⟨⟨e, rfl⟩, rfl⟩
    · intro hno e he
      simp only [feedFrame, hf] at he
      cases flt with
      | err e' => exact absurd ⟨e', rfl⟩ hno
      | panic => cases he
      | hang => cases he
  · refine ⟨fun h => absurd h (by simp), ?_⟩
    intro _ e he
    simp only [feedFrame, hf] at he
    cases he
  · refine ⟨fun h => absurd h (by simp), ?_⟩
    intro _ e he
    refine ⟨c.withDecoder d, f, ?_⟩
    simp only [feedFrame, hf] at he ⊢
    rcases hh : handle (c.withDecoder d) f with ⟨c', flt | _⟩
    · rw [hh] at he
      cases he
      rfl
    · rw [hh] at he
      cases he

/-- A handler whose errors move to `Failed` makes a feed of frames fail-stop, as long as the decoder does not err. -/
theorem feedFrame_failStop {c : Conn τ cap} {u : List UInt8} (hi : c.frameDecoder.Inv) (hb : Behind tgt c.frameDecoder u)
    (input : List UInt8) {handle : Conn τ cap → DecodedFrame → Conn τ cap × Res ConnError Unit}
    (hh : ∀ c c' f e, handle c f = (c', .error (.err e)) → c'.state = .failed) (hs : c.state ≠ .failed) :
    c.frameDecoder.Rejects tgt input ↔ ∃ e, (feedFrame tgt c input handle).2 = .error (.err e) ∧ e.fromPeer = true ∧
      (feedFrame tgt c input handle).1.state ≠ .failed := by
  obtain ⟨hrej, hno⟩ := feedFrame_rejects hi hb input handle
  constructor
  · intro h
    obtain ⟨⟨e, he⟩, hst⟩ := hrej h
    exact ⟨_, he, rfl, by rw [hst]; exact hs⟩
  · rintro ⟨e, he, _, hst⟩
    by_contra h
    obtain ⟨c', f, hf⟩ := hno h e he
    exact hst (hh c' _ f e hf)

/-- Where a run that has not panicked is, a feed reports an error of the peer's bytes without moving to `Failed` exactly on
the inputs that are rejected. -/
theorem rejects_iff {m : Mechanism} {check : List UInt8 → List UInt8 → Bool}
    {h : List (Run.Event (Conn τ cap) Op OpResult)} {c : Conn τ cap} (k : Known R tgt m check (Behind tgt) h c)
    (hi : c.frameDecoder.Inv) (input : List UInt8) : c.Rejects tgt input ↔
      ∃ e, (c.feed R tgt input).2 = .error (.err e) ∧ e.fromPeer = true ∧ (c.feed R tgt input).1.state ≠ .failed := by
  have ph := k.phase
  cases hs : c.state with
  | greeting =>
    rw [feed_greeting R tgt input hs, Rejects, hs]
    obtain ⟨hrej, hno⟩ := feedGreeting_rejects (ph.greetingPos_le hs) input
    constructor
    · intro h
      obtain ⟨⟨e, he⟩, hst⟩ := hrej h
      exact ⟨_, he, rfl, by simp [hst, hs]⟩
    · rintro ⟨e, he, _⟩
      by_contra h
      obtain ⟨n, hn⟩ := hno h
      rw [hn] at he
      cases he
  | ready =>
    rw [feed_ready R tgt input hs, feedReady, Rejects, hs]
    rw [Phase, hs] at ph
    obtain ⟨_, _, _, g, u, _, _, hb, _⟩ := ph
    by_cases hsent : c.ourReadySent = false
    · rw [if_pos hsent]
      constructor
      · rintro ⟨h, _⟩
        rw [hsent] at h
        cases h
      · rintro ⟨e, he, hp, _⟩
        cases he
        cases hp
    · rw [if_neg hsent]
      have hsent : c.ourReadySent = true := by simpa using hsent
      exact (and_iff_right hsent).trans
        (feedFrame_failStop hi hb input (fun _ _ _ _ h => (onReady_fail h).resolve_left Bool.false_ne_true) (by simp [hs]))
  | plainHello =>
    rw [feed_hello R tgt input hs, Rejects, hs]
    rw [Phase, hs] at ph
    obtain ⟨_, _, _, _, _, g, u, _, _, hb⟩ := ph
    exact feedFrame_failStop hi hb input (fun _ _ _ _ => onHello_fail) (by simp [hs])
  | plainReady =>
    rw [feed_plainReady R tgt input hs, feedPlainReady, Rejects, hs]
    rw [Phase, hs] at ph
    obtain ⟨_, _, u, hb⟩ := ph
    by_cases hsent : c.ourWelcomeSent = false ∨ c.ourReadySent = false
    · rw [if_pos hsent]
      constructor
      · rintro ⟨⟨h1, h2⟩, _⟩
        rw [h1, h2] at hsent
        simp at hsent
      · rintro ⟨e, he, hp, _⟩
        cases he
        cases hp
    · rw [if_neg hsent]
      have hsent : c.ourWelcomeSent = true ∧ c.ourReadySent = true := by simpa using hsent
      exact (and_iff_right hsent).trans
        (feedFrame_failStop hi hb input (fun _ _ _ _ h => (onReady_fail h).resolve_left Bool.false_ne_true) (by simp [hs]))
  | established =>
    rw [feed_established R tgt input hs, Rejects, hs]
    rw [Phase, hs] at ph
    obtain ⟨_, _, u, hb⟩ := ph
    exact feedFrame_failStop hi hb input (fun _ _ _ _ h => absurd h onEstablished_ne_error) (by simp [hs])
  | failed =>
    rw [feed_failed R tgt input hs, Rejects, hs]
    refine iff_of_false id ?_
    rintro ⟨e, he, hp, _⟩
    cases he
    cases hp

/-! ## Runs -/

/-- A failed connection answers `WrongState` and stays failed. -/
theorem failed_turned (R : Role τ) (tgt : Target) {c : Conn τ cap} (hs : c.state = .failed) (op : Op) :
    (eventOf R tgt c op).post.state = .failed ∧ Turned (eventOf R tgt c op) := by
  refine ⟨failed_step hs op, ?_⟩
  cases op with
  | feed input => simp only [Turned, eventOf, apply, feed, hs]
  | publishHeaders topic payload => simp [Turned, eventOf, apply, publishHeaders, hs]
  | publish topic payload out => simp [Turned, eventOf, apply, publish, publishHeaders, hs]
  | _ => trivial

/-- A run is fail-stop exactly when none of its feeds is rejected as a greeting or as the header of a frame. -/
theorem failStop_iff (L : R.Lawful) {c0 : Conn τ cap} (h0 : c0.Fresh R)
    {h : List (Run.Event (Conn τ cap) Op OpResult)} {c : Conn τ cap} (hr : ConnRun R tgt c0 h c) :
    FailStop h ↔ ∀ ev ∈ h, ∀ input, ev.op = .feed input → ¬ev.pre.Rejects tgt input := by
  constructor
  · intro hstop ev hev input hop hrej
    obtain ⟨hres, hpost, h', hr', hlive⟩ := hr.event ev hev
    obtain ⟨m, check, k, hi⟩ := known_of_fresh L h0 hr' hlive
    obtain ⟨e, he, hp, hst⟩ := (rejects_iff k hi input).mp hrej
    obtain ⟨h1, h2, hsplit⟩ := List.append_of_mem hev
    rw [hop] at hres hpost
    refine hst ?_
    have := (hstop h1 ev h2 input e hsplit hop (by rw [hres]; exact congrArg OpResult.fed he) hp).1
    rwa [hpost] at this
  · intro hno h1 ev h2 input e hsplit hop hfed hp
    have hev : ev ∈ h := by simp [hsplit]
    obtain ⟨hres, hpost, h', hr', hlive⟩ := hr.event ev hev
    obtain ⟨m, check, k, hi⟩ := known_of_fresh L h0 hr' hlive
    have hst : ev.post.state = .failed := by
      rw [hop] at hres hpost
      have he : (ev.pre.feed R tgt input).2 = .error (.err e) := by
        rw [hfed] at hres
        exact (OpResult.fed.inj hres).symm
      by_contra hst
      rw [hpost] at hst
      exact hno ev hev input hop ((rejects_iff k hi input).mpr ⟨e, he, hp, hst⟩)
    refine ⟨hst, ?_⟩
    intro ev' hev'
    rw [hsplit] at hr
    obtain ⟨hres', hpost', h'', hr'', _⟩ := hr.suffix.event ev' hev'
    have := failed_turned R tgt (failed_run hst hr'') ev'.op
    rwa [show eventOf R tgt ev'.pre ev'.op = ev' by rw [eventOf, ← hres', ← hpost']] at this

end Conn

/-- The runs of both connections that are fail-stop: those whose feeds are not rejected as a greeting or as the header of a
frame. -/
theorem fail_stop_iff_no_rejects (V : Type → Nat → Type) [FixedVec V] (tgt : Target) (tableCap nameCap frameCap : Nat) :
    (∀ c0 : Connection V tableCap nameCap frameCap, c0.Fresh Connection.role → ∀ h c, ConnRun Connection.role tgt c0 h c →
      (FailStop h ↔ ∀ ev ∈ h, ∀ input, ev.op = .feed input → ¬ev.pre.Rejects tgt input)) ∧
    ∀ c0 : RadioConnection V tableCap nameCap frameCap, c0.Fresh RadioConnection.role →
      ∀ h c, ConnRun RadioConnection.role tgt c0 h c →
      (FailStop h ↔ ∀ ev ∈ h, ∀ input, ev.op = .feed input → ¬ev.pre.Rejects tgt input) := by
  constructor
  · intro c0 h0 h c hr
    exact Conn.failStop_iff Connection.role_lawful h0 hr
  · intro c0 h0 h c hr
    exact Conn.failStop_iff RadioConnection.role_lawful h0 hr

/-- The feed of eleven bytes that begin no greeting to a new connection. -/
def badGreeting : Run.Event (Connection BVec 2 8 32) Conn.Op Conn.OpResult :=
  Conn.eventOf Connection.role ⟨.w64, false⟩ Connection.new (.feed (List.replicate 11 0))

theorem badGreeting_not_failStop : ¬FailStop [badGreeting] := by
  intro hstop
  have hres : ((Connection.new : Connection BVec 2 8 32).feed ⟨.w64, false⟩ (List.replicate 11 0)).2 =
      .error (.err (.greetingError .invalidSignature)) := by decide +kernel
  have hst := (hstop [] badGreeting [] _ _ rfl rfl (congrArg Conn.OpResult.fed hres) rfl).1
  exact absurd hst (by decide +kernel)

/-- A rejected greeting leaves the connection in the `Greeting` state. -/
theorem greeting_error_not_failed : ¬∀ h (c : Connection BVec 2 8 32), ConnRun Connection.role ⟨.w64, false⟩ Connection.new h c →
    FailStop h := by
  intro hall
  exact badGreeting_not_failStop (hall _ _ (.snoc (h := []) _ .nil (by simp)))

/-- The condition finds the rejected greeting; a RADIO connection that has only written its greeting meets it. -/
theorem fail_stop_iff_no_rejects_bad_greeting :
    (∃ ev ∈ [badGreeting], ∃ input, ev.op = .feed input ∧ ev.pre.Rejects ⟨.w64, false⟩ input) ∧
      FailStop [Conn.eventOf (RadioConnection.role : Role (GroupTable BVec 2 8)) ⟨.w64, false⟩
        (Conn.newPlain RadioConnection.role (fun _ _ => true) : RadioConnection BVec 2 8 32)
        (.writeGreeting (List.replicate 64 0))] := by
  have h := fail_stop_iff_no_rejects BVec ⟨.w64, false⟩ 2 8 32
  constructor
  · by_contra hno
    apply badGreeting_not_failStop
    refine (h.1 _ (.inl rfl) _ _ (.snoc (h := []) _ .nil (by simp))).mpr ?_
    intro ev hev input hop hrej
    exact hno ⟨ev, hev, input, hop, hrej⟩
  · refine (h.2 _ (.inr ⟨fun _ _ => true, rfl⟩) _ _ (.snoc (h := []) _ .nil (by simp))).mpr ?_
    intro ev hev input hop
    rw [List.nil_append, List.mem_singleton] at hev
    subst hev
    cases hop

end Mzmq
