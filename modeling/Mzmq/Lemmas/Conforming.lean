import Mzmq.Conforming
import Mzmq.Lemmas.Endpoint

/-!
# The session of a conforming peer

A connection that has just read what the peer said last takes the next thing that the peer may say as a whole, without an
error (`Stands.takes`); so a session takes all that a conforming peer sends (`session_conforms`), and stays established once
it is (`established_session`).
-/

namespace Mzmq

open Checked Consumer Conn Spelling

section Peer

variable {σ τ : Type} {cap : Nat} {E : Endpoint σ} {R : Role τ} {ask : τ → DecodedFrame → τ} {Holds : τ → σ → Prop}
  {check : List UInt8 → List UInt8 → Bool} {tgt : Target} {m : Mechanism} {s s' s'' : Stage σ} {c : Conn τ cap}

/-- A session can be interrupted anywhere. -/
theorem session_append (R : Role τ) (tgt : Target) (c : Conn τ cap) (xs ys : List UInt8) :
    sessionSteps R tgt c (xs ++ ys) = (sessionSteps R tgt c xs).andThen fun c => sessionSteps R tgt c ys := steps_append _ _ _

/-- What a peer says is told from what it sends. -/
theorem step_determined {i j : Occasion} {w v : Reply} {wire : List UInt8} (hi : E.Step m s i w s') (hj : E.Step m s j v s'')
    (hpi : i.isPeers = true) (hpj : j.isPublish = false) (hwi : i.IsWire R check tgt cap m wire)
    (hwj : j.IsWire R check tgt cap m wire) (hne : wire ≠ []) : w = v ∧ s' = s'' := by
  cases hi with
  | greeted =>
    cases hj with
    | greeted => exact ⟨rfl, by rw [Greeted.unique hwi hwj]⟩
    | gaveUp => exact absurd hwj hne
    | early => cases hpj
  | greetedPlain =>
    cases hj with
    | greetedPlain => exact ⟨rfl, by rw [Greeted.unique hwi hwj]⟩
    | gaveUp => exact absurd hwj hne
    | early => cases hpj
  | hello =>
    cases hj with
    | hello => exact ⟨rfl, rfl⟩
    | gaveUp => exact absurd hwj hne
    | early => cases hpj
  | ready =>
    cases hj with
    | ready => exact ⟨rfl, rfl⟩
    | gaveUp => exact absurd hwj hne
    | early => cases hpj
  | readyPlain =>
    cases hj with
    | readyPlain => exact ⟨rfl, rfl⟩
    | gaveUp => exact absurd hwj hne
    | early => cases hpj
  | heard =>
    cases hj with
    | heard =>
      obtain ⟨_, rfl⟩ := FrameDecoder.isWire_unique hwi.1 hwj.1 (List.prefix_refl _)
      exact ⟨rfl, rfl⟩
    | gaveUp => exact absurd hwj hne
    | wanted => cases hpj
    | unwanted => cases hpj
    | early => cases hpj
  | gaveUp => cases hpi
  | wanted => cases hpi
  | unwanted => cases hpi
  | early => cases hpi

/-- The connection has read all of what the peer said last. -/
structure AtRest (c : Conn τ cap) : Prop where
  decoder : c.frameDecoder.state = .needFlags
  greeting : c.state = .greeting → c.greetingPos = 0

/-- A greeting that is accepted is taken as a whole. -/
theorem feedGreeting_takes (hr : AtRest c) (hs : c.state = .greeting) (hm : c.mechanism = m) {wire : List UInt8} {minor : UInt8}
    (hw : Greeted m wire minor) : ∃ buf pg, feedGreeting c wire = (c.greeted buf pg, .ok wire.length) := by
  have hlen := Greeted.length hw
  obtain ⟨buf0, hbuf0, pg0, hp0, _⟩ := hw
  have hpos := hr.greeting hs
  have htaken : c.greetingTaken wire = wire.length := by
    rw [greetingTaken, hpos, hlen]
    rfl
  obtain ⟨buf, hb, hcases⟩ := feedGreeting_spec (c := c) (by rw [hpos]; exact Nat.zero_le _) wire
  rw [htaken, hpos, Nat.zero_add] at hcases
  have hbuf : buf = buf0 := by
    apply List.Vector.eq
    rw [hb, htaken, hpos, List.take_length, hbuf0, splice, List.take_zero, List.nil_append, Nat.zero_add,
      List.drop_of_length_le (by rw [List.Vector.toList_length, hlen]; rfl), List.append_nil]
  rcases hcases with ⟨e, _, hrej⟩ | ⟨_, hlt, _⟩ | ⟨pg, _, _, he⟩
  · obtain ⟨e', he'⟩ := doomed_of_rejected (c := c) hrej buf0 (by rw [hbuf]; rfl)
    rw [show (c.withGreeting buf wire.length).mechanism = c.mechanism from rfl, hm, hp0] at he'
    cases he'
  · omega
  · exact ⟨buf, pg, he⟩

/-- A frame that fits is taken as a whole. -/
theorem feedFrame_takes (q : c.Quiet) (hr : AtRest c) {wire : List UInt8} {f : DecodedFrame} (hw : IsWire tgt wire f)
    (hcap : f.body.length ≤ cap) (handle : Conn τ cap → DecodedFrame → Conn τ cap × Res ConnError Unit) :
    ∃ d, d.state = .needFlags ∧ feedFrame tgt c wire handle =
      match handle (c.withDecoder d) f with
      | (c, .error e) => (c, .error e)
      | (c, .ok ()) => (c, .ok wire.length) := by
  obtain ⟨d, hd, _, hn⟩ := FrameDecoder.feed_wire q.decoder hr.decoder hw hcap []
  rw [List.append_nil] at hd
  exact ⟨d, hn, feedFrame_complete hd handle⟩

/-- The next thing that the peer may say is taken as a whole. -/
theorem feed_takes (h : Stands E R Holds check tgt m [] s c) (q : c.Quiet) (hr : AtRest c)
    {i : Occasion} {w : Reply} {wire : List UInt8} (hstep : E.Step m s i w s') (hp : i.isPeers = true)
    (hw : i.IsWire R check tgt cap m wire) :
    ∃ c', c.feed R tgt wire = (c', .ok wire.length) ∧ c'.frameDecoder.state = .needFlags ∧ c'.state ≠ .greeting := by
  have hq := q.phase
  -- READY, in either of its states.
  have hready : (c.state = .ready ∨ c.state = .plainReady) → AcceptedReady R tgt wire → FitsFrame tgt cap wire →
      ∃ c', c.feed R tgt wire = (c', .ok wire.length) ∧ c'.frameDecoder.state = .needFlags ∧ c'.state ≠ .greeting := by
    rintro hs ⟨f, hf, _, hlen, ty, hparse⟩ ⟨f', hf', hcap⟩
    obtain ⟨_, rfl⟩ := FrameDecoder.isWire_unique hf hf' (List.prefix_refl _)
    have hhandler : (handler R tgt c.state : Conn τ cap → _) = onReady R tgt := by rcases hs with hs | hs <;> rw [hs] <;> rfl
    obtain ⟨d, hd, hfeed⟩ := feedFrame_takes q hr hf hcap (onReady R tgt)
    rw [q.feed_frame (by rcases hs with hs | hs <;> simp [hs]), hhandler, hfeed]
    rcases onReady_spec R tgt (c.withDecoder d) f with ⟨_, _, _, hon⟩ | ⟨e, hlong | herr, _⟩ | ⟨flt, _, herr, _⟩
    · rw [hon]
      exact ⟨_, rfl, hd, by simp⟩
    · omega
    · rw [hparse] at herr
      cases herr
    · rw [hparse] at herr
      cases herr
  cases h with
  | greeting hs hm =>
    have hgreeted : ∀ minor, Greeted m wire minor →
        ∃ c', c.feed R tgt wire = (c', .ok wire.length) ∧ c'.frameDecoder.state = .needFlags ∧ c'.state ≠ .greeting := by
      intro minor hg
      rw [hs] at hq
      obtain ⟨buf, pg, hf⟩ := feedGreeting_takes hr hs hm hg
      rw [feed_greeting R tgt wire hs]
      refine ⟨_, hf, hr.decoder, ?_⟩
      simp only [greeted, hq.1, if_true]
      cases c.mechanism <;> simp [afterGreeting]
    cases hstep with
    | greeted => exact hgreeted _ hw
    | greetedPlain => exact hgreeted _ hw
    | gaveUp => cases hp
    | early => cases hp
  | ready hs =>
    cases hstep with
    | ready => exact hready (.inl hs) hw.1 hw.2
    | gaveUp => cases hp
    | early => cases hp
  | hello hs hv hc =>
    cases hstep with
    | hello =>
      obtain ⟨⟨f, hf, _, user, pass, hparse, hyes⟩, f', hf', hcap⟩ := hw
      obtain ⟨_, rfl⟩ := FrameDecoder.isWire_unique hf hf' (List.prefix_refl _)
      obtain ⟨d, hd, hfeed⟩ := feedFrame_takes q hr hf hcap onHello
      rw [feed_hello R tgt wire hs, hfeed]
      rcases onHello_spec (c.withDecoder d) f with ⟨_, _, _, _, hon⟩ | ⟨_, _, hparse', hno, _⟩ | ⟨_, herr, _⟩
      · rw [hon]
        exact ⟨_, rfl, hd, by simp⟩
      · rw [hparse] at hparse'
        cases hparse'
        rw [show (c.withDecoder d).auth.check = c.auth.check from rfl, hc, hyes] at hno
        cases hno
      · rw [hparse] at herr
        cases herr
    | gaveUp => cases hp
    | early => cases hp
  | welcomed hs =>
    cases hstep with
    | readyPlain => exact hready (.inr hs) hw.1 hw.2
    | gaveUp => cases hp
    | early => cases hp
  | established hs =>
    cases hstep with
    | heard =>
      obtain ⟨d, hd, hfeed⟩ := feedFrame_takes q hr hw.1 hw.2 (onEstablished R)
      obtain ⟨t, pong, hon, _⟩ := onEstablished_spec R (c.withDecoder d) _
      rw [feed_established R tgt wire hs, hfeed, hon]
      refine ⟨_, rfl, hd, ?_⟩
      show c.state ≠ .greeting
      simp [hs]
    | gaveUp => cases hp
    | wanted => cases hp
    | unwanted => cases hp
    | early => cases hp
  | failed hs =>
    rw [hs] at hq
    exact hq.elim

/-- What a peer says takes some bytes. -/
theorem wire_ne_nil {i : Occasion} {wire : List UInt8} (hp : i.isPeers = true) (hw : i.IsWire R check tgt cap m wire) :
    wire ≠ [] := by
  have hframe : ∀ f, IsWire tgt wire f → wire ≠ [] := by
    rintro f ⟨flags, size, _, _, rfl, _⟩
    simp
  cases i with
  | greeted minor =>
    intro hnil
    have hlen := Greeted.length hw
    rw [hnil] at hlen
    cases hlen
  | hello =>
    obtain ⟨⟨f, hf, _⟩, _⟩ := hw
    exact hframe f hf
  | ready =>
    obtain ⟨⟨f, hf, _⟩, _⟩ := hw
    exact hframe f hf
  | heard f => exact hframe f hw.1
  | gaveUp => cases hp
  | publish key payload => cases hp

/-- A session takes the next thing that the peer may say, and answers it. -/
theorem Stands.takes (I : E.Implements R ask Holds) (h : Stands E R Holds check tgt m [] s c) (q : c.Quiet) (hr : AtRest c)
    {i : Occasion} {w : Reply} {wire : List UInt8} (hstep : E.Step m s i w s') (hp : i.isPeers = true)
    (hw : i.IsWire R check tgt cap m wire) :
    ∃ c' sent, sessionSteps R tgt c wire = ⟨c', sent, none⟩ ∧ c'.Quiet ∧ AtRest c' ∧ Stands E R Holds check tgt m [] s' c' ∧
      sent.flatMap Sent.bytes = wireOf w.frames := by
  have hne : wire ≠ [] := wire_ne_nil hp hw
  obtain ⟨c1, hfeed, hdec, hst⟩ := feed_takes h q hr hstep hp hw
  rcases @Quiet.feed_spec _ _ R tgt I.lawful.fits _ q _ hne with ⟨c2, n, hf, _, _, hans, _, hsession⟩ | ⟨_, _, _, hf, _⟩
  · rw [hfeed] at hf
    cases hf
    obtain ⟨q', hfault, _⟩ := hans.reply I.lawful.fits
    obtain ⟨_, ready, welcome, pong, hc'⟩ := reply_sends I.lawful.fits hans
    have hrest : sessionSteps R tgt c wire = reply R c c1 := by
      rw [hsession, List.drop_length]
      exact Outcome.andThen_stop _
    have hfed := h.feed I q wire (fun c2 k he => by
      rw [hfeed] at he
      cases he
      exact hans)
    rw [hfeed] at hfed
    rcases hfed with ⟨hstay, _⟩ | ⟨j, v, s'', hstep', hj, hwj, hstand, hsent⟩
    · rw [List.nil_append, List.take_length] at hstay
      exact absurd (List.prefix_refl _) (hstay.no_more hstep hw hne)
    · rw [List.nil_append, List.take_length] at hwj
      obtain ⟨rfl, rfl⟩ := step_determined hstep hstep' hp hj hw hwj hne
      refine ⟨(reply R c c1).state, (reply R c c1).out, ?_, q', ?_, ?_, hsent⟩
      · rw [hrest, ← hfault]
      · rw [hc']
        exact ⟨hdec, fun hg => absurd hg hst⟩
      · rw [hc']
        exact hstand.sends ready welcome pong
  · rw [hfeed] at hf
    cases hf

/-- A session takes all that a peer says on a path of the endpoint, and answers it. -/
theorem session_path (I : E.Implements R ask Holds) {is : List Occasion} {ws : List Reply}
    (hpath : Run.Path (E.Step m) s is ws s') :
    ∀ {c : Conn τ cap} {stream : List UInt8}, Stands E R Holds check tgt m [] s c → c.Quiet → AtRest c →
      (∀ i ∈ is, i.isPeers = true) → Spelled (Occasion.IsWire R check tgt cap m) is stream →
      ∃ c' sent, sessionSteps R tgt c stream = ⟨c', sent, none⟩ ∧ c'.Quiet ∧ Stands E R Holds check tgt m [] s' c' ∧
        sent.flatMap Sent.bytes = wireOf (framesOf ws) := by
  induction hpath with
  | nil =>
    intro c stream h q _ _ hspell
    cases hspell
    exact ⟨c, [], rfl, q, h, rfl⟩
  | @cons s s1 s' i w is ws hstep _ ih =>
    intro c stream h q hr hp hspell
    cases hspell with
    | @cons _ wire rest _ hw hspell =>
      obtain ⟨c1, sent, hone, q1, hr1, h1, hsent⟩ := h.takes I q hr hstep (hp _ List.mem_cons_self) hw
      obtain ⟨c', sent', hmore, q', h', hsent'⟩ := ih h1 q1 hr1 (fun j hj => hp j (List.mem_cons_of_mem _ hj)) hspell
      refine ⟨c', sent ++ sent', ?_, q', h', ?_⟩
      · rw [session_append, hone, Outcome.andThen_none rfl, hmore]
      · rw [List.flatMap_append, hsent, hsent', ← wireOf_append]
        rfl

/-- A session that is established stays so. -/
theorem established_session (hR : R.readyFrame.length ≤ 32) (q : c.Quiet) (hs : c.state = .established) {xs : List UInt8}
    (h : (sessionSteps R tgt c xs).fault = none) : (sessionSteps R tgt c xs).state.state = .established := by
  refine (steps_keeps (I := fun c : Conn τ cap => c.Quiet ∧ c.state = .established) ?_ ?_ ⟨q, hs⟩ h).2
  · rintro c b c' ⟨q, hs⟩ hp
    exact ⟨(q.more hp).1, (q.more hp).2.trans hs⟩
  · rintro c b c' u ⟨q, hs⟩ hp _
    obtain ⟨hcomp, hi⟩ := q.completed hp
    obtain ⟨q', _, hst, _⟩ := hcomp.reply hR hi
    refine ⟨q', hst.trans ?_⟩
    cases hcomp with
    | established after => exact after
    | ready before => simp [hs] at before
    | hello before => simp [hs] at before
    | welcome before => simp [hs] at before

end Peer

end Mzmq
