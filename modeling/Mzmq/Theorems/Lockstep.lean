import Mzmq.Lemmas.Run
import Mzmq.Peer

/-!
# The two handshakes in lockstep

The same calls are made on a PUB and on a RADIO connection. But for their tables the two stay equal (`Conn.bare`) until a feed
completes the peer's READY: there the one that is not meant for the peer fails.
-/

namespace Mzmq

open Checked

namespace Conn

variable {τ σ : Type} {cap : Nat}

/-- A connection without its table. -/
def bare (c : Conn τ cap) : Conn Unit cap where
  state := c.state
  ourGreetingSent := c.ourGreetingSent
  peerGreetingReceived := c.peerGreetingReceived
  peerVersionMinor := c.peerVersionMinor
  ourReadySent := c.ourReadySent
  ourWelcomeSent := c.ourWelcomeSent
  mechanism := c.mechanism
  greetingBuf := c.greetingBuf
  greetingPos := c.greetingPos
  frameDecoder := c.frameDecoder
  table := ()
  pendingPong := c.pendingPong
  auth := c.auth

/-- Two connections in lockstep: every operation is carried out on both. -/
def lockstep (R : Role τ) (S : Role σ) (tgt : Target) (p : Conn τ cap × Conn σ cap) (op : Op) :
    (Conn τ cap × Conn σ cap) × (OpResult × OpResult) :=
  (((apply R tgt p.1 op).1, (apply S tgt p.2 op).1), ((apply R tgt p.1 op).2, (apply S tgt p.2 op).2))

/-- A panic of either ends the run. -/
def haltsEither (r : OpResult × OpResult) : Bool := r.1.halts || r.2.halts

/-- The operations of a handshake; READY is written into a buffer that both READY frames fit. -/
def Op.isHandshake : Op → Bool
  | .writeGreeting _ => true
  | .writeWelcome _ => true
  | .writeReady out => 29 ≤ out.length
  | .feed _ => true
  | _ => false

/-- The operation is a feed that completes the peer's READY frame. -/
def completesReady (tgt : Target) (c : Conn τ cap) : Op → Bool
  | .feed input => c.awaitsReady && match (c.frameDecoder.feed tgt input).2 with
    | .ok (_, some _) => true
    | _ => false
  | _ => false

/-- The same error, the same number of consumed bytes, or something written by both. -/
def Corresponding : OpResult → OpResult → Prop
  | .fed r, .fed r' => r = r'
  | .wrote _ r, .wrote _ r' => r.map (fun _ => ()) = r'.map (fun _ => ())
  | _, _ => False

/-- What the feed that completes the peer's READY comes to: at most one of the two is `Established`, and then the other has
failed with `WrongSocketType`; or both fail with the same error. -/
structure Parted (ev : Run.Event (Conn τ cap × Conn σ cap) Op (OpResult × OpResult)) : Prop where
  not_both : ¬(ev.post.1.state = .established ∧ ev.post.2.state = .established)
  left : ev.post.1.state = .established →
    ev.res.2 = .fed (.error (.err (.nullError .wrongSocketType))) ∧ ev.post.2.state = .failed
  right : ev.post.2.state = .established →
    ev.res.1 = .fed (.error (.err (.nullError .wrongSocketType))) ∧ ev.post.1.state = .failed
  neither : ev.post.1.state ≠ .established → ev.post.2.state ≠ .established →
    ∃ f, ev.res.1 = .fed (.error f) ∧ ev.res.2 = .fed (.error f)

/-- Up to the feed that completes the peer's READY, the states and the results correspond; there the two part. -/
def HandshakesAgree (tgt : Target) (h : List (Run.Event (Conn τ cap × Conn σ cap) Op (OpResult × OpResult))) : Prop :=
  ∀ h1 ev h2, h = h1 ++ ev :: h2 → (∀ e ∈ h1, completesReady tgt e.pre.1 e.op = false) →
    ev.pre.1.bare = ev.pre.2.bare ∧
    (completesReady tgt ev.pre.1 ev.op = false → ev.post.1.bare = ev.post.2.bare ∧ Corresponding ev.res.1 ev.res.2) ∧
    (completesReady tgt ev.pre.1 ev.op = true → Parted ev)

/-! ## What the table has no part in -/

section Bare

variable (c : Conn τ cap)

/-- The checks of the greeting do without the table. -/
theorem greetingTail_bare (prevPos n : Nat) :
    greetingTail prevPos n c.bare = ((greetingTail prevPos n c).1.bare, (greetingTail prevPos n c).2) := by
  have hfull : greetingFull c.bare n = ((greetingFull c n).1.bare, (greetingFull c n).2) := by
    unfold greetingFull
    by_cases hpos : c.greetingPos = greetingLen
    · rw [if_pos hpos, if_pos (show c.bare.greetingPos = greetingLen from hpos)]
      cases hp : parsePeerGreeting c.mechanism c.greetingBuf with
      | error e =>
        have hp' : parsePeerGreeting c.bare.mechanism c.bare.greetingBuf = .error e := hp
        simp only [hp']
      | ok g =>
        have hp' : parsePeerGreeting c.bare.mechanism c.bare.greetingBuf = .ok g := hp
        simp only [hp']
        by_cases hsent : c.ourGreetingSent = true
        · rw [if_pos hsent, if_pos (show c.bare.ourGreetingSent = true from hsent)]
          rfl
        · rw [if_neg hsent, if_neg (show ¬c.bare.ourGreetingSent = true from hsent)]
          rfl
    · rw [if_neg hpos, if_neg (show ¬c.bare.greetingPos = greetingLen from hpos)]
  unfold greetingTail
  rw [hfull]
  cases hch : greetingCheck prevPos c.greetingPos c.greetingBuf with
  | error e =>
    have hch' : greetingCheck prevPos c.bare.greetingPos c.bare.greetingBuf = .error e := hch
    simp only [hch']
  | ok u =>
    have hch' : greetingCheck prevPos c.bare.greetingPos c.bare.greetingBuf = .ok u := hch
    simp only [hch']

/-- The greeting is read without the table. -/
theorem feedGreeting_bare (input : List UInt8) :
    feedGreeting c.bare input = ((feedGreeting c input).1.bare, (feedGreeting c input).2) := by
  cases hc : copyInto (ε := ConnError) c.greetingBuf c.greetingPos (input.take (c.greetingTaken input)) with
  | error f =>
    unfold greetingTaken at hc
    simp only [feedGreeting, bare, hc]
  | ok buf =>
    rw [feedGreeting_copied hc, feedGreeting_copied (c := c.bare) hc]
    exact greetingTail_bare (c.withGreeting buf (c.greetingPos + c.greetingTaken input)) c.greetingPos (c.greetingTaken input)

/-- HELLO is handled without the table. -/
theorem onHello_bare (f : DecodedFrame) : onHello c.bare f = ((onHello c f).1.bare, (onHello c f).2) := by
  rcases onHello_spec c f with ⟨u, p, hp, hyes, he⟩ | ⟨u, p, hp, hno, he⟩ | ⟨e, hp, he⟩
  · rw [he]
    simp only [onHello, hp, bare, Auth.consult, hyes]
  · rw [he]
    simp only [onHello, hp, bare, Auth.consult, hno]
  · rw [he]
    simp only [onHello, hp, bare]

/-- A handler that has no part in the table makes a feed of frames that has none. -/
theorem feedFrame_bare (tgt : Target) (input : List UInt8)
    {handle : Conn τ cap → DecodedFrame → Conn τ cap × Res ConnError Unit}
    {handle' : Conn Unit cap → DecodedFrame → Conn Unit cap × Res ConnError Unit}
    (hh : ∀ d n f, c.frameDecoder.feed tgt input = (d, .ok (n, some f)) →
      handle' (c.withDecoder d).bare f = ((handle (c.withDecoder d) f).1.bare, (handle (c.withDecoder d) f).2)) :
    feedFrame tgt c.bare input handle' = ((feedFrame tgt c input handle).1.bare, (feedFrame tgt c input handle).2) := by
  have hd : c.bare.frameDecoder = c.frameDecoder := rfl
  unfold feedFrame
  rw [hd]
  rcases hf : c.frameDecoder.feed tgt input with ⟨d, f | ⟨n, _ | f⟩⟩
  · rfl
  · rfl
  · have := hh d n f hf
    have hb : (c.bare.withDecoder d) = (c.withDecoder d).bare := rfl
    simp only [hb, this]
    rcases handle (c.withDecoder d) f with ⟨c', flt | u⟩ <;> rfl

/-- As long as no READY of the peer is complete, a handshake goes on without the table, and without the role. -/
theorem feed_bare (R : Role τ) (R0 : Role Unit) (tgt : Target) {input : List UInt8} (hs : c.state ≠ .established)
    (hno : completesReady tgt c (.feed input) = false) :
    c.bare.feed R0 tgt input = ((c.feed R tgt input).1.bare, (c.feed R tgt input).2) := by
  rcases c.feed_stage with h | h | h | h | h
  · rw [feed_greeting R tgt input h, feed_greeting R0 tgt input (show c.bare.state = .greeting from h), feedGreeting_bare]
  · rw [feed_hello R tgt input h, feed_hello R0 tgt input (show c.bare.state = .plainHello from h)]
    exact c.feedFrame_bare tgt input fun d n f _ => onHello_bare (c.withDecoder d) f
  · -- The decoder completes no frame.
    rw [feed_awaiting R tgt input h, feed_awaiting R0 tgt input (show c.bare.awaitsReady = true from h)]
    refine c.feedFrame_bare tgt input ?_
    intro d n f hf
    simp [completesReady, h, hf] at hno
  · exact absurd h hs
  · rw [feed_refused R tgt input h, feed_refused R0 tgt input (show c.bare.Refuses from h)]

/-- Only a READY of the peer makes a connection `Established`. -/
theorem feed_not_established (R : Role τ) (tgt : Target) {input : List UInt8}
    (hpos : c.state = .greeting → c.greetingPos ≤ greetingLen) (hs : c.state ≠ .established)
    (hno : completesReady tgt c (.feed input) = false) : (c.feed R tgt input).1.state ≠ .established := by
  rcases c.feed_stage with h | h | h | h | h
  · rw [feed_greeting R tgt input h]
    obtain ⟨buf, _, ⟨e, he, _⟩ | ⟨_, _, he⟩ | ⟨pg, _, _, he⟩⟩ := feedGreeting_spec (hpos h) input
    · rw [he]
      exact hs
    · rw [he]
      exact hs
    · rw [he]
      unfold greeted
      cases c.ourGreetingSent <;> cases c.mechanism <;> simp [afterGreeting, h]
  · rw [feed_hello R tgt input h]
    refine feedFrame_keeps (fun c => c.state ≠ .established) (fun _ => hs) ?_ tgt input
    intro d f
    rcases onHello_spec (c.withDecoder d) f with ⟨_, _, _, _, he⟩ | ⟨_, _, _, _, he⟩ | ⟨_, _, he⟩ <;> rw [he] <;> simp
  · rw [feed_awaiting R tgt input h]
    unfold feedFrame
    split
    · exact hs
    · exact hs
    · rename_i d n f hf
      simp [completesReady, h, hf] at hno
  · exact absurd h hs
  · rw [feed_refused R tgt input h]
    exact hs

/-- Our greeting is written without the table. -/
theorem writeGreeting_bare (out : List UInt8) :
    c.bare.writeGreeting out = ((c.writeGreeting out).1.bare, (c.writeGreeting out).2) := by
  unfold writeGreeting
  by_cases h : c.state ≠ .greeting ∨ c.ourGreetingSent = true
  · rw [if_pos h, if_pos (show c.bare.state ≠ .greeting ∨ c.bare.ourGreetingSent = true from h)]
  · rw [if_neg h, if_neg (show ¬(c.bare.state ≠ .greeting ∨ c.bare.ourGreetingSent = true) from h)]
    split <;> rfl

/-- WELCOME is written without the table. -/
theorem writeWelcome_bare (out : List UInt8) :
    c.bare.writeWelcome out = ((c.writeWelcome out).1.bare, (c.writeWelcome out).2) := by
  unfold writeWelcome
  by_cases h : c.state ≠ .plainReady ∨ c.ourWelcomeSent = true
  · rw [if_pos h, if_pos (show c.bare.state ≠ .plainReady ∨ c.bare.ourWelcomeSent = true from h)]
  · rw [if_neg h, if_neg (show ¬(c.bare.state ≠ .plainReady ∨ c.bare.ourWelcomeSent = true) from h)]
    rcases encodeWelcome out with ⟨out', e | n⟩ <;> rfl

end Bare

/-! ## One step -/

/-- Two connections that are equal but for their tables, and not yet `Established`. -/
structure Alike (c : Conn τ cap) (d : Conn σ cap) : Prop where
  bare : c.bare = d.bare
  shaking : c.state ≠ .established
  pos : c.state = .greeting → c.greetingPos ≤ greetingLen

variable {R : Role τ} {S : Role σ} {tgt : Target} {c c' : Conn τ cap} {d d' : Conn σ cap}

/-- What does not look at the table is the same of both. -/
theorem bare_congr {α : Type} (f : Conn Unit cap → α) (h : c.bare = d.bare) : f c.bare = f d.bare := congrArg f h

/-- Two connections stay alike when the state and the greeting stay. -/
theorem Alike.keep (a : Alike c d) (hb : c'.bare = d'.bare) (hs : c'.state = c.state)
    (hp : c'.greetingPos = c.greetingPos) : Alike c' d' := by
  refine ⟨hb, ?_, ?_⟩
  · rw [hs]
    exact a.shaking
  · rw [hs, hp]
    exact a.pos

/-- A feed keeps two connections alike, and returns the same, as long as it completes no READY. -/
theorem Alike.feed (a : Alike c d) (R : Role τ) (S : Role σ) (tgt : Target) {input : List UInt8}
    (hno : completesReady tgt c (.feed input) = false) :
    Alike (c.feed R tgt input).1 (d.feed S tgt input).1 ∧ (c.feed R tgt input).2 = (d.feed S tgt input).2 := by
  -- The feed of the bare connection does not depend on a role.
  let R0 : Role Unit :=
    ⟨(), [], fun _ _ _ => .error .hang, [], [], fun _ _ => (), fun _ _ => (), fun _ _ => (), fun _ _ => false⟩
  have hs' : d.state ≠ .established := by
    intro h
    exact a.shaking ((bare_congr (fun b => b.state) a.bare).trans h)
  have hno' : completesReady tgt d (.feed input) = false :=
    (bare_congr (fun b => completesReady tgt b (.feed input)) a.bare).symm.trans hno
  have h1 := c.feed_bare R R0 tgt a.shaking hno
  have h2 := d.feed_bare S R0 tgt hs' hno'
  rw [a.bare, h2, Prod.mk.injEq] at h1
  exact ⟨⟨h1.1.symm, c.feed_not_established R tgt a.pos a.shaking hno, feed_greetingPos_le a.pos R tgt input⟩, h1.2.symm⟩

/-- Writing our greeting keeps two connections alike. -/
theorem Alike.writeGreeting (a : Alike c d) (out : List UInt8) :
    Alike (c.writeGreeting out).1 (d.writeGreeting out).1 ∧ (c.writeGreeting out).2 = (d.writeGreeting out).2 := by
  have h := (c.writeGreeting_bare out).symm.trans ((bare_congr (fun b => b.writeGreeting out) a.bare).trans
    (d.writeGreeting_bare out))
  rw [Prod.mk.injEq] at h
  refine ⟨?_, h.2⟩
  rcases c.writeGreeting_spec out with ⟨_, he, _⟩ | ⟨_, he⟩
  · exact a.keep h.1 (by rw [he]) (by rw [he])
  · exact a.keep h.1 (by rw [he]) (by rw [he])

/-- Writing WELCOME keeps two connections alike. -/
theorem Alike.writeWelcome (a : Alike c d) (out : List UInt8) :
    Alike (c.writeWelcome out).1 (d.writeWelcome out).1 ∧ (c.writeWelcome out).2 = (d.writeWelcome out).2 := by
  have h := (c.writeWelcome_bare out).symm.trans ((bare_congr (fun b => b.writeWelcome out) a.bare).trans
    (d.writeWelcome_bare out))
  rw [Prod.mk.injEq] at h
  refine ⟨?_, h.2⟩
  rcases c.writeWelcome_spec out with ⟨_, he, _⟩ | ⟨_, _, he⟩
  · exact a.keep h.1 (by rw [he]) (by rw [he])
  · exact a.keep h.1 (by rw [he]) (by rw [he])

/-- Writing READY keeps two connections alike, when the buffer fits either READY frame. -/
theorem Alike.writeReady (a : Alike c d) {out : List UInt8} (hR : R.readyFrame.length ≤ out.length)
    (hS : S.readyFrame.length ≤ out.length) :
    Alike (c.writeReady R out).1 (d.writeReady S out).1 ∧
      (c.writeReady R out).2.2.map (fun _ => ()) = (d.writeReady S out).2.2.map (fun _ => ()) := by
  have hin : c.inReadyState = d.inReadyState := bare_congr (fun b => b.inReadyState) a.bare
  have hsent : c.ourReadySent = d.ourReadySent := bare_congr (fun b => b.ourReadySent) a.bare
  by_cases h : c.inReadyState = true ∧ c.ourReadySent = false
  · have hset := bare_congr (fun b => { b with ourReadySent := true }) a.bare
    rw [writeReady_ok h.1 h.2 hR, writeReady_ok (hin ▸ h.1) (hsent ▸ h.2) hS]
    exact ⟨a.keep hset rfl rfl, rfl⟩
  · have h' : ¬(d.inReadyState = true ∧ d.ourReadySent = false) := by rwa [hin, hsent] at h
    rw [writeReady_refused h, writeReady_refused h']
    exact ⟨a, rfl⟩

/-- Every operation of the handshake keeps two connections alike, until a feed completes the peer's READY. -/
theorem Alike.step (a : Alike c d) (hR : R.readyFrame.length ≤ 29) (hS : S.readyFrame.length ≤ 29) {op : Op}
    (hop : op.isHandshake = true) (hno : completesReady tgt c op = false) :
    Alike (apply R tgt c op).1 (apply S tgt d op).1 ∧ Corresponding (apply R tgt c op).2 (apply S tgt d op).2 := by
  cases op with
  | writeGreeting out =>
    obtain ⟨h1, h2⟩ := a.writeGreeting out
    exact ⟨h1, by simp only [apply, Corresponding, h2]⟩
  | writeWelcome out =>
    obtain ⟨h1, h2⟩ := a.writeWelcome out
    exact ⟨h1, by simp only [apply, Corresponding, h2]⟩
  | writeReady out =>
    have hlen : 29 ≤ out.length := by simpa [Op.isHandshake] using hop
    exact a.writeReady (hR.trans hlen) (hS.trans hlen)
  | feed input => exact a.feed R S tgt hno
  | publishHeaders _ _ => cases hop
  | publish _ _ _ => cases hop
  | writeError _ => cases hop
  | writePong _ => cases hop

/-! ## Where the two part -/

/-- No READY is accepted by both roles: what one accepts is the wrong socket type for the other, and what neither accepts is
the same error. -/
def Rivals (R : Role τ) (S : Role σ) : Prop :=
  ∀ (tgt : Target) (isCommand : Bool) (body : List UInt8),
    (∃ f, R.parseReady tgt isCommand body = .error f ∧ S.parseReady tgt isCommand body = .error f) ∨
    (∃ t, R.parseReady tgt isCommand body = .ok t ∧ S.parseReady tgt isCommand body = .error (.err .wrongSocketType)) ∨
    (R.parseReady tgt isCommand body = .error (.err .wrongSocketType) ∧ ∃ t, S.parseReady tgt isCommand body = .ok t)

/-- A READY that is too long. -/
theorem onReady_long {f : DecodedFrame} (hlen : f.body.length > 255) (R : Role τ) (tgt : Target) (c : Conn τ cap) :
    onReady R tgt c f = ({ c with state := .failed }, .error (.err (.nullError .malformedMetadata))) := by
  rw [onReady, if_pos hlen]

/-- A READY that makes the parser panic. -/
theorem onReady_abort {f : DecodedFrame} (hlen : ¬f.body.length > 255) {flt : Fault NullError} (hab : flt.aborts = true)
    (hp : R.parseReady tgt f.isCommand f.body = .error flt) (c : Conn τ cap) :
    onReady R tgt c f = (c, .error (flt.mapErr .nullError)) := by
  rw [onReady, if_neg hlen]
  cases flt with
  | err e => cases hab
  | panic => simp only [hp]
  | hang => simp only [hp]

/-- A READY that the parser accepts. -/
theorem onReady_ok {f : DecodedFrame} (hlen : ¬f.body.length > 255) {t : PeerSocketType}
    (hp : R.parseReady tgt f.isCommand f.body = .ok t) (c : Conn τ cap) :
    onReady R tgt c f = ({ c with state := .established }, .ok ()) := by
  rw [onReady, if_neg hlen]
  simp only [hp]

/-- A READY that the parser rejects. -/
theorem onReady_err {f : DecodedFrame} (hlen : ¬f.body.length > 255) {e : NullError}
    (hp : R.parseReady tgt f.isCommand f.body = .error (.err e)) (c : Conn τ cap) :
    onReady R tgt c f = ({ c with state := .failed }, .error (.err (.nullError e))) := by
  rw [onReady, if_neg hlen]
  simp only [hp]

/-- The feed that completes the peer's READY makes the two part. -/
theorem Alike.parted (a : Alike c d) (hRS : Rivals R S) {op : Op} (hcomp : completesReady tgt c op = true) :
    Parted ⟨(c, d), op, (lockstep R S tgt (c, d) op).2, (lockstep R S tgt (c, d) op).1⟩ := by
  cases op with
  | feed input =>
    simp only [completesReady, Bool.and_eq_true] at hcomp
    obtain ⟨ha, hf⟩ := hcomp
    have ha' : d.awaitsReady = true := (bare_congr (fun b => b.awaitsReady) a.bare).symm.trans ha
    have hdec : d.frameDecoder = c.frameDecoder := (bare_congr (fun b => b.frameDecoder) a.bare).symm
    have hst : d.state = c.state := (bare_congr (fun b => b.state) a.bare).symm
    have hne := a.shaking
    rcases hr : c.frameDecoder.feed tgt input with ⟨dec, flt | ⟨n, _ | f⟩⟩
    · simp [hr] at hf
    · simp [hr] at hf
    · have hc := (feed_awaiting R tgt input ha).trans (feedFrame_complete hr (onReady R tgt))
      have hd := (feed_awaiting S tgt input ha').trans (feedFrame_complete (hdec ▸ hr) (onReady S tgt))
      simp only [lockstep, apply, hc, hd]
      by_cases hlen : f.body.length > 255
      · -- Neither takes a long READY.
        rw [onReady_long hlen, onReady_long hlen]
        exact ⟨fun h => (by cases h.1), fun h => (by cases h), fun h => (by cases h), fun _ _ => ⟨_, rfl, rfl⟩⟩
      · rcases hRS tgt f.isCommand f.body with ⟨flt, hp, hp'⟩ | ⟨t, hp, hp'⟩ | ⟨hp, t, hp'⟩
        · by_cases hab : flt.aborts = true
          · -- Both parsers panic.
            rw [onReady_abort hlen hab hp, onReady_abort hlen hab hp']
            refine ⟨fun h => absurd h.1 hne, fun h => absurd h hne, fun h => absurd (hst.symm.trans h) hne, ?_⟩
            exact fun _ _ => ⟨_, rfl, rfl⟩
          · cases flt with
            | err e =>
              rw [onReady_err hlen hp, onReady_err hlen hp']
              exact ⟨fun h => (by cases h.1), fun h => (by cases h), fun h => (by cases h), fun _ _ => ⟨_, rfl, rfl⟩⟩
            | panic => exact absurd rfl hab
            | hang => exact absurd rfl hab
        · rw [onReady_ok hlen hp, onReady_err hlen hp']
          exact ⟨fun h => (by cases h.2), fun _ => ⟨rfl, rfl⟩, fun h => (by cases h), fun h => absurd rfl h⟩
        · rw [onReady_err hlen hp, onReady_ok hlen hp']
          exact ⟨fun h => (by cases h.1), fun h => (by cases h), fun _ => ⟨rfl, rfl⟩, fun _ h => absurd rfl h⟩
  | _ => cases hcomp

/-! ## Runs -/

/-- In lockstep, the two stay alike until a feed completes the peer's READY. -/
theorem alike_of_run (hR : R.readyFrame.length ≤ 29) (hS : S.readyFrame.length ≤ 29) {c0 : Conn τ cap} {d0 : Conn σ cap}
    (a : Alike c0 d0) {h : List (Run.Event (Conn τ cap × Conn σ cap) Op (OpResult × OpResult))} {p : Conn τ cap × Conn σ cap}
    (hr : Run.Runs (lockstep R S tgt) haltsEither (c0, d0) h p) (hops : ∀ ev ∈ h, ev.op.isHandshake = true) :
    (∀ ev ∈ h, completesReady tgt ev.pre.1 ev.op = false) → Alike p.1 p.2 := by
  revert hops
  refine hr.invariant (fun h p => (∀ ev ∈ h, ev.op.isHandshake = true) →
    (∀ ev ∈ h, completesReady tgt ev.pre.1 ev.op = false) → Alike p.1 p.2) (fun _ _ => a) ?_
  intro h p op _ ih hops hno
  have hlast : ∀ {x : Run.Event (Conn τ cap × Conn σ cap) Op (OpResult × OpResult)}, x ∈ h ++ [x] := by simp
  have a := ih (fun ev hev => hops ev (List.mem_append_left _ hev)) (fun ev hev => hno ev (List.mem_append_left _ hev))
  exact (a.step hR hS (hops _ hlast) (hno _ hlast)).1

/-- The handshakes of two rivals agree in every run. -/
theorem handshakesAgree (hR : R.readyFrame.length ≤ 29) (hS : S.readyFrame.length ≤ 29) (hRS : Rivals R S)
    {c0 : Conn τ cap} {d0 : Conn σ cap} (a : Alike c0 d0)
    {h : List (Run.Event (Conn τ cap × Conn σ cap) Op (OpResult × OpResult))} {p : Conn τ cap × Conn σ cap}
    (hr : Run.Runs (lockstep R S tgt) haltsEither (c0, d0) h p) (hops : ∀ ev ∈ h, ev.op.isHandshake = true) :
    HandshakesAgree tgt h := by
  intro h1 ev h2 hh hno
  subst hh
  have hev : ev ∈ h1 ++ ev :: h2 := by simp
  obtain ⟨hr1, hres, hpost⟩ := hr.before
  have a1 : Alike ev.pre.1 ev.pre.2 := alike_of_run hR hS a hr1 (fun e he => hops e (List.mem_append_left _ he)) hno
  refine ⟨a1.bare, ?_, ?_⟩
  · intro hlast
    obtain ⟨a2, hc⟩ := a1.step (S := S) hR hS (hops ev hev) hlast
    rw [hres, hpost]
    exact ⟨a2.bare, hc⟩
  · intro hlast
    have := a1.parted hRS hlast
    rw [← hres, ← hpost] at this
    exact this

/-- Two new connections are alike. -/
theorem alike_init (R : Role τ) (S : Role σ) (m : Mechanism) (auth : Auth) :
    Alike (Conn.init R m auth : Conn τ cap) (Conn.init S m auth : Conn σ cap) :=
  ⟨rfl, by simp [Conn.init], fun _ => Nat.zero_le _⟩

end Conn

/-- SUB and XSUB are not DISH. -/
theorem rivals {V W : Type → Nat → Type} [FixedVec V] [FixedVec W] {tableCap nameCap tableCap' nameCap' : Nat} :
    Conn.Rivals (Connection.role : Role (SubTable V tableCap nameCap))
      (RadioConnection.role : Role (GroupTable W tableCap' nameCap')) := by
  intro tgt isCommand body
  have hsub : (Connection.role : Role (SubTable V tableCap nameCap)).parseReady tgt isCommand body =
      (parseReadyCommand tgt isCommand body >>= socketTypeOfSub) := rfl
  have hdish : (RadioConnection.role : Role (GroupTable W tableCap' nameCap')).parseReady tgt isCommand body =
      (parseReadyCommand tgt isCommand body >>= socketTypeOfDish) := rfl
  rw [hsub, hdish]
  cases parseReadyCommand tgt isCommand body with
  | error f => exact .inl ⟨f, rfl, rfl⟩
  | ok val =>
    simp only [bind, Except.bind, socketTypeOfSub, socketTypeOfDish]
    by_cases h1 : val = subName
    · subst h1
      exact .inr (.inl ⟨_, rfl, rfl⟩)
    · by_cases h2 : val = xsubName
      · subst h2
        exact .inr (.inl ⟨_, rfl, rfl⟩)
      · rw [if_neg h1, if_neg h2]
        by_cases h3 : val = dishName
        · rw [if_pos h3]
          exact .inr (.inr ⟨rfl, _, rfl⟩)
        · rw [if_neg h3]
          exact .inl ⟨_, rfl, rfl⟩

/-- The handshakes of a PUB and of a RADIO connection agree, over both mechanisms, with the same authenticator and in every
run in lockstep. -/
theorem handshakes_agree (V W : Type → Nat → Type) [FixedVec V] [FixedVec W] (tgt : Target)
    (subCap prefixCap groupCap groupLenCap frameCap : Nat) (check : List UInt8 → List UInt8 → Bool) :
    (∀ h p, Run.Runs (Conn.lockstep Connection.role RadioConnection.role tgt) Conn.haltsEither
        ((Connection.new : Connection V subCap prefixCap frameCap),
          (RadioConnection.new : RadioConnection W groupCap groupLenCap frameCap)) h p →
      (∀ ev ∈ h, ev.op.isHandshake = true) → Conn.HandshakesAgree tgt h) ∧
    ∀ h p, Run.Runs (Conn.lockstep Connection.role RadioConnection.role tgt) Conn.haltsEither
        ((Connection.newPlain check : Connection V subCap prefixCap frameCap),
          (RadioConnection.newPlain check : RadioConnection W groupCap groupLenCap frameCap)) h p →
      (∀ ev ∈ h, ev.op.isHandshake = true) → Conn.HandshakesAgree tgt h := by
  have hpub : (Connection.role : Role (SubTable V subCap prefixCap)).readyFrame.length ≤ 29 := by
    change readyFrame.length ≤ 29
    decide
  have hradio : (RadioConnection.role : Role (GroupTable W groupCap groupLenCap)).readyFrame.length ≤ 29 := by
    change radioReadyFrame.length ≤ 29
    decide
  constructor
  · intro h p hr hops
    exact Conn.handshakesAgree hpub hradio rivals (Conn.alike_init _ _ _ _) hr hops
  · intro h p hr hops
    exact Conn.handshakesAgree hpub hradio rivals (Conn.alike_init _ _ _ _) hr hops

/-- A SUB peer, whose READY comes in two feeds: the PUB connection is established, and the RADIO connection has failed. -/
theorem handshakes_agree_sub_peer :
    let run := Run.exec (Conn.lockstep Connection.role RadioConnection.role ⟨.w32, false⟩) Conn.haltsEither
      ((Connection.new : Connection BVec 2 8 32), (RadioConnection.new : RadioConnection BVec 3 4 32))
      (Peer.opening ++ [.feed (Peer.subReady.take 9), .feed (Peer.subReady.drop 9)])
    (run.2.1.state = .established ∧ run.2.2.state = .failed) ∧ Conn.HandshakesAgree ⟨.w32, false⟩ run.1 := by
  intro run
  refine ⟨by decide +kernel, ?_⟩
  exact (handshakes_agree BVec BVec ⟨.w32, false⟩ 2 8 3 4 32 (fun _ _ => true)).1 run.1 run.2 (Run.runs_exec _ _)
    (by decide +kernel)

end Mzmq
