import Mzmq.Lemmas.Wire
import Mzmq.Lemmas.Command
import Mzmq.Conn

/-!
# What each handler does

One lemma for each handler of a frame says everything it can do to the connection: which state it leaves, which errors it
returns, and which fields it touches.
-/

namespace Mzmq
namespace Conn

open Checked Consumer

variable {τ : Type} {cap : Nat} {R : Role τ} {tgt : Target}

/-! ## Which handler a feed goes to -/

/-- The peer's READY is awaited: all of our part of the handshake is written. -/
def awaitsReady (c : Conn τ cap) : Bool :=
  c.ourReadySent && (c.state == .ready || c.state == .plainReady && c.ourWelcomeSent)

/-- A feed comes out of turn: the state is `Failed`, or our part of the handshake is not written yet. -/
def Refuses (c : Conn τ cap) : Prop :=
  c.state = .failed ∨ c.state = .ready ∧ c.ourReadySent = false ∨
    c.state = .plainReady ∧ (c.ourWelcomeSent = false ∨ c.ourReadySent = false)

/-- What a connection can do with a feed. -/
theorem feed_stage (c : Conn τ cap) :
    c.state = .greeting ∨ c.state = .plainHello ∨ c.awaitsReady = true ∨ c.state = .established ∨ c.Refuses := by
  unfold awaitsReady Refuses
  cases c.state <;> cases c.ourReadySent <;> cases c.ourWelcomeSent <;> simp

section Stages

variable {c : Conn τ cap} (R : Role τ) (tgt : Target) (input : List UInt8)

theorem feed_greeting (h : c.state = .greeting) : c.feed R tgt input = feedGreeting c input := by
  simp only [feed, h]

theorem feed_ready (h : c.state = .ready) : c.feed R tgt input = feedReady R tgt c input := by
  simp only [feed, h]

theorem feed_hello (h : c.state = .plainHello) : c.feed R tgt input = feedFrame tgt c input onHello := by
  simp only [feed, h, feedPlainHello]

theorem feed_plainReady (h : c.state = .plainReady) : c.feed R tgt input = feedPlainReady R tgt c input := by
  simp only [feed, h]

theorem feed_awaiting (h : c.awaitsReady = true) : c.feed R tgt input = feedFrame tgt c input (onReady R tgt) := by
  simp only [awaitsReady, Bool.and_eq_true, Bool.or_eq_true, beq_iff_eq] at h
  obtain ⟨hr, hs | ⟨hs, hw⟩⟩ := h
  · simp [feed, hs, feedReady, hr, feedReadyInner]
  · simp [feed, hs, feedPlainReady, hr, hw, feedReadyInner]

theorem feed_established (h : c.state = .established) : c.feed R tgt input = feedFrame tgt c input (onEstablished R) := by
  simp only [feed, h, feedEstablished]

theorem feed_failed (h : c.state = .failed) : c.feed R tgt input = (c, .error (.err .wrongState)) := by
  simp only [feed, h]

theorem feed_refused (h : c.Refuses) : c.feed R tgt input = (c, .error (.err .wrongState)) := by
  rcases h with hs | ⟨hs, hr⟩ | ⟨hs, h⟩
  · simp only [feed, hs]
  · simp only [feed, hs, feedReady, if_pos hr]
  · simp only [feed, hs, feedPlainReady, if_pos h]

end Stages

/-- A feed that completes a frame goes on with its handler. -/
theorem feedFrame_complete {c : Conn τ cap} {input : List UInt8} {d : FrameDecoder cap} {n : Nat} {f : DecodedFrame}
    (h : c.frameDecoder.feed tgt input = (d, .ok (n, some f)))
    (handle : Conn τ cap → DecodedFrame → Conn τ cap × Res ConnError Unit) :
    feedFrame tgt c input handle =
      match handle (c.withDecoder d) f with
      | (c, .error e) => (c, .error e)
      | (c, .ok ()) => (c, .ok n) := by
  unfold feedFrame
  generalize c.frameDecoder.feed tgt input = r at h
  subst h
  rfl

/-! ## Writing -/

/-- Our greeting can be written once in the `Greeting` state, into a buffer that it fits. -/
theorem writeGreeting_ok {c : Conn τ cap} (h : c.state = .greeting) (h' : c.ourGreetingSent = false) {out : List UInt8}
    (hout : greetingLen ≤ out.length) :
    ∃ out', c.writeGreeting out = ({ c with ourGreetingSent := true }, out', .ok greetingLen) := by
  have hlen : ¬out.length < greetingLen := Nat.not_lt.mpr hout
  exact ⟨_, by rw [writeGreeting, if_neg (by simp [h, h']), if_neg hlen]⟩

/-- READY can be written where it may be written, into a buffer that it fits. -/
theorem writeReady_ok {c : Conn τ cap} (h : c.inReadyState = true) (h' : c.ourReadySent = false) {out : List UInt8}
    (hout : R.readyFrame.length ≤ out.length) :
    c.writeReady R out = ({ c with ourReadySent := true }, splice out 0 R.readyFrame, .ok R.readyFrame.length) := by
  have hlen : ¬out.length < R.readyFrame.length := Nat.not_lt.mpr hout
  simp only [writeReady, encodeReadyOf, h, h', if_neg hlen, Bool.true_eq_false, Bool.false_eq_true, if_false]

/-- Elsewhere, and a second time, READY is refused. -/
theorem writeReady_refused {c : Conn τ cap} (h : ¬(c.inReadyState = true ∧ c.ourReadySent = false)) (out : List UInt8) :
    c.writeReady R out = (c, out, .error (.err .wrongState)) := by
  unfold writeReady
  by_cases hin : c.inReadyState = false
  · rw [if_pos hin]
  · have hsent : c.ourReadySent = true := by simpa [hin] using h
    rw [if_neg hin, if_pos hsent]

/-! ## The handlers -/

/-- The READY handler accepts a short command that the parser accepts; an error moves the state to `Failed`; a panic of the
parser leaves the connection as it is. -/
theorem onReady_spec (R : Role τ) (tgt : Target) (c : Conn τ cap) (f : DecodedFrame) :
    (∃ t, f.body.length ≤ 255 ∧ R.parseReady tgt f.isCommand f.body = .ok t ∧
      onReady R tgt c f = ({ c with state := .established }, .ok ())) ∨
    (∃ e, (255 < f.body.length ∨ R.parseReady tgt f.isCommand f.body = .error (.err e)) ∧
      onReady R tgt c f = ({ c with state := .failed }, .error (.err (.nullError e)))) ∨
    (∃ flt, f.body.length ≤ 255 ∧ R.parseReady tgt f.isCommand f.body = .error flt ∧ flt.aborts = true ∧
      onReady R tgt c f = (c, .error (flt.mapErr .nullError))) := by
  unfold onReady
  by_cases hlen : f.body.length > 255
  · rw [if_pos hlen]
    exact .inr (.inl ⟨_, .inl hlen, rfl⟩)
  · rw [if_neg hlen]
    have hle : f.body.length ≤ 255 := Nat.le_of_not_lt hlen
    cases hp : R.parseReady tgt f.isCommand f.body with
    | ok t => exact .inl ⟨t, hle, rfl, rfl⟩
    | error flt =>
      cases flt with
      | err e => exact .inr (.inl ⟨e, .inr rfl, rfl⟩)
      | panic => exact .inr (.inr ⟨.panic, hle, rfl, rfl, rfl⟩)
      | hang => exact .inr (.inr ⟨.hang, hle, rfl, rfl, rfl⟩)

/-- An error of the READY handler moves to `Failed`. -/
theorem onReady_fail {c c' : Conn τ cap} {f : DecodedFrame} {e : Fault ConnError}
    (h : onReady R tgt c f = (c', .error e)) : e.aborts = true ∨ c'.state = .failed := by
  rcases onReady_spec R tgt c f with ⟨_, _, _, ho⟩ | ⟨_, _, ho⟩ | ⟨flt, _, _, hab, ho⟩
  · rw [ho] at h
    cases h
  · rw [ho] at h
    cases h
    exact .inr rfl
  · rw [ho] at h
    cases h
    cases flt with
    | err e => cases hab
    | panic => exact .inl rfl
    | hang => exact .inl rfl

/-- Reading a field of HELLO fails with an error or gives a field; no slice is out of bounds. -/
theorem readField_not_abort (body : List UInt8) (pos : Nat) :
    (∃ p, readField body pos = .ok p) ∨ readField body pos = .error (.err .malformedHello) := by
  unfold readField
  by_cases h1 : pos ≥ body.length
  · exact .inr (by simp [h1, bind, Except.bind, throw, throwThe, MonadExceptOf.throw])
  · rw [if_neg h1, index_ok (Nat.lt_of_not_le h1)]
    simp only [pure, bind, Except.bind, Except.pure]
    split
    · exact .inr rfl
    · rename_i h2
      rw [slice_ok (by omega) (by omega)]
      exact .inl ⟨_, rfl⟩

/-- What the HELLO parser accepts is a command. -/
theorem parseHelloFrom_isCommand {isCommand : Bool} {body : List UInt8} {p : List UInt8 × List UInt8}
    (h : parseHelloFrom isCommand body = .ok p) : isCommand = true := by
  cases isCommand with
  | true => rfl
  | false => cases h

/-- The HELLO parser never panics. -/
theorem parseHelloFrom_not_abort (isCommand : Bool) (body : List UInt8) :
    (∃ p, parseHelloFrom isCommand body = .ok p) ∨ ∃ e, parseHelloFrom isCommand body = .error (.err e) := by
  unfold parseHelloFrom
  split
  · exact .inr ⟨_, rfl⟩
  · split
    · exact .inr ⟨_, rfl⟩
    · rename_i nameLen rest
      split
      · exact .inr ⟨_, rfl⟩
      · rename_i h
        rw [slice_ok (by omega) (by omega)]
        simp only
        split
        · exact .inr ⟨_, rfl⟩
        · split
          · exact .inr ⟨_, rfl⟩
          · rcases readField_not_abort (nameLen :: rest) (1 + nameLen.toNat) with ⟨⟨u, pos⟩, h1⟩ | h1
            · rcases readField_not_abort (nameLen :: rest) pos with ⟨⟨p, pos'⟩, h2⟩ | h2
              · exact .inl ⟨(u, p), by simp [h1, h2, bind, Except.bind, pure, Except.pure]⟩
              · exact .inr ⟨.malformedHello, by simp only [h1, h2, bind, Except.bind]⟩
            · exact .inr ⟨.malformedHello, by simp only [h1, bind, Except.bind]⟩

/-- The HELLO handler consults the authenticator once, on the credentials of a HELLO the parser accepts, and goes on exactly
when it answers yes. -/
theorem onHello_spec (c : Conn τ cap) (f : DecodedFrame) :
    (∃ u p, parseHelloFrom f.isCommand f.body = .ok (u, p) ∧ c.auth.check u p = true ∧
      onHello c f = ({ c with auth := (c.auth.consult u p).1, state := .plainReady }, .ok ())) ∨
    (∃ u p, parseHelloFrom f.isCommand f.body = .ok (u, p) ∧ c.auth.check u p = false ∧
      onHello c f =
        ({ c with auth := (c.auth.consult u p).1, state := .failed }, .error (.err (.plainError .authFailed)))) ∨
    (∃ e, parseHelloFrom f.isCommand f.body = .error (.err e) ∧
      onHello c f = ({ c with state := .failed }, .error (.err (.plainError e)))) := by
  rcases parseHelloFrom_not_abort f.isCommand f.body with ⟨⟨u, p⟩, hp⟩ | ⟨e, hp⟩
  · cases hc : c.auth.check u p with
    | true => exact .inl ⟨u, p, hp, hc, by simp [onHello, hp, Auth.consult, hc]⟩
    | false => exact .inr (.inl ⟨u, p, hp, hc, by simp [onHello, hp, Auth.consult, hc]⟩)
  · exact .inr (.inr ⟨e, hp, by simp [onHello, hp]⟩)

/-- An error of the HELLO handler moves to `Failed`. -/
theorem onHello_fail {c c' : Conn τ cap} {f : DecodedFrame} {e : Fault ConnError}
    (h : onHello c f = (c', .error e)) : c'.state = .failed := by
  rcases onHello_spec c f with ⟨_, _, _, _, ho⟩ | ⟨_, _, _, _, ho⟩ | ⟨_, _, ho⟩
  · rw [ho] at h
    cases h
  · rw [ho] at h
    cases h
    rfl
  · rw [ho] at h
    cases h
    rfl

/-- A PONG is queued with at most sixteen bytes of context. -/
theorem queuePong_ok (c : Conn τ cap) (payload : List UInt8) :
    ∃ ctx, queuePong c payload = ({ c with pendingPong := some (ctx, min (payload.drop 2).length 16) }, .ok ()) := by
  have hfit : 0 + ((payload.drop 2).take (min (payload.drop 2).length 16)).length ≤ 16 := by
    rw [List.length_take]
    omega
  obtain ⟨ctx, hc, _⟩ := copyInto_ok (ε := ConnError) (List.Vector.replicate 16 (0 : UInt8)) 0 _ hfit
  exact ⟨ctx, by simp only [queuePong, hc]⟩

/-- What a frame may change once the connection is established. -/
def withTable (c : Conn τ cap) (t : τ) (pong : Option (List.Vector UInt8 16 × Nat)) : Conn τ cap :=
  { c with table := t, pendingPong := pong }

/-- What a command does, by its name. -/
theorem onCommand_named (R : Role τ) (c : Conn τ cap) {body name : List UInt8} (h : Named body name) :
    onCommand R c body =
      if name = R.addName then ({ c with table := R.add c.table (body.drop (1 + name.length)) }, .ok ())
      else if name = R.removeName then ({ c with table := R.remove c.table (body.drop (1 + name.length)) }, .ok ())
      else if name = pingName ∧ c.peerVersionMinor ≥ 1 then queuePong c (body.drop (1 + name.length))
      else (c, .ok ()) := by
  obtain ⟨hlen, rest, rfl⟩ := h
  have hfits := Named.fits name rest
  have hname : slice (ε := ConnError) _ 1 (1 + name.length) = .ok name := Named.slice_eq name rest
  simp only [onCommand, UInt8.toNat_ofNat_of_lt' hlen]
  generalize UInt8.ofNat name.length :: (name ++ rest) = body at hfits hname
  have hend : slice (ε := ConnError) body (1 + name.length) body.length = .ok (body.drop (1 + name.length)) := by
    rw [slice_ok (Nat.le_of_not_lt hfits) (Nat.le_refl _), List.take_of_length_le (by rw [List.length_drop])]
  rw [if_neg hfits, hname, hend]

/-- A body without a complete name is ignored. -/
theorem onCommand_unnamed (R : Role τ) (c : Conn τ cap) {body : List UInt8} (h : ¬∃ name, Named body name) :
    onCommand R c body = (c, .ok ()) := by
  cases body with
  | nil => rfl
  | cons b bs => simp only [onCommand, if_pos (short_of_unnamed h)]

/-- A frame behind the handshake is never an error: it changes the table or queues a PONG. -/
theorem onEstablished_spec (R : Role τ) (c : Conn τ cap) (f : DecodedFrame) :
    ∃ t pong, onEstablished R c f = (c.withTable t pong, .ok ()) ∧
      (pong = c.pendingPong ∨ ∃ ctx n, pong = some (ctx, n) ∧ n ≤ 16) := by
  unfold onEstablished
  by_cases hcmd : f.isCommand = true
  · rw [if_pos hcmd]
    by_cases hname : ∃ name, Named f.body name
    · obtain ⟨name, hn⟩ := hname
      rw [onCommand_named R c hn]
      split
      · exact ⟨_, _, rfl, .inl rfl⟩
      · split
        · exact ⟨_, _, rfl, .inl rfl⟩
        · split
          · obtain ⟨ctx, hq⟩ := queuePong_ok c (f.body.drop (1 + name.length))
            exact ⟨_, _, hq, .inr ⟨ctx, _, rfl, Nat.min_le_right _ _⟩⟩
          · exact ⟨_, _, rfl, .inl rfl⟩
    · rw [onCommand_unnamed R c hname]
      exact ⟨_, _, rfl, .inl rfl⟩
  · rw [if_neg hcmd]
    exact ⟨_, _, rfl, .inl rfl⟩

theorem onEstablished_ne_error {c c' : Conn τ cap} {f : DecodedFrame} {e : Fault ConnError} :
    onEstablished R c f ≠ (c', .error e) := by
  intro h
  obtain ⟨t, pong, ho, _⟩ := onEstablished_spec R c f
  rw [ho] at h
  cases h

end Conn
end Mzmq
