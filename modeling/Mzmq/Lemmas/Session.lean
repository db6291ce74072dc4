import Mzmq.Lemmas.Greeting
import Mzmq.Lemmas.Handlers
import Mzmq.Session

/-!
# A session is a lawful feeder

`Conn.push` feeds one byte to a connection. In the states a session can be in between two bytes (`Quiet`) the connection's
`feed` is that consumer, and what a session sends after a feed always fits (`session_lawful`), so that the lemmas on feeders
apply to sessions.
-/

namespace Mzmq
namespace Conn

open Checked Consumer

variable {τ : Type} {cap : Nat} {R : Role τ} {tgt : Target}

/-! ## One byte -/

/-- One byte for the decoder, and the frame it completes for the handler. -/
def pushFrame (tgt : Target) (handle : Conn τ cap → DecodedFrame → Conn τ cap × Res ConnError Unit) (c : Conn τ cap)
    (b : UInt8) : Conn τ cap × Answer (Fault ConnError) Unit :=
  match c.frameDecoder.push tgt b with
  | (d, .more) => (c.withDecoder d, .more)
  | (d, .done f) =>
    match handle (c.withDecoder d) f with
    | (c, .ok ()) => (c, .done ())
    | (c, .error e) => (c, .fail e)
  | (d, .fail e) => (c.withDecoder d, .fail (e.mapErr .decodeError))

/-- One byte of the greeting. -/
def pushGreeting (c : Conn τ cap) (b : UInt8) : Conn τ cap × Answer (Fault ConnError) Unit :=
  match feedGreeting c [b] with
  | (c, .ok _) => (c, if c.greetingPos = greetingLen then .done () else .more)
  | (c, .error e) => (c, .fail e)

/-- One byte, in any state. -/
def push (R : Role τ) (tgt : Target) (c : Conn τ cap) (b : UInt8) : Conn τ cap × Answer (Fault ConnError) Unit :=
  match c.state with
  | .greeting => pushGreeting c b
  | .ready => if c.ourReadySent = false then (c, .fail (.err .wrongState)) else pushFrame tgt (onReady R tgt) c b
  | .plainHello => pushFrame tgt onHello c b
  | .plainReady =>
    if c.ourWelcomeSent = false ∨ c.ourReadySent = false then (c, .fail (.err .wrongState))
    else pushFrame tgt (onReady R tgt) c b
  | .established => pushFrame tgt (onEstablished R) c b
  | .failed => (c, .fail (.err .wrongState))

/-- A feed whose first byte the decoder has taken goes on with the rest. -/
theorem feedFrame_bump {handle : Conn τ cap → DecodedFrame → Conn τ cap × Res ConnError Unit} {c : Conn τ cap}
    {d : FrameDecoder cap} {input rest : List UInt8} (h : c.frameDecoder.feed tgt input = bump (d.feed tgt rest)) :
    feedFrame tgt c input handle =
      ((feedFrame tgt (c.withDecoder d) rest handle).1,
        (feedFrame tgt (c.withDecoder d) rest handle).2.map (· + 1)) := by
  unfold feedFrame
  simp only [h, withDecoder_frameDecoder, withDecoder_withDecoder]
  rcases d.feed tgt rest with ⟨d', e | ⟨n, _ | f⟩⟩
  · rfl
  · rfl
  · simp only [bump, Except.map]
    rcases handle (c.withDecoder d') f with ⟨c', e | u⟩ <;> rfl

/-- `feedFrame` is the consumer `pushFrame`. -/
theorem feedFrame_eq_offer {handle : Conn τ cap → DecodedFrame → Conn τ cap × Res ConnError Unit} {c : Conn τ cap}
    (h : c.frameDecoder.Inv) (input : List UInt8) :
    feedFrame tgt c input handle =
      ((offer (pushFrame tgt handle) c input).1, (offer (pushFrame tgt handle) c input).2.map Prod.fst) := by
  induction input generalizing c with
  | nil => rfl
  | cons b rest ih =>
    have hi := FrameDecoder.inv_push tgt h b
    have hfeed := FrameDecoder.feed_cons tgt h b rest
    cases hp : c.frameDecoder.push tgt b with
    | mk d r =>
      rw [hp] at hi hfeed
      cases r with
      | more =>
        have hq : pushFrame tgt handle c b = (c.withDecoder d, .more) := by simp only [pushFrame, hp]
        rw [feedFrame_bump hfeed, offer_cons_more hq, ih (c := c.withDecoder d) hi]
        rcases offer (pushFrame tgt handle) (c.withDecoder d) rest with ⟨c', e | p⟩ <;> rfl
      | done f =>
        unfold feedFrame
        rw [hfeed]
        cases hh : handle (c.withDecoder d) f with
        | mk c' r' =>
          cases r' with
          | ok u =>
            rw [offer_cons_done (t := c') (b := ()) (by simp only [pushFrame, hp, hh])]
            simp only [hh]
            rfl
          | error e =>
            rw [offer_cons_fail (t := c') (e := e) (by simp only [pushFrame, hp, hh])]
            simp only [hh]
            rfl
      | fail e =>
        unfold feedFrame
        rw [hfeed, offer_cons_fail (t := c.withDecoder d) (e := e.mapErr .decodeError)
          (by simp only [pushFrame, hp])]
        rfl

/-- `feedGreeting` is the consumer `pushGreeting`, but for the bytes a rejected greeting leaves in the buffer. -/
theorem feedGreeting_offer {c : Conn τ cap} (h : c.greetingPos < greetingLen) (input : List UInt8) :
    match offer pushGreeting c input with
    | (c', .ok (n, _)) => feedGreeting c input = (c', .ok n)
    | (c', .error e) => ∃ buf pos buf' pos', c' = c.withGreeting buf' pos' ∧
        feedGreeting c input = (c.withGreeting buf pos, .error e) := by
  induction input generalizing c with
  | nil => exact feedGreeting_nil h
  | cons b rest ih =>
    rcases feedGreeting_cons h b rest with ⟨f, buf, pos, buf', pos', h1, h2⟩ | ⟨c1, h1, hpos, h2⟩ | ⟨buf, h1, hlt, h2⟩
    · rw [offer_cons_fail (t := c.withGreeting buf pos) (e := f) (by simp only [pushGreeting, h1])]
      exact ⟨buf', pos', buf, pos, rfl, h2⟩
    · rw [offer_cons_done (t := c1) (b := ()) (by simp only [pushGreeting, h1, hpos, if_true])]
      exact h2
    · have hne : ¬(c.withGreeting buf (c.greetingPos + 1)).greetingPos = greetingLen := Nat.ne_of_lt hlt
      rw [offer_cons_more (t := c.withGreeting buf (c.greetingPos + 1)) (by simp only [pushGreeting, h1, if_neg hne]), h2]
      have := ih (c := c.withGreeting buf (c.greetingPos + 1)) hlt
      rcases ho : offer pushGreeting (c.withGreeting buf (c.greetingPos + 1)) rest with ⟨c', e | p⟩
      · rw [ho] at this
        obtain ⟨buf1, pos1, buf2, pos2, rfl, h3⟩ := this
        rw [h3]
        exact ⟨buf1, pos1, buf2, pos2, rfl, rfl⟩
      · rw [ho] at this
        simp only at this
        rw [this]
        rfl

/-! ## What a session sends -/

/-- READY fits the buffer of a session. -/
theorem sendReady_eq (hR : R.readyFrame.length ≤ 32) {c : Conn τ cap} (h : c.inReadyState = true)
    (h' : c.ourReadySent = false) :
    c.sendReady R = ⟨{ c with ourReadySent := true }, [.ready R.readyFrame], none⟩ := by
  have hlen : R.readyFrame.length ≤ (List.replicate 32 (0 : UInt8)).length := by
    rw [List.length_replicate]
    exact hR
  have htake : (splice (List.replicate 32 (0 : UInt8)) 0 R.readyFrame).take R.readyFrame.length = R.readyFrame := by
    have := splice_take (List.replicate 32 (0 : UInt8)) R.readyFrame (Nat.zero_le _)
    rwa [Nat.zero_add, List.take_zero, List.nil_append] at this
  simp only [sendReady, writeReady_ok h h' hlen, htake]

/-- WELCOME fits the buffer of a session. -/
theorem sendWelcome_eq {c : Conn τ cap} (h : c.state = .plainReady) (h' : c.ourWelcomeSent = false) :
    c.sendWelcome = ⟨{ c with ourWelcomeSent := true }, [.welcome welcomeFrame], none⟩ := by
  simp [sendWelcome, writeWelcome, encodeWelcome, h, h', splice]

/-- A PONG frame with its context. -/
def pongFrame (ctx : List UInt8) : List UInt8 := [0x04, UInt8.ofNat (5 + ctx.length), 4] ++ pongName ++ ctx

/-- Nothing is sent when no PONG is pending. -/
theorem sendPong_none {c : Conn τ cap} (h : c.pendingPong = none) : c.sendPong = ⟨c, [], none⟩ := by
  simp [sendPong, writePong, h]

theorem pongFrame_length (ctx : List UInt8) : (pongFrame ctx).length = 7 + ctx.length := by
  simp only [pongFrame, pongName, List.length_append, List.length_cons, List.length_nil]

/-- What `writePong` does with a pending PONG that fits. -/
theorem writePong_some {c : Conn τ cap} {ctx : List.Vector UInt8 16} {n : Nat} (hp : c.pendingPong = some (ctx, n)) (hn : n ≤ 16)
    (out : List UInt8) :
    c.writePong out =
      if out.length < (pongFrame (ctx.toList.take n)).length then (c, out, .error (.err .bufferTooSmall))
      else ({ c with pendingPong := none }, splice out 0 (pongFrame (ctx.toList.take n)),
        .ok (some (pongFrame (ctx.toList.take n)).length)) := by
  have hctx : (ctx.toList.take n).length = n := by
    rw [List.length_take, ctx.toList_length]
    omega
  have hlen : (pongFrame (ctx.toList.take n)).length = 2 + (1 + 4 + n) := by
    rw [pongFrame_length, hctx]
    omega
  have hframe : [0x04, UInt8.ofNat (1 + 4 + n), 4] ++ pongName ++ ctx.toList.take n = pongFrame (ctx.toList.take n) := by
    rw [pongFrame, hctx]
  simp only [writePong, hp, slice_ok (Nat.zero_le n) (by rw [ctx.toList_length]; exact hn), List.drop_zero, Nat.sub_zero,
    hframe, hlen]

/-- A pending PONG fits the buffer of a session. -/
theorem sendPong_some {c : Conn τ cap} {ctx : List.Vector UInt8 16} {n : Nat} (h : c.pendingPong = some (ctx, n))
    (hn : n ≤ 16) :
    c.sendPong = ⟨{ c with pendingPong := none }, [.pong (pongFrame (ctx.toList.take n))], none⟩ := by
  have hfit : ¬(List.replicate 23 (0 : UInt8)).length < (pongFrame (ctx.toList.take n)).length := by
    rw [List.length_replicate, pongFrame_length, List.length_take]
    omega
  have htake := take_splice_zero (List.replicate 23 (0 : UInt8)) (pongFrame (ctx.toList.take n))
  simp only [sendPong, writePong_some h hn, if_neg hfit, htake]

/-- The ERROR frame. -/
def errorFrame : List UInt8 := 0x04 :: 0x1A :: 0x05 :: (errorName ++ 0x13 :: invalidSocketType)

/-- ERROR fits the buffer of a session. -/
theorem sendError_eq (c : Conn τ cap) : c.sendError = ⟨c, [.error errorFrame], none⟩ := by
  have hw : writeError (List.replicate 32 0) = (splice (List.replicate 32 0) 0 errorFrame, .ok errorFrame.length) := by
    decide
  rw [sendError, hw]
  simp only [take_splice_zero]

/-! ## Between two bytes -/

/-- The states a session is in between two bytes: our greeting is sent and the peer's is not complete; behind it, what the
state calls for is sent; and no PONG is pending. -/
structure Quiet (c : Conn τ cap) : Prop where
  decoder : c.frameDecoder.Inv
  pong : c.pendingPong = none
  phase : match c.state with
    | .greeting => c.ourGreetingSent = true ∧ c.greetingPos < greetingLen ∧ c.ourReadySent = false ∧
        c.ourWelcomeSent = false
    | .ready => c.ourReadySent = true
    | .plainHello => c.mechanism = .plain ∧ c.ourReadySent = false ∧ c.ourWelcomeSent = false
    | .plainReady => c.ourWelcomeSent = true ∧ c.ourReadySent = true
    | .established => True
    | .failed => False

/-- The handler of frames in a state behind the greeting. -/
def handler (R : Role τ) (tgt : Target) : State → Conn τ cap → DecodedFrame → Conn τ cap × Res ConnError Unit
  | .plainHello => onHello
  | .established => onEstablished R
  | _ => onReady R tgt

/-- What is observed of a session that has failed. -/
def seen (c : Conn τ cap) : State × UInt8 × τ := (c.state, c.peerVersionMinor, c.table)

/-- Behind the greeting, one byte goes to the decoder. -/
theorem Quiet.push_frame {c : Conn τ cap} (q : c.Quiet) (h : c.state ≠ .greeting) (b : UInt8) :
    push R tgt c b = pushFrame tgt (handler R tgt c.state) c b := by
  have hq := q.phase
  cases hs : c.state <;> simp_all [push, handler]

/-- Behind the greeting, the input goes to the decoder. -/
theorem Quiet.feed_frame {c : Conn τ cap} (q : c.Quiet) (h : c.state ≠ .greeting) (input : List UInt8) :
    feed R tgt c input = feedFrame tgt c input (handler R tgt c.state) := by
  have hq := q.phase
  cases hs : c.state <;>
    simp_all [feed, handler, feedReady, feedPlainHello, feedPlainReady, feedReadyInner, feedEstablished]

/-- A byte that does not complete a frame changes the decoder alone. -/
theorem pushFrame_more {handle : Conn τ cap → DecodedFrame → Conn τ cap × Res ConnError Unit} {c c' : Conn τ cap}
    {b : UInt8} (h : pushFrame tgt handle c b = (c', .more)) :
    ∃ d, c.frameDecoder.push tgt b = (d, .more) ∧ c' = c.withDecoder d := by
  unfold pushFrame at h
  rcases hp : c.frameDecoder.push tgt b with ⟨d, _ | f | e⟩
  · rw [hp] at h
    cases h
    exact ⟨d, rfl, rfl⟩
  · rw [hp] at h
    simp only at h
    split at h <;> cases h
  · rw [hp] at h
    cases h

/-- A byte is done with a frame when the handler accepts the frame it completes. -/
theorem pushFrame_done {handle : Conn τ cap → DecodedFrame → Conn τ cap × Res ConnError Unit} {c c' : Conn τ cap}
    {b : UInt8} {u : Unit} (h : pushFrame tgt handle c b = (c', .done u)) :
    ∃ d f, c.frameDecoder.push tgt b = (d, .done f) ∧ handle (c.withDecoder d) f = (c', .ok ()) := by
  unfold pushFrame at h
  rcases hp : c.frameDecoder.push tgt b with ⟨d, _ | f | e⟩
  · rw [hp] at h
    cases h
  · rw [hp] at h
    simp only at h
    split at h
    · rename_i c1 hh
      cases h
      exact ⟨d, f, rfl, hh⟩
    · cases h
  · rw [hp] at h
    cases h

/-- A byte is refused by the decoder, or it completes a frame that the handler refuses. -/
theorem pushFrame_fail {handle : Conn τ cap → DecodedFrame → Conn τ cap × Res ConnError Unit} {c c' : Conn τ cap}
    {b : UInt8} {e : Fault ConnError} (h : pushFrame tgt handle c b = (c', .fail e)) :
    (∃ d e', c.frameDecoder.push tgt b = (d, .fail e') ∧ e = e'.mapErr .decodeError ∧ c' = c.withDecoder d) ∨
      ∃ d f, c.frameDecoder.push tgt b = (d, .done f) ∧ handle (c.withDecoder d) f = (c', .error e) := by
  unfold pushFrame at h
  rcases hp : c.frameDecoder.push tgt b with ⟨d, _ | f | e'⟩
  · rw [hp] at h
    cases h
  · rw [hp] at h
    simp only at h
    split at h
    · cases h
    · rename_i c1 e1 hh
      cases h
      exact .inr ⟨d, f, rfl, hh⟩
  · rw [hp] at h
    cases h
    exact .inl ⟨d, e', rfl, rfl, rfl⟩

/-- A byte of the greeting that does not complete it. -/
theorem pushGreeting_more {c c' : Conn τ cap} (hpos : c.greetingPos < greetingLen) {b : UInt8}
    (h : pushGreeting c b = (c', .more)) : ∃ buf, c' = c.withGreeting buf (c.greetingPos + 1) ∧
      c.greetingPos + 1 < greetingLen := by
  unfold pushGreeting at h
  rcases feedGreeting_cons hpos b [] with ⟨f, buf, pos, _, _, h1, _⟩ | ⟨c1, h1, hfull, _⟩ | ⟨buf, h1, hlt, _⟩
  · rw [h1] at h
    cases h
  · simp [h1, hfull] at h
  · rw [h1] at h
    simp only [Prod.mk.injEq] at h
    exact ⟨buf, h.1.symm, hlt⟩

/-- The byte that completes an accepted greeting. -/
theorem pushGreeting_done {c c' : Conn τ cap} (hpos : c.greetingPos < greetingLen) (hsent : c.ourGreetingSent = true)
    {b : UInt8} {u : Unit} (h : pushGreeting c b = (c', .done u)) :
    ∃ buf g, c' = c.greeted buf g ∧ c'.state = afterGreeting c.mechanism := by
  unfold pushGreeting at h
  obtain ⟨buf, _, ⟨e, he, _⟩ | ⟨_, hlt, he⟩ | ⟨g, _, _, he⟩⟩ := feedGreeting_spec (Nat.le_of_lt hpos) [b]
  · rw [he] at h
    cases h
  · rw [he] at h
    have hne : ¬(c.withGreeting buf (c.greetingPos + c.greetingTaken [b])).greetingPos = greetingLen := Nat.ne_of_lt hlt
    simp only [if_neg hne, Prod.mk.injEq, reduceCtorEq, and_false] at h
  · rw [he] at h
    simp only [Prod.mk.injEq] at h
    refine ⟨buf, g, h.1.symm, ?_⟩
    rw [← h.1]
    simp only [greeted, hsent, if_true]

/-! ## Replies -/

/-- In a state that did not change there is nothing to send but a PONG. -/
theorem reply_same {c c' : Conn τ cap} (h : c'.state = c.state) : reply R c c' = c'.sendPong := by
  rw [reply, handshakeReply, h, if_neg (by simp), if_neg (by simp), Outcome.andThen_start]

/-- In the other states there is nothing to send but a PONG. -/
theorem reply_other {c c' : Conn τ cap} (h1 : c'.state ≠ .ready) (h2 : c'.state ≠ .plainReady) :
    reply R c c' = c'.sendPong := by
  rw [reply, handshakeReply, if_neg (by simp [h1]), if_neg (by simp [h2]), Outcome.andThen_start]

/-- READY is sent on the way to `Ready`. -/
theorem reply_ready (hR : R.readyFrame.length ≤ 32) {c c' : Conn τ cap} (h : c.state ≠ .ready) (h' : c'.state = .ready)
    (hm : c'.mechanism = .null) (hr : c'.ourReadySent = false) (hp : c'.pendingPong = none) :
    reply R c c' = ⟨{ c' with ourReadySent := true }, [.ready R.readyFrame], none⟩ := by
  have hin : c'.inReadyState = true := by simp [inReadyState, hm, h']
  have hpong := sendPong_none (c := { c' with ourReadySent := true }) hp
  rw [reply, handshakeReply, if_pos ⟨h, h'⟩, sendReady_eq hR hin hr, Outcome.andThen_none rfl]
  simp only [hpong, List.append_nil]

/-- WELCOME and READY are sent on the way to `PlainReady`. -/
theorem reply_plainReady (hR : R.readyFrame.length ≤ 32) {c c' : Conn τ cap} (h : c.state ≠ .plainReady)
    (h' : c'.state = .plainReady) (hm : c'.mechanism = .plain) (hw : c'.ourWelcomeSent = false)
    (hr : c'.ourReadySent = false) (hp : c'.pendingPong = none) :
    reply R c c' =
      ⟨{ c' with ourWelcomeSent := true, ourReadySent := true }, [.welcome welcomeFrame, .ready R.readyFrame], none⟩ := by
  have hin : ({ c' with ourWelcomeSent := true } : Conn τ cap).inReadyState = true := by simp [inReadyState, hm, h']
  have hready := sendReady_eq hR hin hr
  have hpong := sendPong_none (c := { c' with ourWelcomeSent := true, ourReadySent := true }) hp
  rw [reply, handshakeReply, if_neg (by simp [h']), if_pos ⟨h, h'⟩, sendWelcome_eq h' hw]
  simp only [hready, Outcome.andThen, hpong, List.append_nil, List.cons_append, List.nil_append]

/-- A new connection whose greeting is written is quiet. -/
theorem quiet_init (R : Role τ) (m : Mechanism) (auth : Auth) {out : List UInt8} (hout : greetingLen ≤ out.length) :
    ((init R m auth : Conn τ cap).writeGreeting out).1.Quiet := by
  have hlen : ¬out.length < greetingLen := Nat.not_lt.mpr hout
  have hw : ((init R m auth : Conn τ cap).writeGreeting out).1 = { init R m auth with ourGreetingSent := true } := by
    simp [writeGreeting, init, hlen]
  rw [hw]
  exact ⟨FrameDecoder.inv_new, rfl, ⟨rfl, show 0 < greetingLen by decide, rfl, rfl⟩⟩

/-! ## The law -/

/-- In the greeting, one byte goes into the greeting buffer. -/
theorem push_greeting {c : Conn τ cap} (h : c.state = .greeting) (b : UInt8) : push R tgt c b = pushGreeting c b := by
  simp only [push, h]

/-- A byte after which the connection asks for more keeps the state, and the session quiet. -/
theorem Quiet.more {c c' : Conn τ cap} (q : c.Quiet) {b : UInt8} (h : push R tgt c b = (c', .more)) :
    c'.Quiet ∧ c'.state = c.state := by
  by_cases hg : c.state = .greeting
  · have hq := q.phase
    rw [hg] at hq
    obtain ⟨h1, h2, h3, h4⟩ := hq
    rw [push_greeting hg] at h
    obtain ⟨buf, rfl, hlt⟩ := pushGreeting_more h2 h
    refine ⟨⟨q.decoder, q.pong, ?_⟩, rfl⟩
    simp only [withGreeting, hg]
    exact ⟨h1, hlt, h3, h4⟩
  · rw [q.push_frame hg] at h
    obtain ⟨d, hp, rfl⟩ := pushFrame_more h
    have hi := FrameDecoder.inv_push tgt q.decoder b
    rw [hp] at hi
    exact ⟨⟨hi, q.pong, q.phase⟩, rfl⟩

/-- Offering bytes in the greeting. -/
theorem Quiet.offer_greeting {c : Conn τ cap} (q : c.Quiet) (h : c.state = .greeting) (xs : List UInt8) :
    offer (push R tgt) c xs = offer pushGreeting c xs := by
  refine offer_congr (P := fun c' => c'.Quiet ∧ c'.state = .greeting) ?_ ?_ ⟨q, h⟩ xs
  · intro c' b hc'
    exact push_greeting hc'.2 b
  · intro c' c'' b hc' hp
    obtain ⟨h1, h2⟩ := hc'.1.more hp
    exact ⟨h1, h2.trans hc'.2⟩

/-- Offering bytes behind the greeting. -/
theorem Quiet.offer_frame {c : Conn τ cap} (q : c.Quiet) (h : c.state ≠ .greeting) (xs : List UInt8) :
    offer (push R tgt) c xs = offer (pushFrame tgt (handler R tgt c.state)) c xs := by
  refine offer_congr (P := fun c' => c'.Quiet ∧ c'.state = c.state) ?_ ?_ ⟨q, rfl⟩ xs
  · intro c' b hc'
    rw [hc'.1.push_frame (by rw [hc'.2]; exact h) b, hc'.2]
  · intro c' c'' b hc' hp
    obtain ⟨h1, h2⟩ := hc'.1.more hp
    exact ⟨h1, h2.trans hc'.2⟩

/-- Between two bytes, `feed` offers its input byte by byte; a rejected input leaves the same things to be seen. -/
theorem Quiet.feed_offer {c c' : Conn τ cap} (q : c.Quiet) {xs : List UInt8} {r : Except (Fault ConnError) (Nat × Option Unit)}
    (h : offer (push R tgt) c xs = (c', r)) :
    match r with
    | .ok (n, _) => feed R tgt c xs = (c', .ok n)
    | .error e => ∃ c'', feed R tgt c xs = (c'', .error e) ∧ seen c'' = seen c' := by
  by_cases hg : c.state = .greeting
  · have hq := q.phase
    rw [hg] at hq
    have ho := feedGreeting_offer hq.2.1 xs
    rw [q.offer_greeting hg] at h
    rw [h] at ho
    rw [feed_greeting R tgt xs hg]
    rcases r with e | ⟨n, o⟩
    · obtain ⟨buf, pos, buf', pos', rfl, h2⟩ := ho
      exact ⟨_, h2, rfl⟩
    · exact ho
  · rw [q.feed_frame hg, feedFrame_eq_offer q.decoder]
    rw [q.offer_frame hg] at h
    rw [h]
    rcases r with e | ⟨n, o⟩
    · exact ⟨c', rfl, rfl⟩
    · rfl

/-- What it means that a unit of input is complete, by the state before it: the greeting led to `Ready` or to `PlainHello`,
HELLO led to `PlainReady`, or the connection is established and may have a PONG to send. -/
inductive Completed (prev : State) (c' : Conn τ cap) : Prop where
  | ready (before : prev = .greeting) (after : c'.state = .ready) (mechanism : c'.mechanism = .null)
      (unsent : c'.ourReadySent = false) (pong : c'.pendingPong = none)
  | hello (before : prev = .greeting) (after : c'.state = .plainHello) (mechanism : c'.mechanism = .plain)
      (unsent : c'.ourReadySent = false ∧ c'.ourWelcomeSent = false) (pong : c'.pendingPong = none)
  | welcome (before : prev = .plainHello) (after : c'.state = .plainReady) (mechanism : c'.mechanism = .plain)
      (unsent : c'.ourReadySent = false ∧ c'.ourWelcomeSent = false) (pong : c'.pendingPong = none)
  | established (after : c'.state = .established)
      (pong : c'.pendingPong = none ∨ ∃ ctx n, c'.pendingPong = some (ctx, n) ∧ n ≤ 16)

/-- A byte that completes a unit of input. -/
theorem Quiet.completed {c c' : Conn τ cap} (q : c.Quiet) {b : UInt8} {u : Unit} (h : push R tgt c b = (c', .done u)) :
    Completed c.state c' ∧ c'.frameDecoder.Inv := by
  have hq := q.phase
  by_cases hg : c.state = .greeting
  · rw [hg] at hq
    obtain ⟨h1, h2, h3, h4⟩ := hq
    rw [push_greeting hg] at h
    obtain ⟨buf, g, rfl, hst⟩ := pushGreeting_done h2 h1 h
    have hpong : (c.greeted buf g).pendingPong = none := q.pong
    refine ⟨?_, q.decoder⟩
    cases hm : c.mechanism with
    | null =>
      rw [hm] at hst
      exact .ready hg hst hm h3 hpong
    | plain =>
      rw [hm] at hst
      exact .hello hg hst hm ⟨h3, h4⟩ hpong
  · rw [q.push_frame hg] at h
    obtain ⟨d, f, hp, hh⟩ := pushFrame_done h
    have hi := FrameDecoder.inv_push tgt q.decoder b
    rw [hp] at hi
    -- The READY handler, in `Ready` and in `PlainReady`.
    have hready : ∀ prev, onReady R tgt (c.withDecoder d) f = (c', .ok ()) → Completed prev c' ∧ c'.frameDecoder.Inv := by
      intro prev hh
      rcases onReady_spec R tgt (c.withDecoder d) f with ⟨_, _, _, he⟩ | ⟨_, _, he⟩ | ⟨_, _, _, _, he⟩
      · rw [← (Prod.mk.inj (he.symm.trans hh)).1]
        exact ⟨.established rfl (.inl q.pong), hi⟩
      · rw [he] at hh
        cases hh
      · rw [he] at hh
        cases hh
    cases hs : c.state with
    | greeting => exact absurd hs hg
    | failed =>
      rw [hs] at hq
      exact hq.elim
    | ready =>
      rw [hs] at hh
      exact hready _ hh
    | plainReady =>
      rw [hs] at hh
      exact hready _ hh
    | plainHello =>
      rw [hs] at hh hq
      obtain ⟨h1, h2, h3⟩ := hq
      rcases onHello_spec (c.withDecoder d) f with ⟨u, p, _, _, he⟩ | ⟨_, _, _, _, he⟩ | ⟨_, _, he⟩
      · rw [← (Prod.mk.inj (he.symm.trans hh)).1]
        exact ⟨.welcome rfl rfl h1 ⟨h2, h3⟩ q.pong, hi⟩
      · rw [handler, he] at hh
        cases hh
      · rw [handler, he] at hh
        cases hh
    | established =>
      rw [hs] at hh
      obtain ⟨t, pong, he, hpong⟩ := onEstablished_spec R (c.withDecoder d) f
      rw [← (Prod.mk.inj (he.symm.trans hh)).1]
      refine ⟨.established hs ?_, hi⟩
      rcases hpong with rfl | ⟨ctx, n, rfl, hn⟩
      · exact .inl q.pong
      · exact .inr ⟨ctx, n, rfl, hn⟩

/-- The reply to a complete unit of input succeeds, stays in the state, and leaves the session quiet again. -/
theorem Completed.reply (hR : R.readyFrame.length ≤ 32) {c c' : Conn τ cap} (h : Completed c.state c')
    (hi : c'.frameDecoder.Inv) : (reply R c c').state.Quiet ∧ (reply R c c').fault = none ∧
      (reply R c c').state.state = c'.state ∧ (reply R c c').state.mechanism = c'.mechanism := by
  cases h with
  | ready hs hst hm hr hp =>
    rw [reply_ready hR (by simp [hs]) hst hm hr hp]
    exact ⟨⟨hi, hp, by simp only [hst]⟩, rfl, rfl, rfl⟩
  | hello hs hst hm hr hp =>
    rw [reply_other (by simp [hst]) (by simp [hst]), sendPong_none hp]
    exact ⟨⟨hi, hp, by simp only [hst]; exact ⟨hm, hr⟩⟩, rfl, rfl, rfl⟩
  | welcome hs hst hm hr hp =>
    rw [reply_plainReady hR (by simp [hs]) hst hm hr.2 hr.1 hp]
    exact ⟨⟨hi, hp, by simp only [hst, and_self]⟩, rfl, rfl, rfl⟩
  | established hst hp =>
    rw [reply_other (by simp [hst]) (by simp [hst])]
    rcases hp with hp | ⟨ctx, n, hp, hn⟩
    · rw [sendPong_none hp]
      exact ⟨⟨hi, hp, by simp only [hst]⟩, rfl, rfl, rfl⟩
    · rw [sendPong_some hp hn]
      exact ⟨⟨hi, rfl, by simp only [hst]⟩, rfl, rfl, rfl⟩

/-- A session is a lawful feeder. -/
theorem session_lawful (hR : R.readyFrame.length ≤ 32) (tgt : Target) :
    (session R tgt : Feeder (Conn τ cap) UInt8 Sent ConnError).Lawful (push R tgt) Quiet seen where
  feed_ok := fun q h => q.feed_offer h
  feed_error := fun q h => q.feed_offer h
  after_self := fun q => by
    show reply R _ _ = _
    rw [reply_same rfl, sendPong_none q.pong]
  more_inv := fun q h => (q.more h).1
  more_after := fun q h => by
    funext c
    simp only [session, reply, (q.more h).2]
  done_inv := fun q h =>
    have hr := (q.completed h).1.reply hR (q.completed h).2
    ⟨hr.1, hr.2.1⟩

end Conn
end Mzmq
