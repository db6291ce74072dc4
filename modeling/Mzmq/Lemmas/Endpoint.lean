import Mzmq.Endpoint
import Mzmq.Lemmas.Deeds
import Mzmq.Lemmas.Heard
import Mzmq.Lemmas.Outbound

/-!
# Where a connection stands

A connection stands at a stage of the endpoint, with `u` consumed behind the last occasion (`Stands`). Every feed of a quiet
connection consumes a part of the next occasion, or completes it, and then the reply to it is what the endpoint answers
(`Stands.feed`); so does every deed of a driver (`Stands.deed`).
-/

namespace Mzmq

open Checked Consumer Conn Spelling

/-- The role `R` does what the endpoint `E` is to do: the tables `t` with `Holds t s` are those that keep `s`. -/
structure Endpoint.Implements {σ τ : Type} (E : Endpoint σ) (R : Role τ) (ask : τ → DecodedFrame → τ) (Holds : τ → σ → Prop) :
    Prop where
  lawful : R.Lawful
  ready : R.readyFrame = frameBytes E.ready
  add : R.addName ≠ pingName
  remove : R.removeName ≠ pingName
  asks : ∀ cap, Conn.Asks cap R ask
  nothing : Holds R.emptyTable E.nothing
  record : ∀ {t s} f, Holds t s → Holds (ask t f) (E.record s f)
  wants : ∀ {t s} key, Holds t s → (R.matchesKey t key = true ↔ E.wants s key)

/-! ## Frames -/

theorem wireOf_append (fs gs : List DecodedFrame) : wireOf (fs ++ gs) = wireOf fs ++ wireOf gs := List.flatMap_append

theorem wireOf_single (f : DecodedFrame) : wireOf [f] = frameBytes f := List.flatMap_singleton _ _

/-- A command of one size byte. -/
theorem frameBytes_command {name payload : List UInt8} (h : name.length + payload.length < 255) :
    frameBytes (command name payload) =
      0x04 :: UInt8.ofNat (1 + name.length + payload.length) :: UInt8.ofNat name.length :: (name ++ payload) := by
  have hlen : (command name payload).body.length = 1 + name.length + payload.length := by
    simp only [command, commandBody, List.length_cons, List.length_append]
    omega
  rw [frameBytes, frameHeader, if_pos (by omega), hlen]
  rfl

theorem frameBytes_welcome : frameBytes (command welcomeName []) = welcomeFrame := by decide

theorem frameBytes_refusal : frameBytes refusal = errorFrame := by decide

theorem frameBytes_pong {ctx : List UInt8} (h : ctx.length ≤ 16) : frameBytes (command pongName ctx) = pongFrame ctx := by
  rw [frameBytes_command (by simp only [pongName, List.length_cons, List.length_nil]; omega)]
  rfl

/-- The PONGs that are due for a frame, as frames. -/
theorem wireOf_pongsTo (minor : UInt8) (f : DecodedFrame) : wireOf (pongsTo minor f) = (pongsFor minor [f]).flatten := by
  have hall : ∀ ctxs : List (List UInt8), wireOf (ctxs.map fun ctx => command pongName (ctx.take 16)) =
      (ctxs.map fun ctx => pongFrame (ctx.take 16)).flatten := by
    intro ctxs
    rw [wireOf, List.flatMap_map, ← List.flatMap_def]
    exact List.flatMap_congr fun ctx _ => frameBytes_pong (List.length_take_le 16 ctx)
  unfold pongsFor pongsTo
  split
  · exact hall _
  · rfl

/-! ## Standing at a stage -/

section Stands

variable {σ τ : Type} {cap : Nat}

/-- A connection at a stage, which has consumed `u` behind the last occasion. -/
inductive Stands (E : Endpoint σ) (R : Role τ) (Holds : τ → σ → Prop) (check : List UInt8 → List UInt8 → Bool) (tgt : Target) :
    Mechanism → List UInt8 → Stage σ → Conn τ cap → Prop where
  | greeting {m : Mechanism} {u : List UInt8} {c : Conn τ cap} : c.state = .greeting → c.mechanism = m → c.auth.check = check →
      c.frameDecoder.state = .needFlags → GreetingPhase u c → u.length < greetingLen → c.table = R.emptyTable →
      Stands E R Holds check tgt m u .greeting c
  | ready {u : List UInt8} {minor : UInt8} {c : Conn τ cap} : c.state = .ready → c.peerVersionMinor = minor →
      c.table = R.emptyTable → c.frameDecoder.Inv → Behind tgt c.frameDecoder u →
      Stands E R Holds check tgt .null u (.opening minor) c
  | hello {u : List UInt8} {minor : UInt8} {c : Conn τ cap} : c.state = .plainHello → c.peerVersionMinor = minor →
      c.auth.check = check → c.table = R.emptyTable → c.frameDecoder.Inv → Behind tgt c.frameDecoder u →
      Stands E R Holds check tgt .plain u (.opening minor) c
  | welcomed {u : List UInt8} {minor : UInt8} {c : Conn τ cap} : c.state = .plainReady → c.peerVersionMinor = minor →
      c.table = R.emptyTable → c.frameDecoder.Inv → Behind tgt c.frameDecoder u →
      Stands E R Holds check tgt .plain u (.welcomed minor) c
  | established {m : Mechanism} {u : List UInt8} {minor : UInt8} {kept : σ} {c : Conn τ cap} : c.state = .established →
      c.peerVersionMinor = minor → Holds c.table kept → c.frameDecoder.Inv → Behind tgt c.frameDecoder u →
      Stands E R Holds check tgt m u (.established minor kept) c
  | failed {m : Mechanism} {u : List UInt8} {c : Conn τ cap} : c.state = .failed → Stands E R Holds check tgt m u .failed c

variable {E : Endpoint σ} {R : Role τ} {ask : τ → DecodedFrame → τ} {Holds : τ → σ → Prop}
  {check : List UInt8 → List UInt8 → Bool} {tgt : Target} {m : Mechanism} {u : List UInt8} {s : Stage σ} {c : Conn τ cap}

/-- The connection is established when the stage is. -/
theorem Stands.established_iff (h : Stands E R Holds check tgt m u s c) : c.state = .established ↔ s.isEstablished = true := by
  cases h with
  | greeting hs => simp [hs, Stage.isEstablished]
  | ready hs => simp [hs, Stage.isEstablished]
  | hello hs => simp [hs, Stage.isEstablished]
  | welcomed hs => simp [hs, Stage.isEstablished]
  | established hs => simp [hs, Stage.isEstablished]
  | failed hs => simp [hs, Stage.isEstablished]

/-- What is consumed behind the last occasion does not begin with the next one. -/
theorem Stands.no_more (h : Stands E R Holds check tgt m u s c) {i : Occasion} {w : Reply} {s' : Stage σ} {wire : List UInt8}
    (hstep : E.Step m s i w s') (hw : i.IsWire R check tgt cap m wire) (hne : wire ≠ []) : ¬wire <+: u := by
  intro hp
  -- Behind the greeting, the next occasion is a frame.
  have hframe : Unfinished tgt cap u → s ≠ .greeting → False := by
    intro hu hng
    cases hstep with
    | greeted => exact hng rfl
    | greetedPlain => exact hng rfl
    | hello =>
      obtain ⟨⟨f, hf, _⟩, _⟩ := hw
      exact hu.not_isWire hp hf
    | ready =>
      obtain ⟨⟨f, hf, _⟩, _⟩ := hw
      exact hu.not_isWire hp hf
    | readyPlain =>
      obtain ⟨⟨f, hf, _⟩, _⟩ := hw
      exact hu.not_isWire hp hf
    | heard => exact hu.not_isWire hp hw.1
    | gaveUp => exact hne hw
    | wanted => exact hne hw
    | unwanted => exact hne hw
    | early => exact hne hw
  cases h with
  | greeting _ _ _ _ _ hlen =>
    have hle := hp.length_le
    cases hstep with
    | greeted =>
      rw [Greeted.length hw] at hle
      omega
    | greetedPlain =>
      rw [Greeted.length hw] at hle
      omega
    | gaveUp => exact hne hw
    | early => exact hne hw
  | ready _ _ _ hinv hb => exact hframe (hb.unfinished hinv) (by simp)
  | hello _ _ _ _ hinv hb => exact hframe (hb.unfinished hinv) (by simp)
  | welcomed _ _ _ hinv hb => exact hframe (hb.unfinished hinv) (by simp)
  | established _ _ _ hinv hb => exact hframe (hb.unfinished hinv) (by simp)
  | failed _ =>
    cases hstep with
    | gaveUp => exact hne hw
    | early => exact hne hw

/-- Where a connection stands does not depend on what was sent. -/
theorem Stands.sends (h : Stands E R Holds check tgt m u s c) (ready welcome : Bool)
    (pong : Option (List.Vector UInt8 16 × Nat)) :
    Stands E R Holds check tgt m u s { c with ourReadySent := ready, ourWelcomeSent := welcome, pendingPong := pong } := by
  cases h with
  | greeting hs hm hc hd hp hlen ht => exact .greeting hs hm hc hd ⟨hp.pos, hp.short, hp.buffered⟩ hlen ht
  | ready hs hv ht hi hb => exact .ready hs hv ht hi hb
  | hello hs hv hc ht hi hb => exact .hello hs hv hc ht hi hb
  | welcomed hs hv ht hi hb => exact .welcomed hs hv ht hi hb
  | established hs hv ht hi hb => exact .established hs hv ht hi hb
  | failed hs => exact .failed hs

/-! ## A feed -/

/-- What a feed of `input` makes of where a connection stands: it has consumed a part of the next occasion, and there is nothing
to send; or it has completed the occasion, and the reply to the feed is what the endpoint answers. Where it fails, the endpoint
may give up. -/
def Fed (E : Endpoint σ) (R : Role τ) (Holds : τ → σ → Prop) (check : List UInt8 → List UInt8 → Bool) (tgt : Target)
    (m : Mechanism) (u : List UInt8) (s : Stage σ) (c : Conn τ cap) (input : List UInt8)
    (r : Conn τ cap × Res ConnError Nat) : Prop :=
  match r.2 with
  | .ok n => (Stands E R Holds check tgt m (u ++ input.take n) s r.1 ∧ (reply R c r.1).out = []) ∨
      ∃ i w s', E.Step m s i w s' ∧ i.isPublish = false ∧ i.IsWire R check tgt cap m (u ++ input.take n) ∧
        Stands E R Holds check tgt m [] s' r.1 ∧ (reply R c r.1).out.flatMap Sent.bytes = wireOf w.frames
  | .error f => f.aborts = true ∨ Stands E R Holds check tgt m u s r.1 ∨
      r.1.state = .failed ∧ s ≠ .greeting ∧ s.isEstablished = false

/-- There is nothing to send. -/
theorem reply_nothing {c' : Conn τ cap} (h : c'.state = c.state ∨ c'.state ≠ .ready ∧ c'.state ≠ .plainReady)
    (hp : c'.pendingPong = none) : (reply R c c').out = [] := by
  have hreply : reply R c c' = c'.sendPong := by
    rcases h with h | ⟨h1, h2⟩
    · exact reply_same h
    · exact reply_other h1 h2
  rw [hreply, sendPong_none hp]

theorem wireOf_nothing {sent : List Sent} (h : sent = []) : sent.flatMap Sent.bytes = wireOf [] := by
  rw [h]
  rfl

/-- A feed in the greeting. -/
theorem fed_greeting (I : E.Implements R ask Holds) (q : c.Quiet) (hs : c.state = .greeting) (hm : c.mechanism = m)
    (hc : c.auth.check = check) (hd : c.frameDecoder.state = .needFlags) (hp : GreetingPhase u c) (hlen : u.length < greetingLen)
    (ht : c.table = R.emptyTable) {input : List UInt8}
    (hans : ∀ c1 n, c.feed R tgt input = (c1, .ok n) → Answered c.state c1) :
    Fed E R Holds check tgt m u .greeting c input (c.feed R tgt input) := by
  have hq := q.phase
  rw [hs] at hq
  obtain ⟨hsent, _, hready, _⟩ := hq
  rw [feed_greeting R tgt input hs] at hans ⊢
  rcases hp.feed input with ⟨buf, pos, e, he, hp', _⟩ | ⟨buf, pos, n, he, hp', _⟩ | ⟨buf, pg, n, he, hpg, hbuf, _⟩
  · rw [he]
    exact .inr (.inl (.greeting hs hm hc hd hp' hlen ht))
  · rw [he]
    refine .inl ⟨.greeting hs hm hc hd hp' ?_ ht, reply_nothing (.inl rfl) q.pong⟩
    -- The greeting is not complete, or the state would have moved on.
    rcases hans _ _ he with ⟨q', _⟩ | ⟨hcomp, _⟩
    · have hq' := q'.phase
      rw [show (c.withGreeting buf pos).state = .greeting from hs] at hq'
      exact Nat.lt_of_le_of_lt hp'.short hq'.2.1
    · exact absurd hs hcomp.not_greeting
  · rw [he]
    have hst : (c.greeted buf pg).state = afterGreeting c.mechanism := by simp only [greeted, hsent, if_true]
    have hg : Greeted m (u ++ input.take n) (c.greeted buf pg).peerVersionMinor :=
      ⟨buf, hbuf.symm, pg, by rw [← hm]; exact hpg, rfl⟩
    have hb : Behind tgt (c.greeted buf pg).frameDecoder [] := .inl (FrameDecoder.pending_needFlags hd)
    rw [hm] at hst
    cases m with
    | null =>
      refine .inr ⟨.greeted (c.greeted buf pg).peerVersionMinor, _, _, .greeted, rfl, hg, .ready hst rfl ht q.decoder hb, ?_⟩
      rw [reply_ready I.lawful.fits (by simp [hs]) hst hm hready q.pong, wireOf_single, ← I.ready]
      exact List.append_nil _
    | plain =>
      refine .inr ⟨.greeted (c.greeted buf pg).peerVersionMinor, _, _, .greetedPlain, rfl, hg,
        .hello hst rfl hc ht q.decoder hb, ?_⟩
      exact wireOf_nothing (reply_nothing (.inr ⟨by simp [hst, afterGreeting], by simp [hst, afterGreeting]⟩) q.pong)

/-- A feed that ends in the peer's READY. -/
theorem fed_ready (I : E.Implements R ask Holds) (q : c.Quiet) (hs : c.state = .ready ∨ c.state = .plainReady) {minor : UInt8}
    (hv : c.peerVersionMinor = minor) (hstep : E.Step m s .ready ⟨[], false⟩ (.established minor E.nothing)) (hne : s ≠ .greeting)
    (he : s.isEstablished = false) (ht : c.table = R.emptyTable) (hb : Behind tgt c.frameDecoder u)
    (hstand : ∀ d u', d.Inv → Behind tgt d u' → Stands E R Holds check tgt m u' s (c.withDecoder d)) (input : List UInt8) :
    Fed E R Holds check tgt m u s c input (c.feed R tgt input) := by
  have hhandler : (handler R tgt c.state : Conn τ cap → _) = onReady R tgt := by rcases hs with hs | hs <;> rw [hs] <;> rfl
  rw [q.feed_frame (by rcases hs with hs | hs <;> simp [hs]), hhandler]
  rcases feedFrame_spec q.decoder hb input (onReady R tgt) with ⟨d, n, hf, hi', hb', _⟩ | ⟨d, n, f, hi', hd, _, hw, hcap, _, hf⟩ |
    ⟨d, e, hf, hi', _, hb'⟩
  · rw [hf]
    exact .inl ⟨hstand d _ hi' hb', reply_nothing (.inl rfl) q.pong⟩
  · rcases onReady_spec R tgt (c.withDecoder d) f with ⟨ty, hlen, hp, hon⟩ | ⟨e, _, hon⟩ | ⟨flt, _, _, hab, hon⟩
    · rw [hf, hon]
      have hheld : Holds (c.withDecoder d).table E.nothing := by
        rw [withDecoder_table, ht]
        exact I.nothing
      refine .inr ⟨.ready, _, _, hstep, rfl, ⟨⟨f, hw, I.lawful.isCommand hp, hlen, ty, hp⟩, f, hw, hcap⟩,
        .established rfl hv hheld hi' (.inl (FrameDecoder.pending_needFlags hd)), ?_⟩
      exact wireOf_nothing (reply_nothing (.inr ⟨by simp, by simp⟩) q.pong)
    · rw [hf, hon]
      exact .inr (.inr ⟨rfl, hne, he⟩)
    · rw [hf, hon]
      exact .inl ((flt.aborts_mapErr _).trans hab)
  · rw [hf]
    exact .inr (.inl (hstand d u hi' hb'))

/-- A feed that ends in the peer's HELLO. -/
theorem fed_hello (I : E.Implements R ask Holds) (q : c.Quiet) (hs : c.state = .plainHello) {minor : UInt8}
    (hv : c.peerVersionMinor = minor) (hc : c.auth.check = check) (ht : c.table = R.emptyTable)
    (hb : Behind tgt c.frameDecoder u) (input : List UInt8) :
    Fed E R Holds check tgt .plain u (.opening minor) c input (c.feed R tgt input) := by
  have hq := q.phase
  rw [hs] at hq
  obtain ⟨hm, hready, hwelcome⟩ := hq
  rw [feed_hello R tgt input hs]
  rcases feedFrame_spec q.decoder hb input onHello with ⟨d, n, hf, hi', hb', _⟩ | ⟨d, n, f, hi', hd, _, hw, hcap, _, hf⟩ |
    ⟨d, e, hf, hi', _, hb'⟩
  · rw [hf]
    exact .inl ⟨.hello hs hv hc ht hi' hb', reply_nothing (.inl rfl) q.pong⟩
  · rcases onHello_spec (c.withDecoder d) f with ⟨user, pass, hp, hyes, hon⟩ | ⟨_, _, _, _, hon⟩ | ⟨_, _, hon⟩
    · rw [hf, hon]
      refine .inr ⟨.hello, _, _, .hello, rfl,
        ⟨⟨f, hw, parseHelloFrom_isCommand hp, user, pass, hp, by rw [← hc]; exact hyes⟩, f, hw, hcap⟩,
        .welcomed rfl hv ht hi' (.inl (FrameDecoder.pending_needFlags hd)), ?_⟩
      have hreply : reply R c
          { c.withDecoder d with auth := ((c.withDecoder d).auth.consult user pass).1, state := .plainReady } = _ :=
        reply_plainReady I.lawful.fits (by simp [hs]) rfl hm hwelcome hready q.pong
      refine (congrArg (fun o => o.out.flatMap Sent.bytes) hreply).trans ?_
      show welcomeFrame ++ (R.readyFrame ++ []) = frameBytes (command welcomeName []) ++ (frameBytes E.ready ++ [])
      rw [frameBytes_welcome, I.ready]
    · rw [hf, hon]
      exact .inr (.inr ⟨rfl, by simp, rfl⟩)
    · rw [hf, hon]
      exact .inr (.inr ⟨rfl, by simp, rfl⟩)
  · rw [hf]
    exact .inr (.inl (.hello hs hv hc ht hi' hb'))

/-- What is sent for a pending PONG. -/
theorem sendPong_bytes {c : Conn τ cap} (h : c.pendingPong = none ∨ ∃ ctx n, c.pendingPong = some (ctx, n) ∧ n ≤ 16) :
    c.sendPong.out.flatMap Sent.bytes = c.owed.flatten := by
  rcases h with hp | ⟨ctx, n, hp, hn⟩
  · rw [sendPong_none hp, owed_of_none hp]
    rfl
  · rw [sendPong_some hp hn, owed, hp]
    rfl

/-- A feed of an established connection. -/
theorem fed_established (I : E.Implements R ask Holds) (q : c.Quiet) (hs : c.state = .established) {minor : UInt8}
    (hv : c.peerVersionMinor = minor) {kept : σ} (ht : Holds c.table kept) (hb : Behind tgt c.frameDecoder u) (input : List UInt8) :
    Fed E R Holds check tgt m u (.established minor kept) c input (c.feed R tgt input) := by
  rw [feed_established R tgt input hs]
  rcases feedFrame_spec q.decoder hb input (onEstablished R) with ⟨d, n, hf, hi', hb', _⟩ |
    ⟨d, n, f, hi', hd, _, hw, hcap, _, hf⟩ | ⟨d, e, hf, hi', _, hb'⟩
  · rw [hf]
    exact .inl ⟨.established hs hv ht hi' hb', reply_nothing (.inl rfl) q.pong⟩
  · -- The table follows what the frame asks for, and the PONG that is due is pending.
    obtain ⟨tab, pong, hon, howed⟩ := onEstablished_owed I.add I.remove (c := c.withDecoder d) q.pong f
    obtain ⟨tab', pong', hon', hfits⟩ := onEstablished_spec R (c.withDecoder d) f
    obtain ⟨pong'', hask⟩ := I.asks cap (c.withDecoder d) f
    have htab : tab = ask c.table f := congrArg (fun r => r.1.table) (hon.symm.trans hask)
    have hpong : pong = pong' := congrArg (fun r => r.1.pendingPong) (hon.symm.trans hon')
    have hheld : Holds ((c.withDecoder d).withTable tab pong).table (E.record kept f) := by
      rw [htab]
      exact I.record f ht
    rw [hf, hon]
    refine .inr ⟨.heard f, _, _, .heard, rfl, ⟨hw, hcap⟩, .established hs hv hheld hi'
      (.inl (FrameDecoder.pending_needFlags hd)), ?_⟩
    have hsend : (reply R c ((c.withDecoder d).withTable tab pong)).out.flatMap Sent.bytes =
        (pongsFor c.peerVersionMinor [f]).flatten := by
      rw [reply_same (show ((c.withDecoder d).withTable tab pong).state = c.state from rfl), sendPong_bytes, howed]
      · rfl
      · rcases hfits with hsame | ⟨ctx, n, hp, hn⟩
        · exact .inl (hpong.trans (hsame.trans q.pong))
        · exact .inr ⟨ctx, n, hpong.trans hp, hn⟩
    exact hsend.trans (by rw [hv, wireOf_pongsTo])
  · rw [hf]
    exact .inr (.inl (.established hs hv ht hi' hb'))

/-- Every feed of a quiet connection. -/
theorem Stands.feed (I : E.Implements R ask Holds) (h : Stands E R Holds check tgt m u s c) (q : c.Quiet) (input : List UInt8)
    (hans : ∀ c1 n, c.feed R tgt input = (c1, .ok n) → Answered c.state c1) :
    Fed E R Holds check tgt m u s c input (c.feed R tgt input) := by
  cases h with
  | greeting hs hm hc hd hp hlen ht => exact fed_greeting I q hs hm hc hd hp hlen ht hans
  | ready hs hv ht _ hb =>
    exact fed_ready I q (.inl hs) hv .ready (by simp) rfl ht hb (fun d u' hi' hb' => .ready hs hv ht hi' hb') input
  | hello hs hv hc ht _ hb => exact fed_hello I q hs hv hc ht hb input
  | welcomed hs hv ht _ hb =>
    exact fed_ready I q (.inr hs) hv .readyPlain (by simp) rfl ht hb (fun d u' hi' hb' => .welcomed hs hv ht hi' hb') input
  | established hs hv ht _ hb => exact fed_established I q hs hv ht hb input
  | failed hs =>
    have hq := q.phase
    rw [hs] at hq
    exact hq.elim

/-! ## Deeds -/

/-- What the events `x` of a deed, which leads to `c'`, make of where a connection stands, and of what goes out. -/
inductive Moves (E : Endpoint σ) (R : Role τ) (Holds : τ → σ → Prop) (check : List UInt8 → List UInt8 → Bool) (tgt : Target)
    (m : Mechanism) (u : List UInt8) (s : Stage σ) (x : List IoEvent) (c' : Conn τ cap) : Prop where
  | stays : Stands E R Holds check tgt m (u ++ consumedBytes x) s c' → acceptedBytes x = [] →
      Moves E R Holds check tgt m u s x c'
  | fails : s ≠ .greeting → s.isEstablished = false → c'.state = .failed → consumedBytes x = [] → acceptedBytes x = errorFrame →
      Moves E R Holds check tgt m u s x c'
  | steps {i : Occasion} {w : Reply} {s' : Stage σ} : E.Step m s i w s' → i.isPublish = false →
      i.IsWire R check tgt cap m (u ++ consumedBytes x) → Stands E R Holds check tgt m [] s' c' →
      acceptedBytes x = wireOf w.frames → Moves E R Holds check tgt m u s x c'

/-- A deed. -/
theorem Stands.deed (I : E.Implements R ask Holds) (h : Stands E R Holds check tgt m u s c) {x : List IoEvent}
    {c' : Conn τ cap} (hd : Deed R tgt c x c') : Moves E R Holds check tgt m u s x c' := by
  -- A feed that fails consumes nothing, and ERROR is all that may follow.
  have hrejected : ∀ c' : Conn τ cap, (c'.state ≠ .failed → Stands E R Holds check tgt m u s c') →
      (c'.state = .failed → s ≠ .greeting ∧ s.isEstablished = false) → Moves E R Holds check tgt m u s c'.errorOf c' := by
    intro c' hst hfails
    by_cases hs : c'.state = .failed
    · obtain ⟨hne, he⟩ := hfails hs
      have herr : c'.errorOf = [.sent (.error errorFrame)] := by rw [errorOf, if_pos hs]
      rw [herr]
      exact .fails hne he hs rfl (List.append_nil _)
    · have herr : c'.errorOf = [] := by rw [errorOf, if_neg hs]
      rw [herr]
      exact .stays (by simpa [consumedBytes] using hst hs) rfl
  cases hd with
  | @read e he =>
    have hnothing : consumedBytes [e] = [] ∧ acceptedBytes [e] = [] := by
      cases e with
      | received bs => exact ⟨rfl, rfl⟩
      | readFailed kind => exact ⟨rfl, rfl⟩
      | _ => cases he
    exact .stays (by rwa [hnothing.1, List.append_nil]) hnothing.2
  | @round c1 _ input n sent q hf _ hans hreply =>
    have hfed := h.feed I q input (fun c2 k he => by
      rw [hf] at he
      cases he
      exact hans)
    rw [hf] at hfed
    have hx : consumedBytes (.consumed (input.take n) :: sent.map .sent) = input.take n := by
      show input.take n ++ consumedBytes (sent.map .sent) = input.take n
      rw [consumedBytes_sent, List.append_nil]
    have hacc : acceptedBytes (.consumed (input.take n) :: sent.map .sent) = sent.flatMap Sent.bytes := acceptedBytes_sent sent
    obtain ⟨_, ready, welcome, pong, hc'⟩ := reply_sends I.lawful.fits hans
    rw [hreply] at hc'
    have hout : (reply R c c1).out = sent := by rw [hreply]
    have hc' : c' = _ := hc'
    rcases hfed with ⟨hst, hnone⟩ | ⟨i, w, s', hstep, hi, hw, hst, hframes⟩
    · refine .stays ?_ ?_
      · rw [hx, hc']
        exact hst.sends ready welcome pong
      · rw [hacc, ← hout, hnone]
        rfl
    · refine .steps hstep hi ?_ ?_ ?_
      · rw [hx]
        exact hw
      · rw [hc']
        exact hst.sends ready welcome pong
      · rw [hacc, ← hout]
        exact hframes
  | @reject _ input f q hf hab =>
    have hfed := h.feed I q input (fun c2 k he => by
      rw [hf] at he
      cases he)
    rw [hf] at hfed
    rcases hfed with hab' | hst | ⟨hs, hne, he⟩
    · rw [hab] at hab'
      cases hab'
    · refine hrejected c' (fun _ => hst) (fun hs => ?_)
      cases hst with
      | failed _ => exact ⟨by simp, rfl⟩
      | _ => simp_all
    · exact hrejected c' (fun hlive => absurd hs hlive) (fun _ => ⟨hne, he⟩)
  | refuse =>
    refine hrejected c (fun _ => h) (fun hs => ?_)
    cases h with
    | failed _ => exact ⟨by simp, rfl⟩
    | _ => simp_all

/-- What deeds, which lead to `c'`, make of where a connection stands: the occasions `is` that they complete, and the replies
that go out. -/
structure Progress (E : Endpoint σ) (R : Role τ) (Holds : τ → σ → Prop) (check : List UInt8 → List UInt8 → Bool) (tgt : Target)
    (m : Mechanism) (u : List UInt8) (s : Stage σ) (x : List IoEvent) (c' : Conn τ cap) (is : List Occasion) (ws : List Reply)
    (s' : Stage σ) : Prop where
  path : Run.Path (E.Step m) s is ws s'
  polled : ∀ i ∈ is, i.isPublish = false
  consumed : ∃ t u', u ++ consumedBytes x = t ++ u' ∧ Spelled (Occasion.IsWire R check tgt cap m) is t ∧
    Stands E R Holds check tgt m u' s' c'
  accepted : acceptedBytes x = wireOf (framesOf ws)

theorem framesOf_append (ws us : List Reply) : framesOf (ws ++ us) = framesOf ws ++ framesOf us := List.flatMap_append

/-- Deeds one after the other. -/
theorem Stands.deeds (I : E.Implements R ask Holds) (h : Stands E R Holds check tgt m u s c) {x : List IoEvent}
    {c' : Conn τ cap} (hd : Deeds R tgt c x c') : ∃ is ws s', Progress E R Holds check tgt m u s x c' is ws s' := by
  induction hd with
  | nil => exact ⟨[], [], s, .nil, by simp, ⟨[], u, List.append_nil u, .nil, h⟩, rfl⟩
  | @snoc tr y c1 c2 _ hdeed ih =>
    obtain ⟨is, ws, s1, hpath, hpolled, ⟨t, u1, hc, hspell, hst⟩, hacc⟩ := ih
    have hconsumed : u ++ consumedBytes (tr ++ y) = t ++ (u1 ++ consumedBytes y) := by
      rw [consumedBytes_append, ← List.append_assoc, hc, List.append_assoc]
    -- One more occasion, with its wire form and its reply.
    have hstep : ∀ i w s2 form u2, E.Step m s1 i w s2 → i.isPublish = false → i.IsWire R check tgt cap m form →
        u1 ++ consumedBytes y = form ++ u2 → Stands E R Holds check tgt m u2 s2 c2 → acceptedBytes y = wireOf w.frames →
        ∃ is ws s', Progress E R Holds check tgt m u s (tr ++ y) c2 is ws s' := by
      intro i w s2 form u2 hstep hi hw heq hst' hframes
      refine ⟨is ++ [i], ws ++ [w], s2, hpath.append (.single hstep), ?_, ⟨t ++ form, u2, ?_, hspell.append (.single hw), hst'⟩, ?_⟩
      · intro j hj
        rcases List.mem_append.mp hj with hj | hj
        · exact hpolled j hj
        · rw [List.mem_singleton.mp hj]
          exact hi
      · rw [hconsumed, heq, List.append_assoc]
      · rw [acceptedBytes_append, hacc, hframes, framesOf_append, wireOf_append]
        exact congrArg (wireOf (framesOf ws) ++ wireOf ·) (List.append_nil _).symm
    cases hst.deed I hdeed with
    | stays hst' hnone =>
      refine ⟨is, ws, s1, hpath, hpolled, ⟨t, _, hconsumed, hspell, hst'⟩, ?_⟩
      rw [acceptedBytes_append, hnone, List.append_nil, hacc]
    | fails hne he hs hnothing hone =>
      refine hstep .gaveUp _ .failed [] u1 (.gaveUp hne he) rfl rfl ?_ (.failed hs) ?_
      · rw [hnothing, List.append_nil, List.nil_append]
      · rw [hone, ← frameBytes_refusal]
        exact (wireOf_single refusal).symm
    | @steps i w s2 hstep' hi hw hst' hframes =>
      exact hstep i w s2 _ [] hstep' hi hw (List.append_nil _).symm hst' hframes

end Stands

end Mzmq
