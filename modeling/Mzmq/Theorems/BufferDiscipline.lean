import Mzmq.Lemmas.Calls
import Mzmq.Lemmas.Feeding
import Mzmq.Theorems.IndexSafety

/-!
# The receive buffer makes progress

A drain of a buffer with something in it ends, stays inside the buffer, and returns an error or leaves less in it, unless it
completes a READY whose metadata overruns, on a 32-bit target (`Overruns`). So a poll reads only with an empty buffer, and
offers all of it.
-/

namespace Mzmq

open Checked Consumer

/-! ## The connection -/

namespace Conn

variable {τ : Type} {cap : Nat} {R : Role τ} {tgt : Target} {c : Conn τ cap}

/-- A bounded connection whose decoder is behind some bytes of a frame. -/
structure Aligned (tgt : Target) (c : Conn τ cap) : Prop extends Bounded c where
  behind : ∃ u, Behind tgt c.frameDecoder u

/-- A decoder that expects flags is behind no bytes. -/
theorem behind_needFlags {d : FrameDecoder cap} (h : d.state = .needFlags) : ∃ u, Behind tgt d u := by
  refine ⟨[], .inl ?_⟩
  rw [Pending, h]

/-- A feed of frames keeps the decoder aligned, if the handler does not touch it. -/
theorem Aligned.feedFrame (h : c.Aligned tgt) (input : List UInt8)
    {handle : Conn τ cap → DecodedFrame → Conn τ cap × Res ConnError Unit}
    (hh : ∀ d f, (handle (c.withDecoder d) f).1.frameDecoder = d) :
    ∃ u, Behind tgt (Conn.feedFrame tgt c input handle).1.frameDecoder u := by
  obtain ⟨u, hb⟩ := h.behind
  rcases feedFrame_spec h.decoder hb input handle with ⟨d, n, he, _, hd, _⟩ | ⟨d, n, f, _, hd, _, _, _, _, he⟩ |
    ⟨d, e, he, _, _, hd⟩
  · rw [he]
    exact ⟨_, hd⟩
  · have hsame := hh d f
    rw [he]
    rcases ho : handle (c.withDecoder d) f with ⟨c', e | r⟩ <;> rw [ho] at hsame <;> simp only <;> rw [hsame] <;>
      exact behind_needFlags hd
  · rw [he]
    exact ⟨_, hd⟩

/-- A feed keeps the decoder aligned. -/
theorem Aligned.feed (h : c.Aligned tgt) (R : Role τ) (input : List UInt8) : (c.feed R tgt input).1.Aligned tgt := by
  refine ⟨h.toBounded.feed R tgt input, ?_⟩
  rcases c.feed_stage with hs | hs | hs | hs | hs
  · rw [feed_greeting R tgt input hs]
    obtain ⟨buf, _, ⟨e, he, _⟩ | ⟨_, _, he⟩ | ⟨pg, _, _, he⟩⟩ := feedGreeting_spec h.greeting input <;> rw [he] <;>
      exact h.behind
  · rw [feed_hello R tgt input hs]
    refine h.feedFrame input ?_
    intro d f
    rcases onHello_spec (c.withDecoder d) f with ⟨_, _, _, _, he⟩ | ⟨_, _, _, _, he⟩ | ⟨e, _, he⟩ <;> rw [he] <;> rfl
  · rw [feed_awaiting R tgt input hs]
    refine h.feedFrame input ?_
    intro d f
    rcases onReady_spec R tgt (c.withDecoder d) f with ⟨_, _, _, he⟩ | ⟨_, _, he⟩ | ⟨_, _, _, _, he⟩ <;> rw [he] <;> rfl
  · rw [feed_established R tgt input hs]
    refine h.feedFrame input ?_
    intro d f
    obtain ⟨t, pong, he, _⟩ := onEstablished_spec R (c.withDecoder d) f
    rw [he]
    rfl
  · rw [feed_refused R tgt input hs]
    exact h.behind

/-- An operation that is no feed keeps the decoder aligned. -/
theorem Aligned.other (h : c.Aligned tgt) (R : Role τ) {op : Op} (hop : ∀ input, op ≠ .feed input) :
    (apply R tgt c op).1.Aligned tgt := by
  obtain ⟨_, _, hd⟩ := other_table R tgt c op hop
  refine ⟨h.toBounded.step R tgt op, ?_⟩
  rw [hd]
  exact h.behind

/-- What a driver writes for a connection is the output of an operation that is no feed. -/
theorem operation_of_sends {op : Conn τ cap → Outcome (Conn τ cap) Sent ConnError} (h : Adapter.Sends R op) (tgt : Target)
    (c : Conn τ cap) : ∃ o : Op, (∀ input, o ≠ .feed input) ∧ (op c).state = (apply R tgt c o).1 := by
  cases h with
  | ready =>
    refine ⟨.writeReady (List.replicate 32 0), by simp, ?_⟩
    rcases hw : c.writeReady R (List.replicate 32 0) with ⟨c', out, f | n⟩ <;> simp only [Conn.sendReady, apply, hw]
  | welcome =>
    refine ⟨.writeWelcome (List.replicate welcomeFrame.length 0), by simp, ?_⟩
    rcases hw : c.writeWelcome (List.replicate welcomeFrame.length 0) with ⟨c', out, f | n⟩ <;>
      simp only [Conn.sendWelcome, apply, hw]
  | pong =>
    refine ⟨.writePong (List.replicate 23 0), by simp, ?_⟩
    rcases hw : c.writePong (List.replicate 23 0) with ⟨c', out, f | _ | n⟩ <;> simp only [Conn.sendPong, apply, hw]

theorem Aligned.send (h : c.Aligned tgt) {op : Conn τ cap → Outcome (Conn τ cap) Sent ConnError}
    (hop : Adapter.Sends R op) : (op c).state.Aligned tgt := by
  obtain ⟨o, ho, he⟩ := operation_of_sends hop tgt c
  rw [he]
  exact h.other R ho

/-- What is sent behind a feed keeps the decoder aligned. -/
theorem Aligned.reply (h : c.Aligned tgt) (R : Role τ) (prev : Conn τ cap) : (Conn.reply R prev c).state.Aligned tgt := by
  have hk : ∀ s : Conn τ cap, s.Aligned tgt → s.sendPong.state.Aligned tgt := fun s hs => hs.send (R := R) .pong
  refine Outcome.andThen_state ?_ hk
  unfold handshakeReply
  split
  · exact h.send .ready
  · split
    · exact Outcome.andThen_state (h.send (R := R) .welcome) fun s hs => hs.send .ready
    · exact h

theorem awaits_state (h : c.awaitsReady = true) : c.state = .ready ∨ c.state = .plainReady := by
  simp only [awaitsReady, Bool.and_eq_true, Bool.or_eq_true, beq_iff_eq] at h
  obtain ⟨_, hs | ⟨hs, _⟩⟩ := h
  · exact .inl hs
  · exact .inr hs

/-- A feed panics exactly when it completes an overrunning READY that the connection awaits, on a 32-bit target. -/
theorem Aligned.feed_aborts_iff (h : c.Aligned tgt) (L : R.Lawful) (input : List UInt8) :
    (∃ flt, (c.feed R tgt input).2 = .error flt ∧ flt.aborts = true) ↔
      c.awaitsReady = true ∧ c.CompletesOverrun tgt input := by
  obtain ⟨u, hb⟩ := h.behind
  have hsent : c.awaitsReady = true → c.ourReadySent = true ∧ (c.state = .plainReady → c.ourWelcomeSent = true) := by
    intro hs
    simp only [awaitsReady, Bool.and_eq_true, Bool.or_eq_true, beq_iff_eq] at hs
    obtain ⟨hr, hs | ⟨_, hw⟩⟩ := hs
    · exact ⟨hr, fun h => (by rw [hs] at h; cases h)⟩
    · exact ⟨hr, fun _ => hw⟩
  constructor
  · rintro ⟨flt, hf, hab⟩
    have hs := (h.toBounded.feed_aborts L hf hab).2.1
    rw [feed_awaiting R tgt input hs] at hf
    obtain ⟨hw, hover⟩ := (feedReadyInner_aborts_iff L h.decoder hb input).mp ⟨flt, hf, hab⟩
    exact ⟨hs, hw, (hsent hs).1, (hsent hs).2, hover⟩
  · rintro ⟨hs, hw, _, _, hover⟩
    rw [feed_awaiting R tgt input hs]
    exact (feedReadyInner_aborts_iff L h.decoder hb input).mpr ⟨hw, hover⟩

end Conn

/-! ## The drain -/

namespace Adapter

open Conn

variable {τ T : Type} {cap : Nat} [Transport T] {P : Policy τ} {tgt : Target} {m : Mechanism}

/-- On a 32-bit target, what is buffered completes a READY that the connection awaits, and its metadata overruns. -/
def Overruns (tgt : Target) (a : Adapter τ cap T) : Prop :=
  a.conn.awaitsReady = true ∧ a.conn.CompletesOverrun tgt a.buffered

omit [Transport T] in
/-- A unit of input that leaves the connection waiting for READY ends the loop. -/
theorem completed_move (L : P.Lawful m) {prev : State} {c : Conn τ cap} (h : Completed prev c) (hm : c.mechanism = m)
    (hmove : P.move prev c.state = none) : c.state ≠ .ready ∧ c.state ≠ .plainReady := by
  cases h with
  | ready before after mechanism =>
    rw [before, after, L.ready (hm.symm.trans mechanism)] at hmove
    cases hmove
  | hello _ after => simp [after]
  | welcome before after mechanism =>
    rw [before, after, L.welcome (hm.symm.trans mechanism)] at hmove
    cases hmove
  | established after => simp [after]

/-- The loop of a drain does not panic, unless it begins with such a READY. The induction is on the fuel: a READY is
awaited only at the beginning, since the driver leaves the loop when it has sent its own. -/
theorem drainLoop_safe (L : P.Lawful m) (tgt : Target) (fuel : Nat) : ∀ (a : Adapter τ cap T) (total : Nat), a.conn.Quiet →
    a.conn.Aligned tgt → a.conn.mechanism = m → total ≤ a.rxLen → a.rxLen ≤ 512 → a.rxLen - total < fuel →
    (total < a.rxLen → ¬(a.conn.awaitsReady = true ∧ a.conn.CompletesOverrun tgt (a.buffered.drop total))) →
    ∀ f, (drainLoop P tgt fuel a total).fault = some f → f.aborts = false := by
  induction fuel with
  | zero =>
    intro a total _ _ _ _ _ hfuel
    omega
  | succ fuel ih =>
    intro a total q ha hm hle hmax hfuel hsafe f hf
    have hcompact : ∀ (b : Adapter τ cap T) k, k ≤ b.rxLen → b.rxLen ≤ 512 → (b.compact k).fault = none := by
      intro b k hk hb
      obtain ⟨b', hc, _⟩ := compact_spec hk hb
      rw [hc]
    by_cases hlt : total < a.rxLen
    · have haligned := ha.feed P.role (a.buffered.drop total)
      cases drainLoop_turn L tgt fuel q hm hlt hmax with
      | goesOn c n t next hfeed hmc hans hpos hfit hends _ _ hnext ho =>
        rw [hfeed] at haligned
        rw [ho] at hf
        obtain ⟨hq, _, hstate, hmech⟩ := hans.reply L.role.fits
        rcases hnext with rfl | ⟨rfl, hmove⟩
        · have hnone := hcompact (a.moved (reply P.role a.conn c).state t) _ hfit hmax
          rw [hnone] at hf
          cases hf
        · refine ih (a.moved (reply P.role a.conn c).state t) (total + n) hq (haligned.reply P.role a.conn)
            ((hmech.trans hmc).trans hm) hfit hmax (show a.rxLen - (total + n) < fuel by omega) ?_ f hf
          -- What goes on with the loop does not await READY.
          rintro hmore ⟨hawaits, _⟩
          have hmore : total + n < a.rxLen := hmore
          rcases hends with hall | hcomp
          · omega
          · obtain ⟨hready, hplain⟩ := completed_move L hcomp (hmc.trans hm) hmove
            rcases awaits_state hawaits with hs | hs
            · exact hready (hstate.symm.trans hs)
            · exact hplain (hstate.symm.trans hs)
      | refused c n t sent s e _ _ _ _ ho =>
        rw [ho] at hf
        cases hf
        rfl
      | failed c c' flt hfeed _ _ _ _ ho =>
        obtain ⟨t, tr, he, _⟩ := (a.moved c a.transport).feedFailed_spec flt
        rw [ho, he] at hf
        cases hf
        by_contra hab
        have hab : f.aborts = true := by simpa using hab
        exact hsafe hlt ((ha.feed_aborts_iff L.role _).mp ⟨f, by rw [hfeed], hab⟩)
    · rw [drainLoop, if_neg hlt, hcompact _ _ hle hmax] at hf
      cases hf

/-- A drain of something panics exactly when it completes an overrunning READY. -/
theorem Steady.drain_aborts_iff (L : P.Lawful m) {a : Adapter τ cap T} (s : Steady m a) (ha : a.conn.Aligned tgt)
    (hpos : 0 < a.rxLen) :
    (∃ f, (drainBuffer P tgt a).fault = some f ∧ f.aborts = true) ↔ a.Overruns tgt := by
  have hfeed := ha.feed_aborts_iff L.role a.buffered
  constructor
  · rintro ⟨f, hf, hab⟩
    rcases s.conn with q | hs
    · by_contra hno
      have hsafe := drainLoop_safe L tgt (a.rxLen + 1) a 0 q ha s.mechanism (Nat.zero_le _) s.fits (by omega)
        (fun _ => hno) f hf
      rw [hab] at hsafe
      cases hsafe
    · obtain ⟨e, he⟩ := drain_stuck P tgt hs hpos s.fits
      obtain ⟨t, tr, hfailed, _⟩ := a.feedFailed_spec (.err e)
      rw [he, hfailed] at hf
      cases hf
      cases hab
  · intro hover
    obtain ⟨f, hf, hab⟩ := hfeed.mpr hover
    rcases hc : a.conn.feed P.role tgt (a.buffered.drop 0) with ⟨c, r⟩
    rw [List.drop_zero] at hc
    rw [hc] at hf
    obtain rfl : r = .error f := hf
    obtain ⟨t, tr, hfailed, _⟩ := (a.moved c a.transport).feedFailed_spec f
    refine ⟨f, ?_, hab⟩
    rw [drainBuffer, drainLoop_error hpos s.fits hc, hfailed]

/-- What a drain of something does: it ends, it stays inside the buffer, and it returns an error or leaves less. -/
structure Progresses (P : Policy τ) (tgt : Target) (a : Adapter τ cap T) : Prop where
  fits : (drainBuffer P tgt a).state.rxLen ≤ 512
  ends : (∃ e, (drainBuffer P tgt a).fault = some (.err e)) ∨
    (drainBuffer P tgt a).fault = none ∧ (drainBuffer P tgt a).state.rxLen < a.rxLen

/-- A drain progresses exactly when it completes no overrunning READY. -/
theorem Steady.progresses_iff (L : P.Lawful m) {a : Adapter τ cap T} (s : Steady m a) (ha : a.conn.Aligned tgt)
    (hpos : 0 < a.rxLen) : Progresses P tgt a ↔ ¬a.Overruns tgt := by
  rw [← s.drain_aborts_iff L ha hpos]
  constructor
  · rintro ⟨_, ⟨e, he⟩ | ⟨hnone, _⟩⟩ ⟨f, hf, hab⟩
    · rw [he] at hf
      cases hf
      cases hab
    · rw [hnone] at hf
      cases hf
  · intro hno
    have hlive : ∀ f, (drainBuffer P tgt a).fault = some f → f.aborts = false := by
      intro f hf
      by_contra hab
      exact hno ⟨f, hf, by simpa using hab⟩
    refine ⟨(s.drain L tgt hpos hlive).fits, ?_⟩
    cases hf : (drainBuffer P tgt a).fault with
    | none => exact .inr ⟨rfl, s.progress L tgt hpos hf⟩
    | some f =>
      cases f with
      | err e => exact .inl ⟨e, rfl⟩
      | panic => cases hlive _ hf
      | hang => cases hlive _ hf

/-! ## Polls -/

/-- `a'` is `a` where a poll drains the buffer: as it is, or, if it is empty, with what a read into all of it returned. -/
inductive Entry (a : Adapter τ cap T) : Adapter τ cap T → Prop where
  | buffered : 0 < a.rxLen → Entry a a
  | filled {a' : Adapter τ cap T} {bs : List UInt8} : a.rxLen = 0 →
      Transport.read a.transport 512 = (a'.transport, .ok bs) → bs ≠ [] → a'.conn = a.conn → a'.rxLen = bs.length →
      a'.buffered = bs → Entry a a'

theorem Entry.steady {a a' : Adapter τ cap T} (h : a.Entry a') (s : Steady m a) : Steady m a' ∧ 0 < a'.rxLen := by
  cases h with
  | buffered hpos => exact ⟨s, hpos⟩
  | filled _ hread hne hc hlen _ =>
    have hle := Transport.read_le hread
    refine ⟨⟨by rw [hc]; exact s.conn, by rw [hc]; exact s.mechanism, by omega⟩, ?_⟩
    rw [hlen]
    exact List.length_pos_iff.mpr hne

theorem Entry.aligned {a a' : Adapter τ cap T} (h : a.Entry a') (ha : a.conn.Aligned tgt) : a'.conn.Aligned tgt := by
  cases h with
  | buffered _ => exact ha
  | filled _ _ _ hc _ _ =>
    rw [hc]
    exact ha

/-- A poll drains the buffer at an entry, or the buffer is empty and the poll returns an error of the read. -/
def Enters (P : Policy τ) (tgt : Target) (a : Adapter τ cap T) : Prop :=
  (∃ a' tr, a.Entry a' ∧ a.poll P tgt = returning (Outcome.andThen ⟨a', tr, none⟩ (drainBuffer P tgt)) established) ∨
  a.rxLen = 0 ∧ ∃ kind, (a.poll P tgt).2.2 = .error (.err (.ioError kind))

/-- A poll of a steady driver does so. -/
theorem Steady.enters (L : P.Lawful m) {a : Adapter τ cap T} (s : Steady m a) (tgt : Target) : a.Enters P tgt := by
  rcases s.poll_cases L tgt with ⟨hpos, hp⟩ | ⟨h0, t, kind, _, hp⟩ | ⟨h0, t, _, hp⟩ |
    ⟨h0, t, bs, a', hread, hne, hc, ht, _, hfit, hbuf, hp⟩
  · exact .inl ⟨a, [], .buffered hpos, by rw [hp, Outcome.andThen_start]⟩
  · exact .inr ⟨h0, kind, by rw [hp]⟩
  · exact .inr ⟨h0, 0, by rw [hp]⟩
  · refine .inl ⟨a', _, ?_, hp⟩
    exact .filled h0 (by rw [ht]; exact hread) hne hc (by rw [← hbuf, buffered_length hfit]) hbuf

/-! ## Runs -/

/-- No poll of a run drains an overrunning READY. -/
def Calm (tgt : Target) (h : List (Call τ cap T)) : Prop :=
  ∀ ev ∈ h, ev.op = .poll → ∀ a', ev.pre.Entry a' → ¬a'.Overruns tgt

omit [Transport T] in
/-- On a 64-bit target nothing overruns. -/
theorem not_overruns_of_w64 (h : tgt.width ≠ .w32) (a : Adapter τ cap T) : ¬a.Overruns tgt := fun hover => h hover.2.1

/-- On a 64-bit target every run is calm. -/
theorem calm_of_w64 (h : tgt.width ≠ .w32) (calls : List (Call τ cap T)) : Calm tgt calls :=
  fun _ _ _ a' _ => not_overruns_of_w64 h a'

/-- A poll keeps the decoder aligned. -/
theorem keeps_aligned (P : Policy τ) (tgt : Target) :
    Keeps P tgt (fun _ (c : Conn τ cap) => c.Aligned tgt) (fun _ c => c.Aligned tgt) where
  idle h _ := h
  stop h := h
  feed {tr c input c' n} h hf := by
    have := h.feed P.role input
    rwa [hf] at this
  reject {tr c input c' f} h hf := by
    have := h.feed P.role input
    rwa [hf] at this
  error {tr c input c' f e} h hf _ _ := by
    have := h.feed P.role input
    rwa [hf] at this
  send {tr c op} h hop := by
    have hs := h.send hop
    rcases hop.not_error c with hout | ⟨s, hout, hf, _⟩
    · exact .inl ⟨hout, fun _ => hs, fun _ => hs⟩
    · exact .inr ⟨s, hout, hf, hs, fun _ _ => hs⟩

theorem poll_aligned (P : Policy τ) {a : Adapter τ cap T} (h : a.conn.Aligned tgt) : (a.poll P tgt).1.conn.Aligned tgt := by
  obtain ⟨hok, herr⟩ := @Keeps.poll τ T cap _ P tgt _ _ [] a (keeps_aligned P tgt) h
  cases hr : (a.poll P tgt).2.2 with
  | ok v => exact hok v hr
  | error f => exact herr f hr

/-- A poll of a steady driver that drains no overrunning READY does not panic. -/
theorem Steady.poll_live (L : P.Lawful m) {a : Adapter τ cap T} (s : Steady m a) (ha : a.conn.Aligned tgt)
    (hcalm : ∀ a', a.Entry a' → ¬a'.Overruns tgt) : halts (Adapter.step P tgt a .poll).2 = false := by
  rcases s.enters L tgt with ⟨a', tr, he, hp⟩ | ⟨_, kind, hp⟩
  · obtain ⟨s', hpos⟩ := he.steady s
    obtain ⟨_, hends⟩ := (s'.progresses_iff L (he.aligned ha) hpos).mpr (hcalm a' he)
    rw [Outcome.andThen_none rfl] at hp
    rcases hends with ⟨e, hf⟩ | ⟨hf, _⟩
    · simp only [Adapter.step, hp, returning, hf, halts, Returned.fault, Fault.aborts]
    · simp only [Adapter.step, hp, returning, hf, halts, Returned.fault]
  · simp only [Adapter.step, halts, hp, Returned.fault, Fault.aborts]

/-- What holds of a driver between two calls. -/
structure Disciplined (P : Policy τ) (tgt : Target) (a : Adapter τ cap T) : Prop where
  fits : a.rxLen ≤ 512
  enters : a.Enters P tgt
  progresses : ∀ a', a.Entry a' → (Progresses P tgt a' ↔ ¬a'.Overruns tgt)

/-- A run whose polls drain no overrunning READY leaves a disciplined driver. -/
theorem disciplined_of_calm (L : P.Lawful m) {R : Role τ} {auth : Auth} {t : T} {tr : List IoEvent} {a0 a : Adapter τ cap T}
    (h0 : start (Conn.init R m auth) t = (tr, .ok a0)) {h : List (Call τ cap T)} (hr : DriverRun P tgt a0 h a)
    (hcalm : Calm tgt h) : Disciplined P tgt a := by
  have hstart : a0.conn.Aligned tgt := by
    obtain ⟨_, hc, _⟩ := start_spec h0
    have hinit : (Conn.init R m auth : Conn τ cap).Aligned tgt :=
      ⟨⟨Nat.zero_le _, fun _ _ h => (by cases h), FrameDecoder.inv_new⟩, behind_needFlags rfl⟩
    rw [hc]
    have hno : ∀ input, Conn.Op.writeGreeting (List.replicate 64 0) ≠ .feed input := by simp
    exact hinit.other R hno
  have hinv : Calm tgt h → Steady m a ∧ a.conn.Aligned tgt := by
    refine hr.invariant (fun h a => Calm tgt h → Steady m a ∧ a.conn.Aligned tgt) (fun _ => ⟨start_steady h0, hstart⟩) ?_
    intro h a op _ ih hcalm
    obtain ⟨s, ha⟩ := ih fun ev hev => hcalm ev (List.mem_append_left _ hev)
    cases op with
    | publish topic payload =>
      obtain ⟨t, hp, _⟩ := a.publish_spec P tgt topic payload
      simp only [step, hp]
      exact ⟨⟨s.conn, s.mechanism, s.fits⟩, ha⟩
    | poll =>
      have hlive := s.poll_live L ha (hcalm _ (List.mem_append_right _ (List.mem_singleton_self _)) rfl)
      exact ⟨s.step L tgt .poll hlive, poll_aligned P ha⟩
  obtain ⟨s, ha⟩ := hinv hcalm
  refine ⟨s.fits, s.enters L tgt, ?_⟩
  intro a' he
  obtain ⟨s', hpos⟩ := he.steady s
  exact s'.progresses_iff L (he.aligned ha) hpos

/-- A drain does nothing but write to the transport. -/
theorem Steady.drain_wrote (L : P.Lawful m) (tgt : Target) {a : Adapter τ cap T} (s : Steady m a) (hpos : 0 < a.rxLen) :
    Wrote a.transport (drainBuffer P tgt a).state.transport := by
  rcases s.conn with q | hs
  · obtain ⟨k, hd, _⟩ := drain_quiet L tgt q s.mechanism s.fits
    exact hd.wrote
  · obtain ⟨e, he⟩ := drain_stuck P tgt hs hpos s.fits
    obtain ⟨t, tr, hf, ht, _⟩ := a.feedFailed_spec (.err e)
    rw [he, hf]
    exact ht

end Adapter

/-! ## Reads -/

/-- A transport that remembers how many bytes each read had room for. -/
structure Metered (T : Type) where
  inner : T
  rooms : List Nat

namespace Metered

variable {T : Type} [Transport T]

instance : Transport (Metered T) where
  read t room := (⟨(Transport.read t.inner room).1, t.rooms ++ [room]⟩, (Transport.read t.inner room).2)
  writeAll t bs := (⟨(Transport.writeAll t.inner bs).1, t.rooms⟩, (Transport.writeAll t.inner bs).2)
  write_le {t t' bs e} h := by
    simp only [Prod.mk.injEq] at h
    exact Transport.write_le (t := t.inner) (Prod.ext rfl h.2)
  read_le {t t' room bs} h := by
    simp only [Prod.mk.injEq] at h
    exact Transport.read_le (t := t.inner) (Prod.ext rfl h.2)

theorem wrote_rooms {t t' : Metered T} (h : Adapter.Wrote t t') : t'.rooms = t.rooms := by
  induction h with
  | refl => rfl
  | tail _ hw ih =>
    obtain ⟨bs, rfl⟩ := hw
    exact ih

theorem read_rooms {t t' : Metered T} {room : Nat} {r : Except Nat (List UInt8)} (h : Transport.read t room = (t', r)) :
    t'.rooms = t.rooms ++ [room] := by
  cases h
  rfl

end Metered

namespace Adapter

variable {τ T : Type} {cap : Nat} [Transport T] {P : Policy τ} {tgt : Target} {m : Mechanism}

/-- Every read so far had room for the whole buffer. -/
def ReadsWhole (a : Adapter τ cap (Metered T)) : Prop := ∀ room ∈ a.transport.rooms, room = 512

omit [Transport T] in
theorem ReadsWhole.same {a a' : Adapter τ cap (Metered T)} (h : a.ReadsWhole)
    (hr : a'.transport.rooms = a.transport.rooms ∨ a'.transport.rooms = a.transport.rooms ++ [512]) : a'.ReadsWhole := by
  intro room hroom
  rcases hr with hr | hr <;> rw [hr] at hroom
  · exact h room hroom
  · rcases List.mem_append.mp hroom with hroom | hroom
    · exact h room hroom
    · exact List.mem_singleton.mp hroom

/-- A poll of a steady driver reads into the whole buffer, or not at all. -/
theorem Steady.poll_readsWhole (L : P.Lawful m) {a : Adapter τ cap (Metered T)} (s : Steady m a) (tgt : Target)
    (h : a.ReadsWhole) : (a.poll P tgt).1.ReadsWhole := by
  rcases s.poll_cases L tgt with ⟨hpos, hp⟩ | ⟨_, t, kind, hread, hp⟩ | ⟨_, t, hread, hp⟩ |
    ⟨_, t, bs, a', hread, _, hc, ht, hpos, hfit, _, hp⟩
  · rw [hp, (returning_spec _ _).1]
    exact h.same (.inl (Metered.wrote_rooms (s.drain_wrote L tgt hpos)))
  · rw [hp]
    exact h.same (.inr (Metered.read_rooms hread))
  · rw [hp]
    exact h.same (.inr (Metered.read_rooms hread))
  · have s' : Steady m a' := ⟨by rw [hc]; exact s.conn, by rw [hc]; exact s.mechanism, hfit⟩
    rw [hp, Outcome.andThen_none rfl, (returning_spec _ _).1]
    refine h.same (.inr ?_)
    rw [Metered.wrote_rooms (s'.drain_wrote L tgt hpos), ht]
    exact Metered.read_rooms hread

/-- Every read of a run has room for the whole buffer. -/
theorem readsWhole_of_run (L : P.Lawful m) {R : Role τ} {auth : Auth} {t : T} {tr : List IoEvent}
    {a0 a : Adapter τ cap (Metered T)} (h0 : start (Conn.init R m auth) ⟨t, []⟩ = (tr, .ok a0))
    {h : List (Call τ cap (Metered T))} (hr : DriverRun P tgt a0 h a) : a.ReadsWhole := by
  have hstart : a0.ReadsWhole := by
    obtain ⟨_, _, _, _, _, hw⟩ := start_spec h0
    intro room hroom
    rw [Metered.wrote_rooms hw] at hroom
    cases hroom
  have hinv := hr.invariant (fun h a => ((∀ ev ∈ h, halts ev.res = false) → Steady m a) ∧ a.ReadsWhole)
    ⟨fun _ => start_steady h0, hstart⟩ (by
      rintro h a op hlive ⟨ih, hw⟩
      have s := ih hlive
      refine ⟨fun hall => s.step L tgt op (hall _ (List.mem_append_right _ (List.mem_singleton_self _))), ?_⟩
      cases op with
      | publish topic payload =>
        obtain ⟨t, hp, ht, _⟩ := a.publish_spec P tgt topic payload
        simp only [step, hp]
        exact hw.same (.inl (Metered.wrote_rooms ht))
      | poll => exact s.poll_readsWhole L tgt hw)
  exact hinv.2

end Adapter

open Adapter

/-- In every run whose polls drain no overrunning READY, every drain ends, stays inside the buffer and makes progress, exactly
when it drains none either; and every read has room for the whole buffer. -/
theorem drains_progress_iff (V : Type → Nat → Type) [FixedVec V] (T : Type) [Transport T] (tgt : Target)
    (tableCap nameCap frameCap : Nat) (check : List UInt8 → List UInt8 → Bool) (t : T) :
    (∀ tr d0, (Driver.new t : List IoEvent × Res ConnError (Driver V tableCap nameCap frameCap T)) = (tr, .ok d0) →
      ∀ h d, DriverRun Driver.policy tgt d0 h d → Calm tgt h → Disciplined Driver.policy tgt d) ∧
    (∀ tr d0, (Driver.newPlain t check : List IoEvent × Res ConnError (Driver V tableCap nameCap frameCap T)) =
        (tr, .ok d0) →
      ∀ h d, DriverRun Driver.policy tgt d0 h d → Calm tgt h → Disciplined Driver.policy tgt d) ∧
    (∀ P, P = RadioDriver.policy ∨ P = RadioDriver.asyncPolicy →
      ∀ tr d0, (RadioDriver.new t : List IoEvent × Res ConnError (RadioDriver V tableCap nameCap frameCap T)) =
        (tr, .ok d0) →
      ∀ h d, DriverRun P tgt d0 h d → Calm tgt h → Disciplined P tgt d) ∧
    (∀ tr d0, (Driver.new ⟨t, []⟩ : List IoEvent × Res ConnError (Driver V tableCap nameCap frameCap (Metered T))) =
        (tr, .ok d0) →
      ∀ h d, DriverRun Driver.policy tgt d0 h d → d.ReadsWhole) ∧
    (∀ tr d0, (Driver.newPlain ⟨t, []⟩ check : List IoEvent ×
        Res ConnError (Driver V tableCap nameCap frameCap (Metered T))) = (tr, .ok d0) →
      ∀ h d, DriverRun Driver.policy tgt d0 h d → d.ReadsWhole) ∧
    ∀ P, P = RadioDriver.policy ∨ P = RadioDriver.asyncPolicy →
      ∀ tr d0, (RadioDriver.new ⟨t, []⟩ : List IoEvent ×
        Res ConnError (RadioDriver V tableCap nameCap frameCap (Metered T))) = (tr, .ok d0) →
      ∀ h d, DriverRun P tgt d0 h d → d.ReadsWhole := by
  refine ⟨?_, ?_, ?_, ?_, ?_, ?_⟩
  · intro tr d0 h0 h d hr hcalm
    exact disciplined_of_calm (Driver.policy_lawful .null) h0 hr hcalm
  · intro tr d0 h0 h d hr hcalm
    exact disciplined_of_calm (Driver.policy_lawful .plain) h0 hr hcalm
  · intro P hP tr d0 h0 h d hr hcalm
    rcases hP with rfl | rfl
    · exact disciplined_of_calm RadioDriver.policy_lawful h0 hr hcalm
    · exact disciplined_of_calm RadioDriver.asyncPolicy_lawful h0 hr hcalm
  · intro tr d0 h0 h d hr
    exact readsWhole_of_run (Driver.policy_lawful .null) h0 hr
  · intro tr d0 h0 h d hr
    exact readsWhole_of_run (Driver.policy_lawful .plain) h0 hr
  · intro P hP tr d0 h0 h d hr
    rcases hP with rfl | rfl
    · exact readsWhole_of_run RadioDriver.policy_lawful h0 hr
    · exact readsWhole_of_run RadioDriver.asyncPolicy_lawful h0 hr

/-- A peer that sends nothing behind its greeting, over a transport that refuses READY. -/
def deafPeer : Flaky := ⟨⟨[.data 0xFF (Peer.subGreeting.drop 1)]⟩, [none, some ⟨7, 0⟩]⟩

/-- The driver that this peer talks to, with its greeting written. -/
def deafPeerDriver : Driver BVec 2 8 32 Flaky :=
  ⟨{ Connection.new with ourGreetingSent := true }, { deafPeer with answers := [some ⟨7, 0⟩] },
    List.Vector.replicate 512 0, 0⟩

/-- After READY was refused, the greeting stays in the buffer and every poll rejects it: the drain progresses, by its error. -/
theorem drains_progress_iff_deaf_peer :
    ∃ h d, DriverRun Driver.policy ⟨.w64, false⟩ deafPeerDriver h d ∧ h.length = 3 ∧ d.rxLen = 64 ∧
      Disciplined Driver.policy ⟨.w64, false⟩ d := by
  have hrun : DriverRun Driver.policy ⟨.w64, false⟩ deafPeerDriver _ _ := Run.runs_exec _ [.poll, .poll, .poll]
  refine ⟨_, _, hrun, by decide +kernel, by decide +kernel, ?_⟩
  exact (drains_progress_iff BVec Flaky ⟨.w64, false⟩ 2 8 32 (fun _ _ => true) deafPeer).1 _ _ rfl _ _ hrun
    (calm_of_w64 (by decide) _)

/-- A peer whose READY has metadata that overruns. -/
def overrunPeer : Slices := ⟨[.data 0xFF (Peer.subGreeting.drop 1), .data 0x04 (12 :: overrunBody)]⟩

/-- The driver that this peer talks to, with its greeting written. -/
def overrunPeerDriver : Driver BVec 2 8 32 Slices :=
  ⟨{ Connection.new with ourGreetingSent := true }, overrunPeer, List.Vector.replicate 512 0, 0⟩

/-- Its first poll, on a 32-bit target, which answers the greeting with READY. -/
def overrunRun := Run.exec (step Driver.policy ⟨.w32, false⟩) halts overrunPeerDriver [.poll]

/-- A driver that has read READY into its empty buffer. -/
def withReady (d : Driver BVec 2 8 32 Slices) : Driver BVec 2 8 32 Slices :=
  ⟨d.conn, (Transport.read d.transport 512).1,
    ⟨[0x04, 12] ++ overrunBody ++ List.replicate 498 0, by rw [List.length_append, List.length_replicate]; rfl⟩, 14⟩

theorem entry_withReady {d : Driver BVec 2 8 32 Slices} (h0 : d.rxLen = 0)
    (h : (Transport.read d.transport 512).2 = .ok ([0x04, 12] ++ overrunBody)) : d.Entry (withReady d) :=
  .filled h0 (Prod.ext rfl h) (by decide) rfl rfl (List.take_left' rfl)

/-- On a 32-bit target the drain of the second poll panics: it neither returns an error nor leaves less. -/
theorem drain_of_overrun_panics :
    ¬∀ tr d0, (Driver.new overrunPeer : List IoEvent × Res ConnError (Driver BVec 2 8 32 Slices)) = (tr, .ok d0) →
      ∀ h d, DriverRun Driver.policy ⟨.w32, false⟩ d0 h d → ∀ d', d.Entry d' → Progresses Driver.policy ⟨.w32, false⟩ d' := by
  intro hall
  have hrun : DriverRun Driver.policy ⟨.w32, false⟩ overrunPeerDriver overrunRun.1 overrunRun.2 := Run.runs_exec _ _
  have hentry : overrunRun.2.Entry (withReady overrunRun.2) := entry_withReady (by decide +kernel) (by decide +kernel)
  have hpanic : (drainBuffer Driver.policy ⟨.w32, false⟩ (withReady overrunRun.2)).fault = some .panic := by decide +kernel
  have hends := (hall _ _ rfl _ _ hrun _ hentry).ends
  rw [hpanic] at hends
  rcases hends with ⟨e, he⟩ | ⟨hnone, _⟩
  · cases he
  · cases hnone

end Mzmq
