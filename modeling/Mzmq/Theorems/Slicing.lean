import Mzmq.Lemmas.Driver
import Mzmq.Peer

/-!
# Independence of the slicing

Over a transport that takes every write, a driver that polls to the end does what a session does with the whole stream
(`Conn.sessionSteps`): its buffer and what is still to be read are what the session has not seen yet. So it does not matter in
which slices the stream comes, or how many reads fail in between.
-/

namespace Mzmq

open Checked Consumer Conn

/-- The end of a driver that starts with `c`, whatever the transport that delivers the stream: every one that polls long
enough leaves a report, and it is the same. -/
def Adapter.SlicingIndependent {τ T T' : Type} {cap : Nat} [Delivers T] [Delivers T'] (P : Policy τ) (tgt : Target)
    (c : Conn τ cap) (t : T) (t' : T') : Prop :=
  ∃ r : Adapter.Report τ, (∃ n, ∀ k, n ≤ k → Adapter.finalReport P tgt k c t = some r) ∧
    (∃ n, ∀ k, n ≤ k → Adapter.finalReport P tgt k c t' = some r)

/-- In no run does a poll that returns the error of a read change the connection or what is buffered. -/
def Adapter.ReadFailuresHarmless {τ T : Type} {cap : Nat} [Transport T] (P : Policy τ) (tgt : Target)
    (a0 : Adapter τ cap T) : Prop :=
  ∀ h a, Adapter.DriverRun P tgt a0 h a → ∀ ev ∈ h, ∀ kind, .readFailed kind ∈ ev.res.1 →
    ev.post.conn = ev.pre.conn ∧ ev.post.rxLen = ev.pre.rxLen ∧ ev.post.buffered = ev.pre.buffered

namespace Adapter

section Delivering

variable {τ T : Type} {cap : Nat} [Delivers T] {P : Policy τ} {tgt : Target} {m : Mechanism}

/-- Writing does not touch what is to be read. -/
theorem Wrote.rest {t t' : T} (h : Wrote t t') :
    Delivers.rest t' = Delivers.rest t ∧ Delivers.failures t' ≤ Delivers.failures t := by
  induction h with
  | refl => exact ⟨rfl, Nat.le_refl _⟩
  | tail _ hstep ih =>
    obtain ⟨bs, rfl⟩ := hstep
    obtain ⟨h1, h2⟩ := Delivers.write_rest (T := T) _ bs
    exact ⟨h1.trans ih.1, h2.trans ih.2⟩

theorem not_refusal : ¬Refusal T := by
  rintro ⟨t, bs, e, he⟩
  rw [Delivers.write_ok] at he
  cases he

/-- What the connection of a driver will make of what is buffered and of what is still to come. -/
def future (P : Policy τ) (tgt : Target) (a : Adapter τ cap T) : Outcome (Conn τ cap) Sent ConnError :=
  sessionSteps P.role tgt a.conn (a.buffered ++ Delivers.rest a.transport)

/-- A driver stopped as the session does, or at the end of the stream. -/
def Stops (s : Outcome (Conn τ cap) Sent ConnError) (o : Outcome (Adapter τ cap T) IoEvent ConnError) : Prop :=
  o.state.conn.seen = s.state.seen ∧
    match s.fault with
    | some f => o.fault = some f ∧ sentIn o.out = s.out ++ errorSent f s.state
    | none => o.fault = some (.err (.ioError 0)) ∧ sentIn o.out = s.out

/-- The ERROR that is sent depends on the state alone. -/
theorem errorSent_congr (f : Fault ConnError) {c c' : Conn τ cap} (h : c.seen = c'.seen) : errorSent f c = errorSent f c' := by
  have hs : c.state = c'.state := congrArg Prod.fst h
  unfold errorSent
  rw [hs]
  rfl

omit [Delivers T] in
/-- What was sent before goes in front. -/
theorem Stops.prepend {s : Outcome (Conn τ cap) Sent ConnError} {o : Outcome (Adapter τ cap T) IoEvent ConnError}
    (h : Stops s o) (tr : List IoEvent) :
    Stops ⟨s.state, sentIn tr ++ s.out, s.fault⟩ ⟨o.state, tr ++ o.out, o.fault⟩ := by
  obtain ⟨h1, h2⟩ := h
  refine ⟨h1, ?_⟩
  cases hf : s.fault with
  | none =>
    rw [hf] at h2
    simp only [sentIn_append]
    exact ⟨h2.1, by rw [h2.2]⟩
  | some f =>
    rw [hf] at h2
    simp only [sentIn_append]
    exact ⟨h2.1, by rw [h2.2, List.append_assoc]⟩

/-- A drain goes on like the session, or stops like it. -/
theorem drain_future (L : P.Lawful m) (tgt : Target) {a : Adapter τ cap T} (q : a.conn.Quiet) (hm : a.conn.mechanism = m)
    (hpos : 0 < a.rxLen) (hmax : a.rxLen ≤ 512) :
    let o := drainBuffer P tgt a
    readFailedIn o.out = false ∧
      (o.fault = none ∧ o.state.conn.Quiet ∧ o.state.conn.mechanism = m ∧ o.state.rxLen < a.rxLen ∧
        Delivers.rest o.state.transport = Delivers.rest a.transport ∧
        Delivers.failures o.state.transport ≤ Delivers.failures a.transport ∧
        future P tgt a = Outcome.andThen ⟨o.state.conn, sentIn o.out, none⟩ (fun _ => future P tgt o.state) ∨
      o.fault ≠ none ∧ Stops (future P tgt a) o) := by
  obtain ⟨k, hd, hk⟩ := drain_quiet L tgt q hm hmax
  have hprog := (⟨.inl q, hm, hmax⟩ : Steady m a).progress L tgt hpos
  have hwhole : future P tgt a = (sessionSteps P.role tgt a.conn a.buffered).andThen fun c =>
      sessionSteps P.role tgt c (Delivers.rest a.transport) := steps_append _ _ _
  obtain ⟨hrest, hfail⟩ := hd.wrote.rest
  refine ⟨hd.reads, ?_⟩
  cases hd.ending with
  | done fault quiet left fits session =>
    refine .inl ⟨fault, quiet, hd.mechanism.trans hm, hprog fault, hrest, hfail, ?_⟩
    have hnext : future P tgt (drainBuffer P tgt a).state =
        (sessionSteps P.role tgt (drainBuffer P tgt a).state.conn (a.buffered.drop k)).andThen fun c =>
          sessionSteps P.role tgt c (Delivers.rest a.transport) := by
      rw [future, left, hrest]
      exact steps_append _ _ _
    rw [hwhole, session, Outcome.andThen_assoc, hnext]
    rfl
  | refused _ _ _ _ _ reason => exact absurd reason not_refusal
  | failed f c sent fault _ _ _ session seen errors =>
    refine .inr ⟨by rw [fault]; simp, ?_⟩
    rw [hwhole, session, Outcome.andThen_some rfl]
    refine ⟨seen, fault, ?_⟩
    rw [errors.resolve_right not_refusal, errorSent_congr f seen]

/-- One poll goes on like the session, or stops like it. -/
theorem poll_future (L : P.Lawful m) (tgt : Target) {a : Adapter τ cap T} (q : a.conn.Quiet) (hm : a.conn.mechanism = m)
    (hmax : a.rxLen ≤ 512) :
    let p := a.poll P tgt
    ((∀ f, p.2.2 = .error f → readFailedIn p.2.1 = true) ∧ p.1.conn.Quiet ∧ p.1.conn.mechanism = m ∧ p.1.rxLen ≤ 512 ∧
        Delivers.failures p.1.transport + 2 * (Delivers.rest p.1.transport).length + p.1.rxLen <
          Delivers.failures a.transport + 2 * (Delivers.rest a.transport).length + a.rxLen ∧
        future P tgt a = Outcome.andThen ⟨p.1.conn, sentIn p.2.1, none⟩ (fun _ => future P tgt p.1)) ∨
      ∃ f, p.2.2 = .error f ∧ readFailedIn p.2.1 = false ∧ Stops (future P tgt a) ⟨p.1, p.2.1, some f⟩ := by
  intro p
  have hp : p = a.poll P tgt := rfl
  rcases (⟨.inl q, hm, hmax⟩ : Steady m a).poll_cases L tgt with ⟨hpos, he⟩ | ⟨h0, t, kind, hr, he⟩ | ⟨h0, t, hr, he⟩ |
    ⟨h0, t, bs, a', hr, hne, hc, ht, hpos, hfit, hbuf, he⟩
  · obtain ⟨e1, e2, e3⟩ := returning_spec (drainBuffer P tgt a) established
    obtain ⟨hread, ⟨hf, hq, hm', hlt, hrest, hfail, hfut⟩ | ⟨hf, hstop⟩⟩ := drain_future L tgt q hm hpos hmax
    · refine .inl ?_
      rw [hp, he, e1, e2, e3, hf]
      refine ⟨fun _ h => (by cases h), hq, hm', by omega, ?_, hfut⟩
      rw [hrest]
      omega
    · obtain ⟨f, hf⟩ := Option.ne_none_iff_exists'.mp hf
      refine .inr ⟨f, ?_⟩
      rw [hp, he, e1, e2, e3, hf]
      refine ⟨rfl, hread, ?_⟩
      rw [← hf]
      exact hstop
  · obtain ⟨hrest, hfail⟩ := Delivers.read_error hr
    refine .inl ?_
    rw [hp, he]
    refine ⟨fun _ _ => rfl, q, hm, hmax, ?_, ?_⟩
    · simp only [moved, hrest]
      omega
    · rw [Outcome.andThen_none rfl]
      simp only [future, moved, buffered, hrest]
      rfl
  · have hrest := Delivers.read_end (by decide) hr
    refine .inr ⟨.err (.ioError 0), ?_⟩
    rw [hp, he]
    refine ⟨rfl, rfl, ?_⟩
    rw [future, buffered, h0, List.take_zero, hrest]
    exact ⟨rfl, rfl, rfl⟩
  · obtain ⟨hrest, hfail⟩ := Delivers.read_rest hr
    obtain ⟨hread, hdrain⟩ := drain_future (a := a') L tgt (by rw [hc]; exact q) (by rw [hc]; exact hm) hpos hfit
    have hstart : future P tgt a = future P tgt a' := by
      rw [future, future, hbuf, hc, ht, hrest, buffered, h0, List.take_zero, List.nil_append]
    have hlen : a'.rxLen = bs.length := by rw [← hbuf, buffered_length hfit]
    rw [Outcome.andThen_none rfl] at he
    obtain ⟨e1, e2, e3⟩ := returning_spec (⟨(drainBuffer P tgt a').state,
      [.received bs] ++ (drainBuffer P tgt a').out, (drainBuffer P tgt a').fault⟩ : Outcome _ _ _) established
    have hsent : sentIn ([.received bs] ++ (drainBuffer P tgt a').out) = sentIn (drainBuffer P tgt a').out := rfl
    rcases hdrain with ⟨hf, hq, hm', hlt, hrest', hfail', hfut⟩ | ⟨hf, hstop⟩
    · refine .inl ?_
      rw [hp, he, e1, e2, e3, hf, hsent, hstart]
      refine ⟨fun _ h => (by cases h), hq, hm', by simp only; omega, ?_, hfut⟩
      have := congrArg List.length hrest
      rw [List.length_append] at this
      simp only [hrest', ht] at hfail' ⊢
      omega
    · obtain ⟨f, hf⟩ := Option.ne_none_iff_exists'.mp hf
      refine .inr ⟨f, ?_⟩
      rw [hp, he, e1, e2, e3, hf, hstart]
      refine ⟨rfl, hread, ?_⟩
      have := hstop.prepend [.received bs]
      rw [hf] at this
      exact this

/-- Polling to the end is what the session does with the stream, when there are enough polls. -/
theorem pollUntil_stops (L : P.Lawful m) (tgt : Target) (n : Nat) : ∀ {a : Adapter τ cap T}, a.conn.Quiet → a.conn.mechanism = m →
    a.rxLen ≤ 512 → Delivers.failures a.transport + 2 * (Delivers.rest a.transport).length + a.rxLen < n →
    ∃ o, pollUntil P tgt n a = some o ∧ Stops (future P tgt a) o := by
  induction n with
  | zero =>
    intro a _ _ _ h
    omega
  | succ n ih =>
    intro a q hm hmax hn
    unfold pollUntil
    simp only
    rcases poll_future L tgt q hm hmax with ⟨hgo, hq, hm', hmax', hlt, hfut⟩ | ⟨f, hf, hread, hstop⟩
    · obtain ⟨o, ho, hstop⟩ := ih hq hm' hmax' (by omega)
      have hs := hstop.prepend (a.poll P tgt).2.1
      refine ⟨⟨o.state, (a.poll P tgt).2.1 ++ o.out, o.fault⟩, ?_, ?_⟩
      · rw [ho]
        cases hres : (a.poll P tgt).2.2 with
        | ok b => rfl
        | error f =>
          simp only [hgo f hres, if_true]
          rfl
      · rw [hfut, Outcome.andThen_none rfl]
        exact hs
    · rw [hf]
      simp only [hread, Bool.false_eq_true, if_false]
      exact ⟨_, rfl, hstop⟩

/-- What is left at the end, by the session. -/
def reportOf (g : List Sent) (s : Outcome (Conn τ cap) Sent ConnError) : Report τ where
  sent := g ++ s.out ++ match s.fault with
    | some f => errorSent f s.state
    | none => []
  state := s.state.state
  table := s.state.table
  error := s.fault.getD (.err (.ioError 0))

/-- The report of a driver is the report of the session, when there are enough polls. -/
theorem finalReport_eq (L : P.Lawful m) (tgt : Target) {R : Role τ} (auth : Auth) (t : T) :
    ∃ n, ∀ k, n ≤ k → finalReport P tgt k (Conn.init R m auth : Conn τ cap) t =
      some (reportOf (Conn.init R m auth : Conn τ cap).sendGreeting.out
        (sessionSteps P.role tgt (Conn.init R m auth : Conn τ cap).sendGreeting.state (Delivers.rest t))) := by
  have hstart : ∃ tr a, start (Conn.init R m auth : Conn τ cap) t = (tr, .ok a) := by
    obtain ⟨g, hg⟩ : ∃ g, (Conn.init R m auth : Conn τ cap).sendGreeting =
      ⟨{ Conn.init R m auth with ourGreetingSent := true }, [g], none⟩ := ⟨_, rfl⟩
    unfold start
    rw [send_one hg]
    rcases write_cases (moved (⟨Conn.init R m auth, t, List.Vector.replicate 512 0, 0⟩ : Adapter τ cap T)
      { Conn.init R m auth with ourGreetingSent := true } t) g with ⟨t', hw, _⟩ | ⟨_, _, _, _, hr, _⟩
    · simp only [hw]
      exact ⟨_, _, rfl⟩
    · exact absurd hr not_refusal
  obtain ⟨tr, a, hstart⟩ := hstart
  obtain ⟨htr, hconn, q, hm, h0, hw⟩ := start_spec hstart
  obtain ⟨hrest, hfail⟩ := hw.rest
  refine ⟨Delivers.failures a.transport + 2 * (Delivers.rest a.transport).length + a.rxLen + 1, fun k hk => ?_⟩
  obtain ⟨⟨a', tr', fa⟩, ho, hseen, hstop⟩ := pollUntil_stops L tgt k q hm (by omega) (by omega)
  have hfut : future P tgt a = sessionSteps P.role tgt (Conn.init R m auth : Conn τ cap).sendGreeting.state
      (Delivers.rest t) := by
    rw [future, buffered, h0, List.take_zero, List.nil_append, hconn, hrest]
  rw [hfut] at hseen hstop
  simp only [Conn.seen, Prod.mk.injEq] at hseen
  obtain ⟨hstate, _, htable⟩ := hseen
  unfold finalReport
  simp only [hstart, ho]
  cases hf : (sessionSteps P.role tgt (Conn.init R m auth : Conn τ cap).sendGreeting.state (Delivers.rest t)).fault with
  | none =>
    rw [hf] at hstop
    obtain ⟨h1, h2⟩ := hstop
    simp only at h1 h2
    rw [h1]
    simp only [reportOf, hf, htr, sentIn_append, sentIn_sent, h2, List.append_nil, hstate, htable, Option.getD_none]
  | some f =>
    rw [hf] at hstop
    obtain ⟨h1, h2⟩ := hstop
    simp only at h1 h2
    rw [h1]
    simp only [reportOf, hf, htr, sentIn_append, sentIn_sent, h2, List.append_assoc, hstate, htable, Option.getD_some]

end Delivering

/-- Two transports that deliver the same stream leave the same report. -/
theorem slicingIndependent {τ T T' : Type} {cap : Nat} [Delivers T] [Delivers T'] {P : Policy τ} {m : Mechanism}
    (L : P.Lawful m) (tgt : Target) (R : Role τ) (auth : Auth) {t : T} {t' : T'}
    (h : Delivers.rest t = Delivers.rest t') : SlicingIndependent P tgt (Conn.init R m auth : Conn τ cap) t t' := by
  refine ⟨_, ?_, finalReport_eq L tgt auth t'⟩
  rw [← h]
  exact finalReport_eq L tgt auth t

/-- A steady driver reads with an empty buffer, and a read that fails changes the transport alone. -/
theorem Steady.readFailed {τ T : Type} {cap : Nat} [Transport T] {P : Policy τ} {m : Mechanism} (L : P.Lawful m)
    {tgt : Target} {a : Adapter τ cap T} (s : Steady m a) (op : Op) {kind : Nat}
    (h : .readFailed kind ∈ (Adapter.step P tgt a op).2.1) : ∃ t, (Adapter.step P tgt a op).1 = a.moved a.conn t := by
  have hread := readFailedIn_of_mem h
  cases op with
  | publish topic payload =>
    obtain ⟨t, he, _⟩ := a.publish_spec P tgt topic payload
    exact ⟨t, he⟩
  | poll =>
    simp only [Adapter.step] at hread ⊢
    rcases s.poll_cases L tgt with ⟨hpos, hp⟩ | ⟨_, t, kind, _, hp⟩ | ⟨_, t, _, hp⟩ |
      ⟨_, t, bs, a', _, _, hc, _, hpos, hfit, _, hp⟩
    · obtain ⟨_, e2, _⟩ := returning_spec (drainBuffer P tgt a) established
      rw [hp, e2, s.drain_reads L tgt hpos] at hread
      cases hread
    · rw [hp]
      exact ⟨t, rfl⟩
    · rw [hp] at hread
      cases hread
    · have s' : Steady m a' := ⟨by rw [hc]; exact s.conn, by rw [hc]; exact s.mechanism, hfit⟩
      rw [Outcome.andThen_none rfl] at hp
      obtain ⟨_, e2, _⟩ := returning_spec (⟨(drainBuffer P tgt a').state,
        [.received bs] ++ (drainBuffer P tgt a').out, (drainBuffer P tgt a').fault⟩ : Outcome _ _ _) established
      rw [hp, e2, readFailedIn_append, s'.drain_reads L tgt hpos] at hread
      cases hread

/-- Failed reads are harmless in every run. -/
theorem readFailuresHarmless {τ T : Type} {cap : Nat} [Transport T] {P : Policy τ} {m : Mechanism} (L : P.Lawful m)
    (tgt : Target) {a0 : Adapter τ cap T} (s : Steady m a0) : ReadFailuresHarmless P tgt a0 := by
  intro h a hr ev hev kind hk
  obtain ⟨hres, hpost, h', hr', hlive⟩ := hr.event ev hev
  rw [hres] at hk
  obtain ⟨t, ht⟩ := (steady_of_run L s hr' hlive).readFailed L ev.op hk
  rw [hpost, ht]
  exact ⟨rfl, rfl, rfl⟩

end Adapter

open Adapter

/-- Drivers over two transports that deliver the same stream end alike; and over any transport, a read that fails changes
nothing. -/
theorem slicing_independent (V : Type → Nat → Type) [FixedVec V] (T T' U : Type) [Delivers T] [Delivers T'] [Transport U]
    (tgt : Target) (tableCap nameCap frameCap : Nat) (check : List UInt8 → List UInt8 → Bool) (t : T) (t' : T') (u : U)
    (h : Delivers.rest t = Delivers.rest t') :
    (SlicingIndependent Driver.policy tgt (Connection.new : Connection V tableCap nameCap frameCap) t t' ∧
      SlicingIndependent Driver.policy tgt (Connection.newPlain check : Connection V tableCap nameCap frameCap) t t' ∧
      SlicingIndependent RadioDriver.policy tgt (RadioConnection.new : RadioConnection V tableCap nameCap frameCap) t t' ∧
      SlicingIndependent RadioDriver.asyncPolicy tgt (RadioConnection.new : RadioConnection V tableCap nameCap frameCap)
        t t') ∧
    (∀ tr d, (Driver.new u : List IoEvent × Res ConnError (Driver V tableCap nameCap frameCap U)) = (tr, .ok d) →
      ReadFailuresHarmless Driver.policy tgt d) ∧
    (∀ tr d, (Driver.newPlain u check : List IoEvent × Res ConnError (Driver V tableCap nameCap frameCap U)) =
      (tr, .ok d) → ReadFailuresHarmless Driver.policy tgt d) ∧
    ∀ tr d, (RadioDriver.new u : List IoEvent × Res ConnError (RadioDriver V tableCap nameCap frameCap U)) = (tr, .ok d) →
      ReadFailuresHarmless RadioDriver.policy tgt d ∧ ReadFailuresHarmless RadioDriver.asyncPolicy tgt d := by
  refine ⟨⟨?_, ?_, ?_, ?_⟩, ?_, ?_, ?_⟩
  · exact slicingIndependent (Driver.policy_lawful .null) tgt _ .unit h
  · exact slicingIndependent (Driver.policy_lawful .plain) tgt _ (.of check) h
  · exact slicingIndependent RadioDriver.policy_lawful tgt _ .unit h
  · exact slicingIndependent RadioDriver.asyncPolicy_lawful tgt _ .unit h
  · intro tr d hd
    exact readFailuresHarmless (Driver.policy_lawful .null) tgt (start_steady hd)
  · intro tr d hd
    exact readFailuresHarmless (Driver.policy_lawful .plain) tgt (start_steady hd)
  · intro tr d hd
    exact ⟨readFailuresHarmless RadioDriver.policy_lawful tgt (start_steady hd),
      readFailuresHarmless RadioDriver.asyncPolicy_lawful tgt (start_steady hd)⟩

/-- The stream of a SUB peer in one slice, and in three with failed reads in between. -/
def oneSlice : Slices := ⟨[.data 0xFF ((Peer.subGreeting ++ Peer.subReady ++ Peer.subSubscribe [0x66]).drop 1)]⟩
def threeSlices : Slices :=
  ⟨[.fail 4, .data 0xFF (Peer.subGreeting.drop 1 |>.take 20), .fail 9,
    .data ((Peer.subGreeting ++ Peer.subReady).getD 21 0) ((Peer.subGreeting ++ Peer.subReady).drop 22), .fail 4,
    .data 0x04 (Peer.subSubscribe [0x66]).tail]⟩

theorem slicing_independent_three_slices :
    ∃ r : Adapter.Report (SubTable BVec 2 8),
      (∃ n, ∀ k, n ≤ k → finalReport Driver.policy ⟨.w32, true⟩ k (Connection.new : Connection BVec 2 8 32) oneSlice =
        some r) ∧
      (∃ n, ∀ k, n ≤ k → finalReport Driver.policy ⟨.w32, true⟩ k (Connection.new : Connection BVec 2 8 32) threeSlices =
        some r) :=
  (slicing_independent BVec Slices Slices Slices ⟨.w32, true⟩ 2 8 32 (fun _ _ => true) oneSlice threeSlices oneSlice
    (by decide +kernel)).1.1

end Mzmq
