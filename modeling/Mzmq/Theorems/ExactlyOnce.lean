import Mzmq.Lemmas.Driver
import Mzmq.Peer

/-!
# Exactly-once delivery

A drain that returns before its compaction leaves bytes in the buffer that the connection has consumed. Where that is a
refused WELCOME or a failed feed, the connection refuses every later byte; where it is a refused READY or PONG, the next poll
feeds the bytes again. As long as no READY and no PONG is refused, every byte is consumed once and in order.
-/

namespace Mzmq

open Checked Consumer

/-! ## Traces -/

theorem consumedBytes_mono {x y : List IoEvent} (h : x <+: y) : consumedBytes x <+: consumedBytes y := by
  obtain ⟨z, rfl⟩ := h
  rw [consumedBytes_append]
  exact List.prefix_append _ _

/-- Delivery goes on being exactly-once when it is so at every moment of what follows. -/
theorem ExactlyOnce.append {tr x : List IoEvent} (h : ExactlyOnce tr)
    (hx : ∀ p, p <+: x → consumedBytes (tr ++ p) <+: receivedBytes (tr ++ p)) : ExactlyOnce (tr ++ x) := by
  intro p hp
  rcases List.prefix_or_prefix_of_prefix hp (List.prefix_append tr x) with h' | ⟨q, rfl⟩
  · exact h p h'
  · exact hx q ((List.prefix_append_right_inj tr).mp hp)

/-- Events that receive nothing keep delivery exactly-once when what they consume was received. -/
theorem ExactlyOnce.append_consumed {tr x : List IoEvent} (h : ExactlyOnce tr)
    (hc : consumedBytes tr ++ consumedBytes x <+: receivedBytes tr) : ExactlyOnce (tr ++ x) := by
  refine h.append fun p hp => ?_
  rw [consumedBytes_append, receivedBytes_append]
  have h1 : consumedBytes tr ++ consumedBytes p <+: consumedBytes tr ++ consumedBytes x :=
    (List.prefix_append_right_inj _).mpr (consumedBytes_mono hp)
  exact (h1.trans hc).trans (List.prefix_append _ _)

/-- Events that consume nothing keep delivery exactly-once. -/
theorem ExactlyOnce.append_idle {tr x : List IoEvent} (h : ExactlyOnce tr) (hc : consumedBytes x = []) :
    ExactlyOnce (tr ++ x) := by
  refine h.append_consumed ?_
  rw [hc, List.append_nil]
  exact h tr (List.prefix_refl tr)

namespace Adapter

variable {τ T : Type} {cap : Nat} [Transport T] {P : Policy τ} {tgt : Target} {m : Mechanism}

/-- A steady driver whose buffer is what was received and not consumed, unless its connection is stuck. -/
structure Synced (m : Mechanism) (tr : List IoEvent) (a : Adapter τ cap T) : Prop where
  steady : Steady m a
  sync : a.conn.Stuck ∨ consumedBytes tr ++ a.buffered = receivedBytes tr

/-- A drain keeps delivery exactly-once. -/
theorem Synced.drain (L : P.Lawful m) {tr : List IoEvent} {a : Adapter τ cap T} (s : Synced m tr a) (h1 : ExactlyOnce tr)
    (hpos : 0 < a.rxLen) (hr : TakesReplies (drainBuffer P tgt a).out) :
    ExactlyOnce (tr ++ (drainBuffer P tgt a).out) ∧
      ((∀ f, (drainBuffer P tgt a).fault = some f → f.aborts = false) →
        Synced m (tr ++ (drainBuffer P tgt a).out) (drainBuffer P tgt a).state) := by
  have hsteady := s.steady.drain L tgt hpos
  by_cases hs : a.conn.Stuck
  · obtain ⟨e, he⟩ := drain_stuck P tgt hs hpos s.steady.fits
    obtain ⟨t, x, hf, _, _, hcons, _⟩ := a.feedFailed_spec (.err e)
    rw [he, hf] at hsteady ⊢
    exact ⟨h1.append_idle hcons, fun hl => ⟨hsteady hl, .inl hs⟩⟩
  · have q : a.conn.Quiet := s.steady.conn.resolve_right hs
    have sync : consumedBytes tr ++ a.buffered = receivedBytes tr := s.sync.resolve_left hs
    obtain ⟨k, hd, _⟩ := drain_quiet L tgt q s.steady.mechanism s.steady.fits
    -- What a quiet connection consumes is the first part of the buffer.
    have honce : ExactlyOnce (tr ++ (drainBuffer P tgt a).out) := by
      refine h1.append_consumed ?_
      rw [hd.consumed, ← sync]
      exact (List.prefix_append_right_inj _).mpr (List.take_prefix k _)
    refine ⟨honce, fun hl => ⟨hsteady hl, ?_⟩⟩
    rw [consumedBytes_append, receivedBytes_append, hd.consumed, hd.received, List.append_nil, ← sync]
    cases hd.ending with
    | done _ _ left _ _ =>
      refine .inr ?_
      rw [left, List.append_assoc, List.take_append_drop]
    | refused s' e _ event _ _ conn =>
      rcases conn with ⟨hno, _⟩ | hstuck
      · rw [hr s' ⟨e, event⟩] at hno
        cases hno
      · exact .inl hstuck
    | failed f _ _ fault _ buffer conn =>
      rcases conn with hab | hstuck | ⟨_, h0, _⟩
      · rw [hl f fault] at hab
        cases hab
      · exact .inl hstuck
      · refine .inr ?_
        rw [h0, List.take_zero, List.append_nil, buffered, buffered, buffer.1, buffer.2]

/-- Every call keeps delivery exactly-once, as long as no READY and no PONG is refused. -/
theorem Synced.step (L : P.Lawful m) {tr : List IoEvent} {a : Adapter τ cap T} (s : Synced m tr a) (h1 : ExactlyOnce tr)
    (op : Op) (hr : TakesReplies (Adapter.step P tgt a op).2.1) :
    ExactlyOnce (tr ++ (Adapter.step P tgt a op).2.1) ∧
      (halts (Adapter.step P tgt a op).2 = false → Synced m (tr ++ (Adapter.step P tgt a op).2.1) (Adapter.step P tgt a op).1) := by
  have hsteady := s.steady.step L tgt op
  cases op with
  | publish topic payload =>
    obtain ⟨t, h, _, hrec, hcons, _⟩ := a.publish_spec P tgt topic payload
    refine ⟨h1.append_idle hcons, fun hl => ⟨hsteady hl, ?_⟩⟩
    simp only [Adapter.step, h, consumedBytes_append, receivedBytes_append, hrec, hcons, List.append_nil]
    exact s.sync
  | poll =>
    simp only [Adapter.step, halts, Returned.fault] at hr hsteady ⊢
    rcases s.steady.poll_cases L tgt with ⟨hpos, hp⟩ | ⟨_, t, kind, _, hp⟩ | ⟨_, t, _, hp⟩ |
      ⟨h0, t, bs, a', _, _, hc, _, hpos, hfit, hbuf, hp⟩
    · obtain ⟨e1, e2, e3⟩ := returning_spec (drainBuffer P tgt a) established
      rw [hp, e2] at hr
      rw [hp, e1, e2, e3]
      obtain ⟨honce, hsync⟩ := s.drain L h1 hpos hr
      refine ⟨honce, fun hl => hsync ?_⟩
      intro f hf
      rw [hf] at hl
      exact hl
    · rw [hp] at hsteady ⊢
      refine ⟨h1.append_idle rfl, fun hl => ⟨hsteady hl, ?_⟩⟩
      simp only [consumedBytes_append, receivedBytes_append]
      rw [show consumedBytes [.readFailed kind] = [] from rfl, show receivedBytes [.readFailed kind] = [] from rfl,
        List.append_nil, List.append_nil]
      exact s.sync
    · rw [hp] at hsteady ⊢
      refine ⟨h1.append_idle rfl, fun hl => ⟨hsteady hl, ?_⟩⟩
      simp only [consumedBytes_append, receivedBytes_append]
      rw [show consumedBytes [.received []] = [] from rfl, show receivedBytes [.received []] = [] from rfl,
        List.append_nil, List.append_nil]
      exact s.sync
    · have hcons : consumedBytes [.received bs] = [] := rfl
      have hrec : receivedBytes [.received bs] = bs := List.append_nil bs
      have s' : Synced m (tr ++ [.received bs]) a' := by
        refine ⟨⟨by rw [hc]; exact s.steady.conn, by rw [hc]; exact s.steady.mechanism, hfit⟩, ?_⟩
        rcases s.sync with hs | hs
        · exact .inl (by rw [hc]; exact hs)
        · refine .inr ?_
          have hnil : a.buffered = [] := by
            rw [buffered, h0, List.take_zero]
          rw [hnil, List.append_nil] at hs
          rw [consumedBytes_append, receivedBytes_append, hcons, hrec, List.append_nil, hbuf, hs]
      rw [Outcome.andThen_none rfl] at hp
      obtain ⟨e1, e2, e3⟩ := returning_spec (⟨(drainBuffer P tgt a').state,
        [.received bs] ++ (drainBuffer P tgt a').out, (drainBuffer P tgt a').fault⟩ : Outcome _ _ _) established
      rw [hp, e2] at hr
      rw [hp, e1, e2, e3, ← List.append_assoc]
      obtain ⟨honce, hsync⟩ := s'.drain L (h1.append_idle hcons) hpos hr.append.2
      refine ⟨honce, fun hl => hsync ?_⟩
      intro f hf
      rw [hf] at hl
      exact hl

/-- Delivery is exactly-once in every run in which no READY and no PONG is refused. -/
theorem exactlyOnce_of_run (L : P.Lawful m) {R : Role τ} {auth : Auth} {t : T} {tr : List IoEvent} {a0 a : Adapter τ cap T}
    (h0 : start (Conn.init R m auth) t = (tr, .ok a0)) {h : List (Call τ cap T)} (hr : DriverRun P tgt a0 h a)
    (htakes : TakesReplies (trace h)) : ExactlyOnce (trace h) := by
  have hinv : TakesReplies (trace h) → ExactlyOnce (trace h) ∧
      ((∀ ev ∈ h, halts ev.res = false) → Synced m (trace h) a) := by
    refine hr.invariant (fun h a => TakesReplies (trace h) → ExactlyOnce (trace h) ∧
      ((∀ ev ∈ h, halts ev.res = false) → Synced m (trace h) a)) ?_ ?_
    · intro _
      obtain ⟨_, _, _, _, hlen, _⟩ := start_spec h0
      refine ⟨?_, fun _ => ⟨start_steady h0, .inr ?_⟩⟩
      · intro p hp
        rw [trace_nil, List.prefix_nil] at hp
        rw [hp]
        exact List.prefix_refl _
      · rw [buffered, hlen, List.take_zero, List.append_nil]
        rfl
    · intro h a op hlive ih htakes
      rw [trace_snoc] at htakes ⊢
      obtain ⟨h1, hs⟩ := ih htakes.append.1
      obtain ⟨honce, hsync⟩ := (hs hlive).step L h1 op htakes.append.2
      refine ⟨honce, fun hl => hsync ?_⟩
      exact hl _ (List.mem_append_right _ (List.mem_singleton_self _))
  exact (hinv htakes).1

end Adapter

open Adapter

/-- In every run of a driver in which the transport refuses no READY and no PONG, every received byte is consumed once and in
order. -/
theorem exactly_once_of_replies_taken (V : Type → Nat → Type) [FixedVec V] (T : Type) [Transport T] (tgt : Target)
    (tableCap nameCap frameCap : Nat) (check : List UInt8 → List UInt8 → Bool) (t : T) :
    (∀ tr d0, (Driver.new t : List IoEvent × Res ConnError (Driver V tableCap nameCap frameCap T)) = (tr, .ok d0) →
      ∀ h d, DriverRun Driver.policy tgt d0 h d → TakesReplies (trace h) → ExactlyOnce (trace h)) ∧
    (∀ tr d0, (Driver.newPlain t check : List IoEvent × Res ConnError (Driver V tableCap nameCap frameCap T)) =
        (tr, .ok d0) →
      ∀ h d, DriverRun Driver.policy tgt d0 h d → TakesReplies (trace h) → ExactlyOnce (trace h)) ∧
    (∀ tr d0, (RadioDriver.new t : List IoEvent × Res ConnError (RadioDriver V tableCap nameCap frameCap T)) =
        (tr, .ok d0) →
      ∀ h d, (DriverRun RadioDriver.policy tgt d0 h d ∨ DriverRun RadioDriver.asyncPolicy tgt d0 h d) →
        TakesReplies (trace h) → ExactlyOnce (trace h)) := by
  refine ⟨?_, ?_, ?_⟩
  · intro tr d0 h0 h d hr htakes
    exact exactlyOnce_of_run (Driver.policy_lawful .null) h0 hr htakes
  · intro tr d0 h0 h d hr htakes
    exact exactlyOnce_of_run (Driver.policy_lawful .plain) h0 hr htakes
  · intro tr d0 h0 h d hr htakes
    rcases hr with hr | hr
    · exact exactlyOnce_of_run RadioDriver.policy_lawful h0 hr htakes
    · exact exactlyOnce_of_run RadioDriver.asyncPolicy_lawful h0 hr htakes

/-- A driver of `c` whose greeting is written, over a scripted transport. -/
def begun (c : Connection BVec 2 8 32) (t : Flaky) : Driver BVec 2 8 32 Flaky :=
  ⟨{ c with ourGreetingSent := true }, t, List.Vector.replicate 512 0, 0⟩

/-- A SUB peer whose greeting comes in two reads, and a transport that refuses READY. -/
def refusingReady : Flaky :=
  ⟨⟨[.data 0xFF (Peer.subGreeting.drop 1 |>.take 62), .data 0 []]⟩, [none, some ⟨7, 0⟩]⟩

/-- The third poll consumes the last byte of the greeting again. -/
theorem refused_ready_consumed_twice :
    ¬∀ tr d0, (Driver.new refusingReady : List IoEvent × Res ConnError (Driver BVec 2 8 32 Flaky)) = (tr, .ok d0) →
      ∀ h d, DriverRun Driver.policy ⟨.w64, false⟩ d0 h d → ExactlyOnce (trace h) := by
  intro hall
  have hrun : DriverRun Driver.policy ⟨.w64, false⟩ (begun Connection.new { refusingReady with answers := [some ⟨7, 0⟩] }) _ _ :=
    Run.runs_exec _ [.poll, .poll, .poll]
  have := hall _ _ rfl _ _ hrun _ (List.prefix_refl _)
  exact absurd this (by decide +kernel)

/-- A PLAIN client, and a transport that refuses WELCOME. -/
def refusingWelcome : Flaky :=
  ⟨⟨[.data 0xFF (Peer.plainSubGreeting.drop 1), .data 0x04 (Peer.plainHello [0x61] [0x62]).tail]⟩, [none, some ⟨7, 0⟩]⟩

/-- Polled again after the refused WELCOME, the driver consumes no byte twice. -/
theorem exactly_once_of_replies_taken_refused_welcome :
    ∃ h d, DriverRun Driver.policy ⟨.w64, false⟩
        (begun (Connection.newPlain fun _ _ => true) { refusingWelcome with answers := [some ⟨7, 0⟩] }) h d ∧
      h.length = 3 ∧ RefusedIn (trace h) (.welcome welcomeFrame) ∧ ExactlyOnce (trace h) := by
  have hrun : DriverRun Driver.policy ⟨.w64, false⟩
      (begun (Connection.newPlain fun _ _ => true) { refusingWelcome with answers := [some ⟨7, 0⟩] }) _ _ :=
    Run.runs_exec _ [.poll, .poll, .poll]
  refine ⟨_, _, hrun, by decide +kernel, ⟨⟨7, 0⟩, by decide +kernel⟩, ?_⟩
  refine (exactly_once_of_replies_taken BVec Flaky ⟨.w64, false⟩ 2 8 32 (fun _ _ => true) refusingWelcome).2.1
    _ _ rfl _ _ hrun ?_
  exact takesReplies_of_all (by decide +kernel)

end Mzmq
