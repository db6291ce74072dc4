import Mzmq.Lemmas.Calls
import Mzmq.Connection
import Mzmq.Peer

/-!
# ERROR is sent once

A drain writes ERROR when a feed has failed and the state is `Failed`, not only when the feed led there. The bytes that the
feed failed on stay in the buffer, so that a poll of a driver whose connection has failed before feeds them again and writes
ERROR again. A run writes ERROR at most once, and nothing behind it, exactly when it makes no such poll.
-/

namespace Mzmq

open Checked Consumer

namespace Adapter

variable {τ T : Type} {cap : Nat} [Transport T] {P : Policy τ} {tgt : Target} {m : Mechanism}

/-! ## One poll -/

/-- At most one ERROR was written, and that for a connection that has failed. -/
def ErrorIfFailed (tr : List IoEvent) (c : Conn τ cap) : Prop :=
  tr.countP IoEvent.isError ≤ 1 ∧ (0 < tr.countP IoEvent.isError → c.state = .failed)

theorem NoError.ifFailed {tr : List IoEvent} {c : Conn τ cap} (h : NoError tr c) : ErrorIfFailed tr c := by
  unfold NoError at h
  rw [ErrorIfFailed, h]
  exact ⟨Nat.zero_le 1, fun h => absurd h (Nat.lt_irrefl 0)⟩

/-- A poll writes ERROR at most once, and only if the connection has failed then. -/
theorem poll_errors (P : Policy τ) (tgt : Target) (a : Adapter τ cap T) :
    ErrorIfFailed (a.poll P tgt).2.1 (a.poll P tgt).1.conn := by
  rcases a.poll_error_last P tgt with hno | ⟨hs, tr, e, htr, hno, _⟩
  · exact NoError.ifFailed hno
  · unfold NoError at hno
    rw [ErrorIfFailed, htr, List.countP_append, hno, Nat.zero_add]
    exact ⟨List.countP_le_length, fun _ => hs⟩

/-! ## Polling a driver whose connection has failed -/

/-- A connection that has failed left the bytes it failed on in the buffer. -/
def Unread (a : Adapter τ cap T) : Prop := a.conn.state = .failed → 0 < a.rxLen

/-- A drain that ends with the connection failed leaves its buffer as it was. -/
theorem Steady.drain_unread (L : P.Lawful m) (tgt : Target) {a : Adapter τ cap T} (s : Steady m a) (hpos : 0 < a.rxLen) :
    Unread (drainBuffer P tgt a).state := by
  intro hfailed
  rcases s.conn with q | hs
  · obtain ⟨k, hd, _⟩ := drain_quiet L tgt q s.mechanism s.fits
    cases hd.ending with
    | done _ quiet =>
      have hq := quiet.phase
      rw [hfailed] at hq
      exact hq.elim
    | refused _ _ _ _ buffer =>
      rw [buffer.2]
      exact hpos
    | failed _ _ _ _ _ buffer =>
      rw [buffer.2]
      exact hpos
  · obtain ⟨e, he⟩ := drain_stuck P tgt hs hpos s.fits
    obtain ⟨t, tr, hf, _⟩ := a.feedFailed_spec (.err e)
    rw [he, hf]
    exact hpos

/-- Every call leaves the bytes that the connection failed on. -/
theorem Steady.step_unread (L : P.Lawful m) (tgt : Target) {a : Adapter τ cap T} (s : Steady m a) (hu : a.Unread) (op : Op) :
    Unread (Adapter.step P tgt a op).1 := by
  cases op with
  | publish topic payload =>
    obtain ⟨t, h, _⟩ := a.publish_spec P tgt topic payload
    simp only [Adapter.step, h]
    exact hu
  | poll =>
    simp only [Adapter.step]
    rcases s.poll_cases L tgt with ⟨hpos, hp⟩ | ⟨_, t, kind, _, hp⟩ | ⟨_, t, _, hp⟩ |
      ⟨_, t, bs, a', _, _, hc, _, hpos, hfit, _, hp⟩
    · rw [hp, (returning_spec _ _).1]
      exact s.drain_unread L tgt hpos
    · rw [hp]
      exact hu
    · rw [hp]
      exact hu
    · have s' : Steady m a' := ⟨by rw [hc]; exact s.conn, by rw [hc]; exact s.mechanism, hfit⟩
      rw [hp, (returning_spec _ _).1, Outcome.andThen_none rfl]
      exact s'.drain_unread L tgt hpos

/-- A poll of a driver whose connection has failed writes ERROR. -/
theorem Steady.poll_failed (L : P.Lawful m) (tgt : Target) {a : Adapter τ cap T} (s : Steady m a) (hu : a.Unread)
    (hs : a.conn.state = .failed) : ∃ e ∈ (a.poll P tgt).2.1, e.isWrite = true := by
  have hpos := hu hs
  have hstuck : a.conn.Stuck := by
    unfold Conn.Stuck
    rw [hs]
    trivial
  rcases s.poll_cases L tgt with ⟨_, hp⟩ | ⟨h0, _⟩ | ⟨h0, _⟩ | ⟨h0, _⟩
  · obtain ⟨e, he⟩ := drain_stuck P tgt hstuck hpos s.fits
    have hout : (a.poll P tgt).2.1 = ((a.moved a.conn a.transport).write (.error Conn.errorFrame)).out := by
      rw [hp, (returning_spec _ _).2.1, he, feedFailed, if_pos ⟨rfl, hs⟩, send_one (Conn.sendError_eq a.conn)]
    rw [hout]
    rcases (a.moved a.conn a.transport).write_cases (.error Conn.errorFrame) with ⟨t, hw, _⟩ | ⟨t, w, hw, _⟩
    · rw [hw]
      exact ⟨_, List.mem_singleton_self _, rfl⟩
    · rw [hw]
      exact ⟨_, List.mem_singleton_self _, rfl⟩
  all_goals omega

/-- A publish of a connection that is not established does nothing. -/
theorem publish_refused (P : Policy τ) (tgt : Target) {a : Adapter τ cap T} (h : a.conn.state ≠ .established)
    (topic payload : List UInt8) : a.publish P tgt topic payload = (a, [], .error (.err .wrongState)) := by
  unfold Adapter.publish Conn.publishHeaders
  rw [if_pos h]

/-! ## Runs -/

/-- No call of the run polls a driver whose connection has failed. -/
def Dropped (h : List (Call τ cap T)) : Prop := ∀ ev ∈ h, ev.op = .poll → ev.pre.conn.state ≠ .failed

omit [Transport T] in
theorem Dropped.append {h h' : List (Call τ cap T)} (hd : Dropped (h ++ h')) : Dropped h ∧ Dropped h' :=
  ⟨fun ev hev => hd ev (List.mem_append_left _ hev), fun ev hev => hd ev (List.mem_append_right _ hev)⟩

/-- A driver whose connection has failed, and which is not polled, does nothing. -/
theorem silent_of_dropped {a0 a : Adapter τ cap T} (hs : a0.conn.state = .failed) {h : List (Call τ cap T)}
    (hr : DriverRun P tgt a0 h a) : Dropped h → a.conn.state = .failed ∧ trace h = [] := by
  refine hr.invariant (fun h a => Dropped h → a.conn.state = .failed ∧ trace h = []) (fun _ => ⟨hs, rfl⟩) ?_
  intro h a op _ ih hd
  obtain ⟨hs, htr⟩ := ih hd.append.1
  cases op with
  | poll => exact absurd hs (hd.append.2 _ (List.mem_singleton_self _) rfl)
  | publish topic payload =>
    have hp := publish_refused P tgt (a := a) (by simp [hs]) topic payload
    rw [trace_snoc, htr]
    simp only [step, hp]
    exact ⟨hs, rfl⟩

/-- A run that polls no driver whose connection has failed writes ERROR at most once. -/
theorem errors_of_dropped {a0 a : Adapter τ cap T} {h : List (Call τ cap T)} (hr : DriverRun P tgt a0 h a) :
    Dropped h → ErrorIfFailed (trace h) a.conn := by
  refine hr.invariant (fun h a => Dropped h → ErrorIfFailed (trace h) a.conn) (fun _ => NoError.ifFailed rfl) ?_
  intro h a op _ ih hd
  have hbefore := ih hd.append.1
  rw [trace_snoc]
  cases op with
  | poll =>
    have hs := hd.append.2 _ (List.mem_singleton_self _) rfl
    have h0 : (trace h).countP IoEvent.isError = 0 := Nat.eq_zero_of_not_pos fun hpos => hs (hbefore.2 hpos)
    have hp := a.poll_errors P tgt
    rw [ErrorIfFailed, List.countP_append, h0, Nat.zero_add]
    exact hp
  | publish topic payload =>
    obtain ⟨t, hp, _⟩ := a.publish_spec P tgt topic payload
    have h0 : (a.publish P tgt topic payload).2.1.countP IoEvent.isError = 0 := by
      rw [List.countP_eq_zero]
      intro e he
      obtain ⟨bs, rfl | ⟨w, _, rfl⟩⟩ := a.publish_pieces P tgt topic payload e he <;> exact Bool.false_ne_true
    simp only [step, hp]
    rw [ErrorIfFailed, List.countP_append, h0, Nat.add_zero]
    exact hbefore

/-- In every run of a driver, ERROR is written once and nothing behind it exactly when no poll follows the failure. -/
theorem errorOnce_iff_dropped (L : P.Lawful m) {R : Role τ} {auth : Auth} {t : T} {tr : List IoEvent} {a0 a : Adapter τ cap T}
    (h0 : start (Conn.init R m auth) t = (tr, .ok a0)) {h : List (Call τ cap T)} (hr : DriverRun P tgt a0 h a) :
    ErrorOnce h ↔ Dropped h := by
  constructor
  · rintro ⟨_, hsilent⟩ ev hev hop hs
    -- The connection failed in the call before, and the poll writes ERROR.
    obtain ⟨hres, _, h', hr', hlive⟩ := hr.event ev hev
    obtain ⟨h1, h2, rfl⟩ := List.append_of_mem hev
    obtain ⟨hbefore, _⟩ := hr.before
    have hinv : (∀ e ∈ h', halts e.res = false) → Steady m ev.pre ∧ ev.pre.Unread := by
      refine hr'.live_invariant (fun a => Steady m a ∧ a.Unread) ⟨start_steady h0, ?_⟩ ?_
      · intro hs
        obtain ⟨_, hc, _⟩ := start_spec h0
        rw [hc] at hs
        cases hs
      · intro a op ⟨s, hu⟩ hl
        exact ⟨s.step L tgt op hl, s.step_unread L tgt hu op⟩
    obtain ⟨s, hu⟩ := hinv hlive
    obtain ⟨e, he, hw⟩ := s.poll_failed L tgt hu hs
    have hmem : e ∈ trace (ev :: h2) := by
      have hres : ev.res.1 = (ev.pre.poll P tgt).2.1 := by
        rw [hres, hop]
        rfl
      rw [trace, List.flatMap_cons, hres]
      exact List.mem_append_left _ he
    rcases List.eq_nil_or_concat h1 with rfl | ⟨h3, x, rfl⟩
    · have hpre := hbefore.nil_eq
      obtain ⟨_, hc, _⟩ := start_spec h0
      rw [hpre, hc] at hs
      cases hs
    · rw [List.concat_eq_append] at hbefore hsilent
      have hpre : ev.pre = x.post := hbefore.suffix.nil_eq
      have := hsilent h3 x (ev :: h2) (by simp) (hpre ▸ hs) e hmem
      rw [hw] at this
      cases this
  · intro hd
    refine ⟨(errors_of_dropped hr hd).1, ?_⟩
    rintro h1 ev h2 rfl hs e he
    obtain ⟨_, htr⟩ := silent_of_dropped hs hr.suffix (fun ev' hev' => hd ev' (by simp [hev']))
    rw [htr] at he
    cases he

end Adapter

open Adapter

/-- In every run of a driver, ERROR is written at most once, and nothing is written once the connection has failed, exactly
when the driver is not polled once its connection has failed. -/
theorem error_once_iff_dropped (V : Type → Nat → Type) [FixedVec V] (T : Type) [Transport T] (tgt : Target)
    (tableCap nameCap frameCap : Nat) (check : List UInt8 → List UInt8 → Bool) (t : T) :
    (∀ tr d0, (Driver.new t : List IoEvent × Res ConnError (Driver V tableCap nameCap frameCap T)) = (tr, .ok d0) →
      ∀ h d, DriverRun Driver.policy tgt d0 h d → (ErrorOnce h ↔ Dropped h)) ∧
    (∀ tr d0, (Driver.newPlain t check : List IoEvent × Res ConnError (Driver V tableCap nameCap frameCap T)) =
        (tr, .ok d0) →
      ∀ h d, DriverRun Driver.policy tgt d0 h d → (ErrorOnce h ↔ Dropped h)) ∧
    (∀ tr d0, (RadioDriver.new t : List IoEvent × Res ConnError (RadioDriver V tableCap nameCap frameCap T)) =
        (tr, .ok d0) →
      ∀ h d, (DriverRun RadioDriver.policy tgt d0 h d ∨ DriverRun RadioDriver.asyncPolicy tgt d0 h d) →
        (ErrorOnce h ↔ Dropped h)) := by
  refine ⟨?_, ?_, ?_⟩
  · intro tr d0 h0 h d hr
    exact errorOnce_iff_dropped (Driver.policy_lawful .null) h0 hr
  · intro tr d0 h0 h d hr
    exact errorOnce_iff_dropped (Driver.policy_lawful .plain) h0 hr
  · intro tr d0 h0 h d hr
    rcases hr with hr | hr
    · exact errorOnce_iff_dropped RadioDriver.policy_lawful h0 hr
    · exact errorOnce_iff_dropped RadioDriver.asyncPolicy_lawful h0 hr

/-- A peer whose READY names the socket type PUB. -/
def pubPeer : Slices :=
  ⟨[.data 0xFF (Peer.subGreeting.drop 1),
    .data 0x04 (Peer.commandFrame readyName (Peer.socketTypeProperty [0x50, 0x55, 0x42])).tail]⟩

/-- The driver that this peer talks to, with its greeting written. -/
def pubPeerDriver : Driver BVec 2 8 32 Slices :=
  ⟨{ Connection.new with ourGreetingSent := true }, pubPeer, List.Vector.replicate 512 0, 0⟩

/-- The second poll finds the wrong socket type and sends ERROR, the third sends it again. -/
theorem error_sent_twice :
    ¬∀ tr d0, (Driver.new pubPeer : List IoEvent × Res ConnError (Driver BVec 2 8 32 Slices)) = (tr, .ok d0) →
      ∀ h d, DriverRun Driver.policy ⟨.w64, false⟩ d0 h d → ErrorOnce h := by
  intro hall
  have hrun : DriverRun Driver.policy ⟨.w64, false⟩ pubPeerDriver _ _ := Run.runs_exec _ [.poll, .poll, .poll]
  have hcount := (hall _ _ rfl _ _ hrun).1
  exact absurd hcount (by decide +kernel)

/-- Two polls and a publish: ERROR is sent, once. -/
theorem error_once_iff_dropped_pub_peer :
    ∃ h d, DriverRun Driver.policy ⟨.w64, false⟩ pubPeerDriver h d ∧ h.length = 3 ∧
      (trace h).countP IoEvent.isError = 1 ∧ ErrorOnce h := by
  have hrun : DriverRun Driver.policy ⟨.w64, false⟩ pubPeerDriver _ _ :=
    Run.runs_exec _ [.poll, .poll, .publish [0x66] [0x67]]
  refine ⟨_, _, hrun, by decide +kernel, by decide +kernel, ?_⟩
  refine ((error_once_iff_dropped BVec Slices ⟨.w64, false⟩ 2 8 32 (fun _ _ => true) pubPeer).1 _ _ rfl _ _ hrun).mpr ?_
  unfold Dropped
  decide +kernel

end Mzmq
