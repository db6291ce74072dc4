import Mzmq.Lemmas.Heard
import Mzmq.Theorems.ExactlyOnce

/-!
# Every PING is answered

The slot of the pending PONG holds one. It is enough: a feed handles one frame, and a driver writes the PONG behind each of
its feeds, also when more frames are in the buffer. So the PONGs written are those that are due (`Answering`), in every run in
which the transport takes all that is written.
-/

namespace Mzmq

open Checked Consumer Conn

variable {τ : Type} {cap : Nat} {R : Role τ} {check : List UInt8 → List UInt8 → Bool} {tgt : Target} {m : Mechanism}

/-! ## Traces -/

theorem pongsIn_append (x y : List IoEvent) : pongsIn (x ++ y) = pongsIn x ++ pongsIn y := by
  simp only [pongsIn, sentIn_append, List.filterMap_append]

theorem pongsIn_mono {x y : List IoEvent} (h : x <+: y) : pongsIn x <+: pongsIn y := by
  obtain ⟨z, rfl⟩ := h
  rw [pongsIn_append]
  exact List.prefix_append _ _

/-- An idle event consumes nothing and writes no PONG. -/
theorem idle_silent {e : IoEvent} (h : Idle e) : consumedBytes [e] = [] ∧ pongsIn [e] = [] := by
  cases e with
  | consumed bs => exact h.elim
  | sent s => cases s <;> first | exact ⟨rfl, rfl⟩ | exact h.elim
  | _ => exact ⟨rfl, rfl⟩

/-- Every PING goes on being answered when it is so at every moment of what follows. -/
theorem Answering.append {tr x : List IoEvent} (h : Answering R check tgt cap m tr)
    (hfinal : Due R check tgt cap m (consumedBytes (tr ++ x)) (pongsIn (tr ++ x)))
    (hbefore : ∀ p bs q, x = p ++ .consumed bs :: q → p = [] ∧ OneFrame R check tgt cap m (consumedBytes tr) bs)
    (honly : ∀ p, p <+: x → p = [] ∨ consumedBytes p = consumedBytes x) : Answering R check tgt cap m (tr ++ x) where
  final := hfinal
  before := by
    intro p bs q heq
    rcases List.append_eq_append_iff.mp heq with ⟨y, rfl, hy⟩ | ⟨y, rfl, hy⟩
    · obtain ⟨rfl, hone⟩ := hbefore y bs q hy
      rw [List.append_nil]
      exact ⟨h.final, hone⟩
    · cases y with
      | nil =>
        rw [List.append_nil] at h hbefore
        exact ⟨h.final, (hbefore [] bs q hy.symm).2⟩
      | cons e y =>
        cases hy
        exact h.before p bs y rfl
  only := by
    intro p hp
    rcases List.prefix_or_prefix_of_prefix hp (List.prefix_append tr x) with hp' | ⟨y, rfl⟩
    · exact h.only p hp'
    · have hy : y <+: x := (List.prefix_append_right_inj tr).mp hp
      rcases honly y hy with rfl | hc
      · rw [List.append_nil]
        exact ⟨_, h.final, List.prefix_refl _⟩
      · refine ⟨_, ?_, pongsIn_mono hp⟩
        rw [consumedBytes_append, hc, ← consumedBytes_append]
        exact hfinal

/-! ## Acts -/

/-- A trace in which every PING is answered, and the connection that has heard what it consumed. -/
structure Follows (R : Role τ) (check : List UInt8 → List UInt8 → Bool) (tgt : Target) (m : Mechanism) (tr : List IoEvent)
    (c : Conn τ cap) : Prop where
  answering : Answering R check tgt cap m tr
  heard : ∃ fs, Heard R check tgt m (consumedBytes tr) fs c ∧ pongsIn tr = pongsFor c.peerVersionMinor fs

/-- A connection that has just written its greeting. -/
theorem follows_nil {c : Conn τ cap} (h : Heard R check tgt m [] [] c) : Follows R check tgt m [] c where
  answering := by
    have hdue : Due R check tgt cap m [] [] := by
      rw [← pongsFor_nil c.peerVersionMinor]
      exact h.due
    refine ⟨hdue, ?_, ?_⟩
    · intro p bs q heq
      cases p <;> cases heq
    · intro p hp
      rw [List.prefix_nil.mp hp]
      exact ⟨[], hdue, List.prefix_refl _⟩
  heard := ⟨[], h, (pongsFor_nil _).symm⟩

/-- A feed and its reply. -/
theorem Follows.round (L : R.Lawful) (hadd : R.addName ≠ pingName) (hremove : R.removeName ≠ pingName) {tr : List IoEvent}
    {c c1 c2 : Conn τ cap} (k : Follows R check tgt m tr c) (q : c.Quiet) {input : List UInt8} {n : Nat} {sent : List Sent}
    (hf : c.feed R tgt input = (c1, .ok n)) (hans : Answered c.state c1) (hreply : reply R c c1 = ⟨c2, sent, none⟩) :
    Follows R check tgt m (tr ++ .consumed (input.take n) :: sent.map .sent) c2 := by
  obtain ⟨fs, h, hpongs⟩ := k.heard
  have hears := h.feed L hadd hremove q input
  rw [hf] at hears
  obtain ⟨gs, hlen, h1, howed, hkeep⟩ := hears
  obtain ⟨hsent, ready, welcome, pong, hc2⟩ := reply_sends L.fits hans
  rw [hreply] at hsent hc2
  simp only at hsent hc2 h1 howed hkeep
  have hx : consumedBytes (.consumed (input.take n) :: sent.map .sent) = input.take n := by
    show input.take n ++ consumedBytes (sent.map .sent) = input.take n
    rw [consumedBytes_sent, List.append_nil]
  have hnew : pongsIn (.consumed (input.take n) :: sent.map .sent) = c1.owed := by
    show (sentIn (sent.map .sent)).filterMap Sent.asPong = c1.owed
    rw [sentIn_sent, hsent]
  have heard : ∃ fs, Heard R check tgt m (consumedBytes (tr ++ .consumed (input.take n) :: sent.map .sent)) fs c2 ∧
      pongsIn (tr ++ .consumed (input.take n) :: sent.map .sent) = pongsFor c2.peerVersionMinor fs := by
    have hminor : c2.peerVersionMinor = c1.peerVersionMinor := by rw [hc2]
    rw [consumedBytes_append, hx, pongsIn_append, hnew, hpongs, howed, hminor]
    refine ⟨fs ++ gs, ?_, ?_⟩
    · rw [hc2]
      exact h1.sends ready welcome pong
    · rcases hkeep with ⟨_, hsame⟩ | hnil
      · rw [pongsFor_append, hsame]
      · obtain ⟨rfl, rfl⟩ := List.append_eq_nil_iff.mp hnil
        rw [List.append_nil, pongsFor_nil, pongsFor_nil, List.append_nil]
  refine ⟨k.answering.append ?_ ?_ ?_, heard⟩
  · obtain ⟨fs', h', hpongs'⟩ := heard
    rw [hpongs']
    exact h'.due
  · intro p bs' rest heq
    cases p with
    | nil =>
      cases heq
      exact ⟨rfl, h.oneFrame h1 hlen hkeep⟩
    | cons e p =>
      obtain ⟨_, heq⟩ := List.cons.inj heq
      have hmem : .consumed bs' ∈ sent.map IoEvent.sent := by
        rw [heq]
        exact List.mem_append_right _ List.mem_cons_self
      simp at hmem
  · intro p hp
    cases p with
    | nil => exact .inl rfl
    | cons e p =>
      obtain ⟨rfl, y, hy⟩ := List.cons_prefix_cons.mp hp
      have hsplit : consumedBytes p ++ consumedBytes y = [] := by rw [← consumedBytes_append, hy, consumedBytes_sent]
      refine .inr ?_
      rw [hx]
      show input.take n ++ consumedBytes p = input.take n
      rw [(List.append_eq_nil_iff.mp hsplit).1, List.append_nil]

/-- Every act. -/
theorem Follows.act (L : R.Lawful) (hadd : R.addName ≠ pingName) (hremove : R.removeName ≠ pingName) {tr x : List IoEvent}
    {c c' : Conn τ cap} (k : Follows R check tgt m tr c) (h : Act R tgt c x c') : Follows R check tgt m (tr ++ x) c' := by
  cases h with
  | @idle e he =>
    obtain ⟨hc, hp⟩ := idle_silent he
    obtain ⟨fs, h, hpongs⟩ := k.heard
    have hconsumed : consumedBytes (tr ++ [e]) = consumedBytes tr := by rw [consumedBytes_append, hc, List.append_nil]
    have hwritten : pongsIn (tr ++ [e]) = pongsIn tr := by rw [pongsIn_append, hp, List.append_nil]
    refine ⟨k.answering.append ?_ ?_ ?_, fs, ?_, ?_⟩
    · rw [hconsumed, hwritten]
      exact k.answering.final
    · intro p bs q heq
      rcases List.append_eq_singleton_iff.mp heq.symm with ⟨_, hq⟩ | ⟨_, hq⟩
      · cases hq
        exact he.elim
      · cases hq
    · intro p hp
      cases p with
      | nil => exact .inl rfl
      | cons e' p =>
        obtain ⟨rfl, hnil⟩ := List.cons_prefix_cons.mp hp
        rw [List.prefix_nil.mp hnil]
        exact .inr rfl
    · rw [hconsumed]
      exact h
    · rw [hwritten]
      exact hpongs
  | round q hf hans hreply => exact k.round L hadd hremove q hf hans hreply
  | @reject _ input f q hf hab =>
    obtain ⟨fs, h, hpongs⟩ := k.heard
    have hears := h.feed L hadd hremove q input
    rw [hf] at hears
    rw [List.append_nil]
    rcases hears with hab' | ⟨h', hminor⟩
    · rw [hab] at hab'
      cases hab'
    · exact ⟨k.answering, fs, h', by rw [hpongs, hminor]⟩

/-- Acts one after the other. -/
theorem Follows.acts (L : R.Lawful) (hadd : R.addName ≠ pingName) (hremove : R.removeName ≠ pingName) {tr : List IoEvent}
    {c c' : Conn τ cap} (k : Follows R check tgt m [] c) (h : Acts R tgt c tr c') : Follows R check tgt m tr c' := by
  induction h with
  | nil => exact k
  | snoc _ ha ih => exact ih.act L hadd hremove ha

/-! ## Runs -/

/-- A driver whose transport takes every write answers every PING. -/
theorem Adapter.answering_of_run {T : Type} [Transport T] {P : Policy τ} (L : P.Lawful m)
    (hadd : P.role.addName ≠ pingName) (hremove : P.role.removeName ≠ pingName) {auth : Auth} {t : T} {tr : List IoEvent}
    {a0 a : Adapter τ cap T} (h0 : start (Conn.init R m auth) t = (tr, .ok a0)) {h : List (Call τ cap T)}
    (hr : DriverRun P tgt a0 h a) (htakes : TakesAll (trace h)) :
    Answering P.role auth.check tgt cap m (trace h) ∧ ExactlyOnce (trace h) := by
  obtain ⟨_, hconn, _⟩ := start_spec h0
  obtain ⟨c, hacts⟩ := acts_of_run L (start_steady h0) hr htakes
  have hstart : Heard P.role auth.check tgt m [] [] a0.conn := by
    rw [hconn]
    exact .greeting rfl rfl rfl rfl ⟨Nat.zero_le _, Nat.zero_le _, .inl rfl⟩
  refine ⟨((follows_nil hstart).acts L.role hadd hremove hacts).answering, exactlyOnce_of_run L h0 hr ?_⟩
  exact fun s hs => absurd hs (htakes s)

open Adapter

/-- In every run of a driver in which the transport takes all that is written, every PING of a peer of version 3.1 is answered
by a PONG with its context, in their order and before the next frame is read, and a peer of version 3.0 gets none. -/
theorem pings_answered (V : Type → Nat → Type) [FixedVec V] (T : Type) [Transport T] (tgt : Target)
    (tableCap nameCap frameCap : Nat) (check : List UInt8 → List UInt8 → Bool) (t : T) :
    (∀ tr d0, (Driver.new t : List IoEvent × Res ConnError (Driver V tableCap nameCap frameCap T)) = (tr, .ok d0) →
      ∀ h d, DriverRun Driver.policy tgt d0 h d → TakesAll (trace h) →
        Answering (Connection.role : Role (SubTable V tableCap nameCap)) Auth.unit.check tgt frameCap .null (trace h) ∧
          ExactlyOnce (trace h)) ∧
    (∀ tr d0, (Driver.newPlain t check : List IoEvent × Res ConnError (Driver V tableCap nameCap frameCap T)) =
        (tr, .ok d0) →
      ∀ h d, DriverRun Driver.policy tgt d0 h d → TakesAll (trace h) →
        Answering (Connection.role : Role (SubTable V tableCap nameCap)) check tgt frameCap .plain (trace h) ∧
          ExactlyOnce (trace h)) ∧
    (∀ tr d0, (RadioDriver.new t : List IoEvent × Res ConnError (RadioDriver V tableCap nameCap frameCap T)) =
        (tr, .ok d0) →
      ∀ h d, (DriverRun RadioDriver.policy tgt d0 h d ∨ DriverRun RadioDriver.asyncPolicy tgt d0 h d) →
        TakesAll (trace h) →
        Answering (RadioConnection.role : Role (GroupTable V tableCap nameCap)) Auth.unit.check tgt frameCap .null (trace h) ∧
          ExactlyOnce (trace h)) := by
  have hsub : Connection.subscribeName ≠ pingName ∧ Connection.cancelName ≠ pingName := by decide
  have hjoin : RadioConnection.joinName ≠ pingName ∧ RadioConnection.leaveName ≠ pingName := by decide
  refine ⟨?_, ?_, ?_⟩
  · intro tr d0 h0 h d hr htakes
    exact answering_of_run (Driver.policy_lawful .null) hsub.1 hsub.2 h0 hr htakes
  · intro tr d0 h0 h d hr htakes
    exact answering_of_run (Driver.policy_lawful .plain) hsub.1 hsub.2 h0 hr htakes
  · intro tr d0 h0 h d hr htakes
    rcases hr with hr | hr
    · exact answering_of_run RadioDriver.policy_lawful hjoin.1 hjoin.2 h0 hr htakes
    · exact answering_of_run RadioDriver.asyncPolicy_lawful hjoin.1 hjoin.2 h0 hr htakes

/-- A SUB peer of version 3.1 that sends all of its handshake and two PINGs at once, the first with a context of 17 bytes and
the second with half a TTL. -/
def pingingPeer : Slices :=
  ⟨[.data 0xFF ((Peer.subGreeting ++ Peer.subReady ++ Peer.commandFrame pingName ([0, 9] ++ List.replicate 17 0x41) ++
    Peer.commandFrame pingName [0]).drop 1)]⟩

/-- The driver that this peer talks to, with its greeting written. -/
def pingingPeerDriver : Driver BVec 2 8 32 Slices :=
  ⟨{ Connection.new with ourGreetingSent := true }, pingingPeer, List.Vector.replicate 512 0, 0⟩

/-- Both PINGs are answered, in one drain. -/
theorem pings_answered_at_once :
    ∃ h d, DriverRun Driver.policy ⟨.w64, false⟩ pingingPeerDriver h d ∧
      pongsIn (trace h) = [Conn.pongFrame (List.replicate 16 0x41), Conn.pongFrame []] ∧
      Answering (Connection.role : Role (SubTable BVec 2 8)) Auth.unit.check ⟨.w64, false⟩ 32 .null (trace h) := by
  have hrun : DriverRun Driver.policy ⟨.w64, false⟩ pingingPeerDriver _ _ := Run.runs_exec _ [.poll, .poll]
  refine ⟨_, _, hrun, by decide +kernel, ?_⟩
  exact ((pings_answered BVec Slices ⟨.w64, false⟩ 2 8 32 (fun _ _ => true) pingingPeer).1 _ _ rfl _ _ hrun
    (takesAll_of_all (by decide +kernel))).1

end Mzmq
