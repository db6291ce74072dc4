import Mzmq.Lemmas.Run
import Mzmq.Peer

/-!
# The handshakes

When a NULL connection becomes `Established`, and what a PLAIN connection does before its peer has authenticated, in every
run of operations.
-/

namespace Mzmq

open Checked

variable {τ : Type} {cap : Nat} {R : Role τ} {tgt : Target}

/-- What is true of a run of a PLAIN connection with the authenticator `check`: nothing is open to a peer that has not sent
accepted credentials in the first frame behind its greeting; the authenticator is asked at most once; and a refusal is
final. -/
structure PlainSound (R : Role τ) (tgt : Target) (check : List UInt8 → List UInt8 → Bool)
    (h : List (Run.Event (Conn τ cap) Conn.Op Conn.OpResult)) (c : Conn τ cap) : Prop where
  gate : c.state = .plainReady ∨ c.state = .established ∨ succeeded Conn.Op.isWriteWelcome h ∨
    succeeded Conn.Op.isWriteReady h ∨ c.table ≠ R.emptyTable ∨ succeeded Conn.Op.isPublish h →
    PlainAuthenticated check tgt (consumed h)
  once : c.auth.asked.length ≤ 1
  refused_final : (∃ x, (x, false) ∈ c.auth.asked) → ∀ h' c', ConnRun R tgt c h' c' → c'.state = .failed

namespace Conn

/-! ## Transcripts that are no handshake -/

theorem acceptedGreeting_length {m : Mechanism} {g : List UInt8} (h : AcceptedGreeting m g) : g.length = greetingLen := by
  obtain ⟨buf, rfl, _⟩ := h
  exact buf.toList_length

/-- A transcript of a greeting at most is no handshake. -/
theorem not_handshake_of_short {t : List UInt8} (ht : t.length ≤ greetingLen) : ¬NullHandshake R tgt t := by
  rintro ⟨g, wire, rest, rfl, hg, f, ⟨flags, size, _, _, rfl, _⟩, _⟩
  rw [List.length_append, acceptedGreeting_length hg] at ht
  simp only [List.length_append, List.length_cons] at ht
  omega

/-- A greeting and a part of a frame are no handshake. -/
theorem not_handshake_of_unfinished {g u : List UInt8} (hg : AcceptedGreeting .null g) (hu : Unfinished tgt cap u) :
    ¬NullHandshake R tgt (g ++ u) := by
  rintro ⟨g', wire, rest, he, hg', f, hw, _⟩
  obtain ⟨_, rfl⟩ := List.append_inj he (by rw [acceptedGreeting_length hg, acceptedGreeting_length hg'])
  exact hu.not_isWire (List.prefix_append _ _) hw

/-- A NULL connection is `Established` exactly when the handshake is complete. -/
theorem established_iff (L : R.Lawful) {h : List (Run.Event (Conn τ cap) Op OpResult)} {c : Conn τ cap}
    (hr : ConnRun R tgt (new R) h c) : c.state = .established ↔
      succeeded Op.isWriteGreeting h ∧ succeeded Op.isWriteReady h ∧ NullHandshake R tgt (consumed h) := by
  obtain ⟨k, _⟩ := known_of_run L rfl hr
  have ph := k.phase
  constructor
  · intro hs
    rw [Phase, hs] at ph
    obtain ⟨h1, h2, h3⟩ := ph.1 k.mechanism
    exact ⟨k.flags.greeting.mp h1, k.flags.ready.mp h2, h3⟩
  · rintro ⟨_, _, hnh⟩
    cases hs : c.state with
    | established => rfl
    | greeting =>
      rw [Phase, hs] at ph
      exact absurd hnh (not_handshake_of_short (ph.1.short.trans ph.1.pos))
    | ready =>
      rw [Phase, hs] at ph
      obtain ⟨_, _, _, g, u, ht, hg, hu, _⟩ := ph
      rw [ht] at hnh
      exact absurd hnh (not_handshake_of_unfinished hg hu)
    | failed =>
      rw [Phase, hs] at ph
      obtain ⟨_, g, u, ht, hg, hu⟩ := ph.1 k.mechanism
      rw [ht] at hnh
      exact absurd hnh (not_handshake_of_unfinished hg hu)
    | plainHello =>
      rw [Phase, hs] at ph
      have := ph.1.symm.trans k.mechanism
      cases this
    | plainReady =>
      rw [Phase, hs] at ph
      have := ph.1.symm.trans k.mechanism
      cases this

/-- Behind the gate, the peer has authenticated. -/
theorem Known.gate {check : List UInt8 → List UInt8 → Bool} {B : FrameDecoder cap → List UInt8 → Prop}
    {h : List (Run.Event (Conn τ cap) Op OpResult)} {c : Conn τ cap} (k : Known R tgt .plain check B h c)
    (hopen : c.state = .plainReady ∨ c.state = .established ∨ succeeded Op.isWriteWelcome h ∨
      succeeded Op.isWriteReady h ∨ c.table ≠ R.emptyTable ∨ succeeded Op.isPublish h) :
    PlainAuthenticated check tgt (consumed h) := by
  have ph := k.phase
  -- A sent flag or a filled table is what the phases before the gate exclude.
  have closed : c.ourReadySent = false → c.ourWelcomeSent = false → c.table = R.emptyTable → c.state ≠ .plainReady →
      c.state ≠ .established → PlainAuthenticated check tgt (consumed h) := by
    intro hr hw ht hs1 hs2
    rcases hopen with h1 | h1 | h1 | h1 | h1 | h1
    · exact absurd h1 hs1
    · exact absurd h1 hs2
    · rw [k.flags.welcome.mpr h1] at hw
      cases hw
    · rw [k.flags.ready.mpr h1] at hr
      cases hr
    · exact absurd ht h1
    · exact k.published h1 rfl
  cases hs : c.state with
  | greeting =>
    rw [Phase, hs] at ph
    obtain ⟨_, _, hr, hw, ht, _⟩ := ph
    exact closed hr hw ht (by simp [hs]) (by simp [hs])
  | ready =>
    rw [Phase, hs] at ph
    have := ph.1.symm.trans k.mechanism
    cases this
  | plainHello =>
    rw [Phase, hs] at ph
    obtain ⟨_, hr, hw, ht, _⟩ := ph
    exact closed hr hw ht (by simp [hs]) (by simp [hs])
  | plainReady =>
    rw [Phase, hs] at ph
    exact ph.2.1
  | established =>
    rw [Phase, hs] at ph
    exact ph.2.1 k.mechanism
  | failed =>
    rw [Phase, hs] at ph
    rcases ph.2 k.mechanism with hpa | ⟨hr, hw, ht⟩
    · exact hpa
    · exact closed hr hw ht (by simp [hs]) (by simp [hs])

/-- Every run of a PLAIN connection is sound. -/
theorem plainSound (L : R.Lawful) {check : List UInt8 → List UInt8 → Bool}
    {h : List (Run.Event (Conn τ cap) Op OpResult)} {c : Conn τ cap} (hr : ConnRun R tgt (newPlain R check) h c) :
    PlainSound R tgt check h c := by
  obtain ⟨k, _⟩ := known_of_run L rfl hr
  refine ⟨k.gate, k.asked.once, ?_⟩
  intro hno h' c' hr'
  exact failed_run (k.asked.refused hno) hr'

end Conn

/-! ## The two connections -/

/-- The PLAIN gate of both connections is sound, with every authenticator, in every run and with both pointer widths. -/
theorem plain_gate_sound (V : Type → Nat → Type) [FixedVec V] (tgt : Target) (tableCap nameCap frameCap : Nat)
    (check : List UInt8 → List UInt8 → Bool) :
    (∀ h (c : Connection V tableCap nameCap frameCap), ConnRun Connection.role tgt (Connection.newPlain check) h c →
      PlainSound Connection.role tgt check h c) ∧
    ∀ h (c : RadioConnection V tableCap nameCap frameCap),
      ConnRun RadioConnection.role tgt (RadioConnection.newPlain check) h c →
      PlainSound RadioConnection.role tgt check h c := by
  constructor
  · intro h c hr
    exact Conn.plainSound Connection.role_lawful hr
  · intro h c hr
    exact Conn.plainSound RadioConnection.role_lawful hr

/-- A client with the right password gets through, and one with a wrong password never does. -/
theorem plain_gate_sound_two_clients :
    let check := fun u p => u == [0x61] && p == [0x62]
    let ops := fun password : List UInt8 => [Conn.Op.writeGreeting (List.replicate 64 0), .feed Peer.plainSubGreeting,
      .feed (Peer.plainHello [0x61] password)]
    let pub := Run.exec (Conn.apply Connection.role ⟨.w32, false⟩) Conn.OpResult.halts
      (Connection.newPlain check : Connection BVec 2 8 32) (ops [0x62])
    let radio := Run.exec (Conn.apply RadioConnection.role ⟨.w32, false⟩) Conn.OpResult.halts
      (RadioConnection.newPlain check : RadioConnection BVec 2 8 32) (ops [0x63])
    (pub.2.state = .plainReady ∧ PlainAuthenticated check ⟨.w32, false⟩ (consumed pub.1)) ∧
      ∀ h' c', ConnRun RadioConnection.role ⟨.w32, false⟩ radio.2 h' c' → c'.state = .failed := by
  intro check ops pub radio
  have hpub : pub.2.state = .plainReady := by decide +kernel
  have hradio : (([0x61], [0x63]), false) ∈ radio.2.auth.asked := by decide +kernel
  have h := plain_gate_sound BVec ⟨.w32, false⟩ 2 8 32 check
  exact ⟨⟨hpub, (h.1 pub.1 pub.2 (Run.runs_exec _ _)).gate (.inl hpub)⟩,
    (h.2 radio.1 radio.2 (Run.runs_exec _ _)).refused_final ⟨_, hradio⟩⟩

end Mzmq
