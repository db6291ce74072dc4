import Mzmq.Lemmas.Session
import Mzmq.Lemmas.Roles
import Mzmq.Peer

/-!
# Chunking independence

A session reports the same however the stream of the peer is cut into chunks.
-/

namespace Mzmq

open Checked Consumer

/-- Whatever its two ways of cutting a stream, a session that starts from `c` reports the same, and no loop of the model
runs out of fuel on the way. -/
def Conn.ChunkingIndependent {τ : Type} {cap : Nat} (R : Role τ) (tgt : Target) (c : Conn τ cap) : Prop :=
  ∀ cs cs' : List (List UInt8), cs.flatten = cs'.flatten →
    Conn.report ((Conn.session R tgt).pumpChunks c cs) = Conn.report ((Conn.session R tgt).pumpChunks c cs') ∧
      (Conn.report ((Conn.session R tgt).pumpChunks c cs)).error ≠ some .hang

namespace Conn

variable {τ : Type} {cap : Nat} {R : Role τ} {tgt : Target}

/-- No handler runs out of fuel. -/
theorem handler_ne_hang (L : R.Lawful) {s : State} {c c' : Conn τ cap} {f : DecodedFrame} :
    handler R tgt s c f ≠ (c', .error .hang) := by
  intro h
  have hready : onReady R tgt c f ≠ (c', .error .hang) := by
    intro h
    rcases onReady_spec R tgt c f with ⟨_, _, _, he⟩ | ⟨_, _, he⟩ | ⟨flt, hlen, hp, _, he⟩
    · rw [he] at h
      cases h
    · rw [he] at h
      cases h
    · rw [he] at h
      have hb : f.body.length ≤ maxBody := hlen.trans (by decide)
      cases flt with
      | err e => cases h
      | panic => cases h
      | hang => exact L.parse_ne_hang tgt f.isCommand hb hp
  cases s with
  | plainHello =>
    rcases onHello_spec c f with ⟨_, _, _, _, he⟩ | ⟨_, _, _, _, he⟩ | ⟨_, _, he⟩ <;> rw [handler, he] at h <;> cases h
  | established =>
    obtain ⟨t, pong, he, _⟩ := onEstablished_spec R c f
    rw [handler, he] at h
    cases h
  | greeting => exact hready h
  | ready => exact hready h
  | plainReady => exact hready h
  | failed => exact hready h

/-- A byte is refused with an error or a panic, never for want of fuel. -/
theorem Quiet.push_ne_hang (L : R.Lawful) {c c' : Conn τ cap} (q : c.Quiet) {b : UInt8} {e : Fault ConnError}
    (h : push R tgt c b = (c', .fail e)) : e ≠ .hang := by
  by_cases hg : c.state = .greeting
  · have hq := q.phase
    rw [hg] at hq
    rw [push_greeting hg] at h
    unfold pushGreeting at h
    obtain ⟨buf, _, ⟨e', he, _⟩ | ⟨_, _, he⟩ | ⟨g, _, _, he⟩⟩ := feedGreeting_spec (Nat.le_of_lt hq.2.1) [b]
    · rw [he] at h
      cases h
      simp
    · rw [he] at h
      simp only [Prod.mk.injEq] at h
      split at h <;> simp at h
    · rw [he] at h
      simp only [Prod.mk.injEq] at h
      split at h <;> simp at h
  · rw [q.push_frame hg] at h
    rcases pushFrame_fail h with ⟨d, e', hp, rfl, _⟩ | ⟨d, f, hp, hh⟩
    · obtain ⟨e'', rfl, _⟩ := FrameDecoder.push_fail q.decoder hp
      simp [Fault.mapErr]
    · intro he
      subst he
      exact handler_ne_hang L hh

/-- From a quiet state, a session is independent of the chunking. -/
theorem Quiet.chunking_independent (L : R.Lawful) {c : Conn τ cap} (q : c.Quiet) : c.ChunkingIndependent R tgt := by
  intro cs cs' hcs
  have law : (session R tgt : Feeder (Conn τ cap) UInt8 Sent ConnError).Lawful (push R tgt) Quiet seen :=
    session_lawful L.fits tgt
  have h := law.pumpChunks_agrees q cs
  have h' := law.pumpChunks_agrees q cs'
  rw [← hcs] at h'
  have hagree := h.trans h'.symm
  refine ⟨?_, ?_⟩
  · have hseen := hagree.seen
    simp only [seen, Prod.mk.injEq] at hseen
    obtain ⟨h1, h2, h3⟩ := hseen
    simp only [report, peerVersion, h1, h2, h3, hagree.out, hagree.fault]
  · intro hhang
    obtain ⟨t, t', a, ht, hp⟩ := law.steps_fault q (h.fault.symm.trans hhang)
    exact ht.push_ne_hang L hp rfl

end Conn

/-- A session of a PUB or a RADIO connection, NULL or PLAIN, is independent of the chunking. -/
theorem session_chunking_independent (V : Type → Nat → Type) [FixedVec V] (tgt : Target)
    (subCap prefixCap groupCap groupLenCap frameCap : Nat)
    (check : List UInt8 → List UInt8 → Bool) (out : List UInt8) (hout : greetingLen ≤ out.length) :
    ((Connection.new : Connection V subCap prefixCap frameCap).writeGreeting out).1.ChunkingIndependent
      Connection.role tgt ∧
    ((Connection.newPlain check : Connection V subCap prefixCap frameCap).writeGreeting out).1.ChunkingIndependent
      Connection.role tgt ∧
    ((RadioConnection.new : RadioConnection V groupCap groupLenCap frameCap).writeGreeting out).1.ChunkingIndependent
      RadioConnection.role tgt ∧
    ((RadioConnection.newPlain check : RadioConnection V groupCap groupLenCap frameCap).writeGreeting
      out).1.ChunkingIndependent RadioConnection.role tgt :=
  ⟨(Conn.quiet_init Connection.role .null .unit hout).chunking_independent Connection.role_lawful,
    (Conn.quiet_init Connection.role .plain (.of check) hout).chunking_independent Connection.role_lawful,
    (Conn.quiet_init RadioConnection.role .null .unit hout).chunking_independent RadioConnection.role_lawful,
    (Conn.quiet_init RadioConnection.role .plain (.of check) hout).chunking_independent RadioConnection.role_lawful⟩

/-- A SUB peer's handshake and first subscription, in one chunk and byte by byte. -/
theorem session_chunking_independent_byte_by_byte :
    let start := ((Connection.new : Connection BVec 2 8 32).writeGreeting (List.replicate 64 0)).1
    let stream := Peer.subGreeting ++ Peer.subReady ++ Peer.subSubscribe [0x66, 0x6F]
    Conn.report ((Conn.session Connection.role ⟨.w32, false⟩).pumpChunks start [stream]) =
      Conn.report ((Conn.session Connection.role ⟨.w32, false⟩).pumpChunks start (stream.map fun b => [b])) ∧
    (Conn.report ((Conn.session Connection.role ⟨.w32, false⟩).pumpChunks start [stream])).state = .established := by
  refine ⟨?_, by decide +kernel⟩
  exact ((session_chunking_independent BVec ⟨.w32, false⟩ 2 8 2 8 32 (fun _ _ => true) (List.replicate 64 0) (by decide)).1
    _ _ (by decide)).1

end Mzmq
