import Mzmq.Delivery
import Mzmq.Filter

/-!
# Keep-alive

What a peer that sends PING may expect: the bytes that a driver has consumed are a greeting, the frames of the handshake and
the frames behind it (`Spoke`), and every PING among the last, from a peer of version 3.1 or later, is answered by the PONG
that echoes its context (`Echoes`), before the next byte is consumed (`Answering`).
-/

namespace Mzmq

open Checked

/-- The context of a PING: what stands behind the two bytes of its TTL. -/
def pingContext (f : DecodedFrame) : Option (List UInt8) :=
  if f.isCommand = true ∧ (commandBody pingName []).isPrefixOf f.body = true then some ((f.body.drop 5).drop 2) else none

/-- The PINGs among some frames, by their contexts. -/
def pings (fs : List DecodedFrame) : List (List UInt8) := fs.filterMap pingContext

/-- `pong` is read back as a PONG with the first sixteen bytes of `ctx`, by every decoder that it fits. -/
def Echoes (ctx pong : List UInt8) : Prop :=
  ∀ (tgt : Target) (cap : Nat), 5 + min 16 ctx.length ≤ cap → ∃ d, (FrameDecoder.new : FrameDecoder cap).feed tgt pong =
    (d, .ok (pong.length, some ⟨false, true, 4 :: (pongName ++ ctx.take 16)⟩))

/-- The PONGs that answer the PINGs among `fs`, from a peer with this minor version: one for each, in their order. -/
def Answers (minor : UInt8) (fs : List DecodedFrame) (pongs : List (List UInt8)) : Prop :=
  if minor ≥ 1 then List.Forall₂ Echoes (pings fs) pongs else pongs = []

/-- A greeting that the connection accepts, from a peer with this minor version. -/
def Greeted (m : Mechanism) (g : List UInt8) (minor : UInt8) : Prop :=
  ∃ buf : List.Vector UInt8 64, buf.toList = g ∧ ∃ pg, Conn.parsePeerGreeting m buf = .ok pg ∧ pg.versionMinor = minor

section Grammar

variable {τ : Type} (R : Role τ) (check : List UInt8 → List UInt8 → Bool) (tgt : Target) (cap : Nat)

/-- The frames of the peer's handshake: READY, and for PLAIN an accepted HELLO before it. -/
def Handshaken : Mechanism → List UInt8 → Prop
  | .null, hs => AcceptedReady R tgt hs
  | .plain, hs => ∃ hello ready, hs = hello ++ ready ∧ AcceptedHello check tgt hello ∧ AcceptedReady R tgt ready

/-- A peer with this minor version has established the connection, and then said `s`. -/
def Spoke (m : Mechanism) (t : List UInt8) (minor : UInt8) (s : List UInt8) : Prop :=
  ∃ g hs, t = g ++ (hs ++ s) ∧ Greeted m g minor ∧ Handshaken R check tgt m hs

/-- The connection is established with a peer of this minor version, and `fs` are the complete frames behind the handshake. -/
def Said (m : Mechanism) (t : List UInt8) (minor : UInt8) (fs : List DecodedFrame) : Prop :=
  ∃ s wires, Spoke R check tgt m t minor s ∧ LongestStream tgt cap s wires fs

/-- `pongs` are the PONGs that are due when `t` is consumed: they answer the complete frames behind the handshake. -/
def Due (m : Mechanism) (t : List UInt8) (pongs : List (List UInt8)) : Prop :=
  (∃ minor fs, Said R check tgt cap m t minor fs ∧ Answers minor fs pongs) ∨
    (¬∃ minor s, Spoke R check tgt m t minor s) ∧ pongs = []

/-- Of the frames behind the handshake, `bs` completes at most one. -/
def OneFrame (m : Mechanism) (t bs : List UInt8) : Prop :=
  ∀ minor fs, Said R check tgt cap m (t ++ bs) minor fs → fs = [] ∨
    ∃ fs' gs, fs = fs' ++ gs ∧ gs.length ≤ 1 ∧ Said R check tgt cap m t minor fs'

/-- The PONGs that were written. -/
def pongsIn (tr : List IoEvent) : List (List UInt8) := (sentIn tr).filterMap Sent.asPong

/-- A trace in which every PING is answered, and before the next frame is read: what a feed consumes completes at most one
frame, and in the end and whenever a feed consumes more, the PONGs written are those that are due for what was consumed
before; at no moment there are others. -/
structure Answering (m : Mechanism) (tr : List IoEvent) : Prop where
  final : Due R check tgt cap m (consumedBytes tr) (pongsIn tr)
  before : ∀ p bs q, tr = p ++ .consumed bs :: q →
    Due R check tgt cap m (consumedBytes p) (pongsIn p) ∧ OneFrame R check tgt cap m (consumedBytes p) bs
  only : ∀ p, p <+: tr → ∃ pongs, Due R check tgt cap m (consumedBytes p) pongs ∧ pongsIn p <+: pongs

end Grammar

/-- The transport takes every write. -/
def TakesAll (tr : List IoEvent) : Prop := ∀ s, ¬RefusedIn tr s

end Mzmq
