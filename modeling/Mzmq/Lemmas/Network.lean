import Mzmq.KeepAlive
import Mzmq.Lemmas.Async
import Mzmq.Network
import Mzmq.Outbound

/-!
# What a pipe is asked

The trace of a call over a pipe says what becomes of the pipe: what the driver writes goes in there, and what it reads was in
there (`Pipe.step_moved`).
-/

namespace Mzmq

open Checked Consumer Adapter Interaction

namespace Pipe

/-- The bytes that a pipe was given to pass on. -/
def put : Wire → List UInt8
  | .wrote bs => bs
  | .writeFailed bs e => bs.take e.accepted
  | _ => []

/-- The bytes that a pipe has handed out. -/
def got : Wire → List UInt8
  | .received bs => bs
  | _ => []

theorem accepted_wires (tr : List IoEvent) : acceptedBytes tr = (tr.filterMap IoEvent.wire).flatMap put := by
  induction tr with
  | nil => rfl
  | cons e tr ih => cases e <;> simpa [acceptedBytes, IoEvent.accepted, IoEvent.wire, put, List.filterMap_cons] using ih

theorem received_wires (tr : List IoEvent) : receivedBytes tr = (tr.filterMap IoEvent.wire).flatMap got := by
  induction tr with
  | nil => rfl
  | cons e tr ih => cases e <;> simpa [receivedBytes, IoEvent.wire, got, List.filterMap_cons] using ih

/-- What became of a pipe that was asked `ws`. -/
structure Moved (t : Pipe) (ws : List Wire) (t' : Pipe) : Prop where
  outbox : t'.outbox = t.outbox ++ ws.flatMap put
  inbox : t.inbox = ws.flatMap got ++ t'.inbox
  taken : ∀ bs e, .writeFailed bs e ∉ ws

theorem Moved.nil (t : Pipe) : Moved t [] t := ⟨(List.append_nil _).symm, rfl, fun _ _ h => by cases h⟩

theorem Moved.cons {t t' : Pipe} {q : Request} {l : List (Σ q : Request, q.Answer)}
    (h : Moved (Transport.answer t q).1 (l.map Request.wire) t') :
    Moved t ((⟨q, (Transport.answer t q).2⟩ :: l).map Request.wire) t' := by
  obtain ⟨hout, hin, htaken⟩ := h
  cases q with
  | read room =>
    by_cases hempty : t.inbox = []
    · have ha : Transport.answer t (.read room) = (t, .error timedOut) := if_pos hempty
      rw [ha] at hout hin ⊢
      exact ⟨hout, hin, by simpa [Request.wire] using htaken⟩
    · have ha : Transport.answer t (.read room) =
          ({ t with inbox := t.inbox.drop room }, .ok (t.inbox.take room)) := if_neg hempty
      rw [ha] at hout hin ⊢
      refine ⟨hout, ?_, by simpa [Request.wire] using htaken⟩
      rw [List.map_cons, List.flatMap_cons, List.append_assoc, ← hin]
      exact (List.take_append_drop room t.inbox).symm
  | write bs =>
    have ha : Transport.answer t (.write bs) = ({ t with outbox := t.outbox ++ bs }, .ok ()) := rfl
    rw [ha] at hout hin ⊢
    refine ⟨?_, hin, by simpa [Request.wire] using htaken⟩
    rw [hout, List.map_cons, List.flatMap_cons, List.append_assoc]
    rfl

/-- A call over a pipe: what it writes goes into the pipe, and what it reads was in there. -/
theorem step_moved {τ : Type} {cap : Nat} (P : Policy τ) (tgt : Target) (a : Adapter τ cap Pipe) (op : Op) :
    (a.step P tgt op).1.transport.outbox = a.transport.outbox ++ acceptedBytes (a.step P tgt op).2.1 ∧
      a.transport.inbox = receivedBytes (a.step P tgt op).2.1 ++ (a.step P tgt op).1.transport.inbox ∧
      TakesAll (a.step P tgt op).2.1 := by
  obtain ⟨hrun, hwires⟩ := AsyncAdapter.call_step a P tgt op
  have hmoved : Moved a.transport (((a.core.call P tgt op).log Transport.answer a.transport).map Request.wire)
      ((a.core.call P tgt op).run Transport.answer a.transport).2.1 :=
    Program.run_logged (fun t l t' => Moved t (l.map Request.wire) t') Moved.nil (fun _ _ _ _ h => h.cons) _ _
  have hw : ((a.core.call P tgt op).log Transport.answer a.transport).map Request.wire =
      (a.step P tgt op).2.1.filterMap IoEvent.wire := hwires
  rw [hw, hrun] at hmoved
  refine ⟨?_, ?_, ?_⟩
  · rw [accepted_wires]
    exact hmoved.outbox
  · rw [received_wires]
    exact hmoved.inbox
  · rintro s ⟨e, he⟩
    exact hmoved.taken s.bytes e (List.mem_filterMap.mpr ⟨_, he, rfl⟩)

end Pipe

end Mzmq
