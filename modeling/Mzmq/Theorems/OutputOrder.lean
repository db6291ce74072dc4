import Mzmq.Lemmas.Order
import Mzmq.Peer

/-!
# The order of the outputs

In every run of a connection the outputs of the handshake come first, once and in order; PONGs and publishes follow: every
operation keeps what the state says about the outputs (`Ordered`).
-/

namespace Mzmq

open Checked

variable {τ : Type} {cap : Nat} {R : Role τ} {tgt : Target} {m : Mechanism} {os : List Output}

theorem outputs_snoc (h : List (Run.Event (Conn τ cap) Conn.Op Conn.OpResult))
    (ev : Run.Event (Conn τ cap) Conn.Op Conn.OpResult) : outputs (h ++ [ev]) = outputs h ++ (outputOf ev).toList := by
  rw [outputs, List.filterMap_append]
  cases ho : outputOf ev with
  | none => simp [outputs, ho]
  | some o => simp [outputs, ho]

namespace Conn

variable {c : Conn τ cap}

/-- Every operation keeps the order. -/
theorem Ordered.step (h : Ordered m os c) (R : Role τ) (tgt : Target) (op : Op) :
    Ordered m (os ++ (outputOf (eventOf R tgt c op)).toList) (eventOf R tgt c op).post := by
  have hsame : Ordered m (os ++ (none : Option Output).toList) c := by
    rw [Option.toList_none, List.append_nil]
    exact h
  cases op with
  | writeGreeting out =>
    rcases c.writeGreeting_spec out with ⟨out', he, hs, hsent⟩ | ⟨e, he⟩
    · simp only [eventOf, apply, he, outputOf]
      exact h.writeGreeting hs hsent
    · simp only [eventOf, apply, he, outputOf]
      exact hsame
  | writeReady out =>
    rcases c.writeReady_spec R out with ⟨out', he, hs, hsent⟩ | ⟨out', e, he⟩
    · simp only [eventOf, apply, he, outputOf]
      exact h.writeReady hs hsent
    · simp only [eventOf, apply, he, outputOf]
      exact hsame
  | writeWelcome out =>
    rcases c.writeWelcome_spec out with ⟨out', he, hs, hsent⟩ | ⟨out', e, he⟩
    · simp only [eventOf, apply, he, outputOf]
      exact h.writeWelcome hs hsent
    · simp only [eventOf, apply, he, outputOf]
      exact hsame
  | feed input =>
    simp only [eventOf, apply, outputOf, Option.toList_none, List.append_nil]
    exact h.feed R tgt input
  | publishHeaders topic payload => exact hsame
  | publish topic payload out =>
    simp only [eventOf, apply, outputOf]
    cases hr : (c.publish R tgt topic payload out).2 with
    | error f => exact hsame
    | ok n =>
      simp only
      split
      · exact h.more (publish_ok hr) (.inr rfl)
      · exact hsame
  | writeError out => exact hsame
  | writePong out =>
    by_cases hs : c.state = .established
    · -- An established connection may write a PONG, and stays established.
      obtain ⟨pong, he⟩ := c.writePong_spec out
      have hpost : ∀ {os}, Ordered m os c → Ordered m os { c with pendingPong := pong } :=
        fun h => h.established hs hs rfl
      rcases hr : (c.writePong out).2.2 with f | _ | n
      · simp only [eventOf, apply, he, hr, outputOf]
        exact hpost hsame
      · simp only [eventOf, apply, he, hr, outputOf]
        exact hpost hsame
      · simp only [eventOf, apply, he, hr, outputOf]
        exact hpost (h.more hs (.inl rfl))
    · simp only [eventOf, apply, writePong_none (h.no_pong hs), outputOf]
      exact hsame

/-- The outputs of every run are in order. -/
theorem outputs_inOrder {auth : Auth} {h : List (Run.Event (Conn τ cap) Op OpResult)}
    (hr : ConnRun R tgt (Conn.init R m auth) h c) : InOrder m (outputs h) := by
  have h0 : Ordered m [] (Conn.init R m auth : Conn τ cap) := ⟨rfl, rfl, rfl, rfl, rfl, Nat.zero_le _⟩
  have hord : Ordered m (outputs h) c := by
    refine hr.invariant (fun h c => Ordered m (outputs h) c) h0 ?_
    intro h c op _ hord
    rw [outputs_snoc]
    exact hord.step R tgt op
  exact hord.inOrder

end Conn

/-- The outputs of both connections are in order, over both mechanisms and in every run. -/
theorem outputs_in_order (V : Type → Nat → Type) [FixedVec V] (tgt : Target) (tableCap nameCap frameCap : Nat)
    (check : List UInt8 → List UInt8 → Bool) :
    (∀ h (c : Connection V tableCap nameCap frameCap), ConnRun Connection.role tgt Connection.new h c →
      InOrder .null (outputs h)) ∧
    (∀ h (c : Connection V tableCap nameCap frameCap), ConnRun Connection.role tgt (Connection.newPlain check) h c →
      InOrder .plain (outputs h)) ∧
    (∀ h (c : RadioConnection V tableCap nameCap frameCap), ConnRun RadioConnection.role tgt RadioConnection.new h c →
      InOrder .null (outputs h)) ∧
    ∀ h (c : RadioConnection V tableCap nameCap frameCap), ConnRun RadioConnection.role tgt (RadioConnection.newPlain check) h c →
      InOrder .plain (outputs h) := by
  refine ⟨?_, ?_, ?_, ?_⟩
  · intro h c hr
    exact Conn.outputs_inOrder hr
  · intro h c hr
    exact Conn.outputs_inOrder hr
  · intro h c hr
    exact Conn.outputs_inOrder hr
  · intro h c hr
    exact Conn.outputs_inOrder hr

/-- A PLAIN client that subscribes and pings: the connection writes greeting, WELCOME, READY, PONG and a publish, and refuses
everything that comes out of turn. -/
theorem outputs_in_order_plain_client :
    let big := List.replicate 64 (0 : UInt8)
    let run := Run.exec (Conn.apply Connection.role ⟨.w64, false⟩) Conn.OpResult.halts
      (Connection.newPlain (fun _ _ => true) : Connection BVec 2 8 64)
      [.writeReady big, .writeGreeting big, .writeGreeting big, .feed Peer.plainSubGreeting,
        .feed (Peer.plainHello [0x61] [0x62]), .writeReady big, .writeWelcome big, .writeWelcome big, .writeReady big,
        .writeReady big, .writePong big, .feed Peer.subReady, .feed (Peer.subSubscribe [0x66]),
        .feed (Peer.commandFrame pingName [0, 0, 0x70]), .writePong big, .writePong big, .publish [0x66] [0x67] big]
    outputs run.1 = [.greeting, .welcome, .ready, .pong, .publish] ∧ InOrder .plain (outputs run.1) := by
  intro big run
  exact ⟨by decide +kernel, (outputs_in_order BVec ⟨.w64, false⟩ 2 8 64 (fun _ _ => true)).2.1 run.1 run.2 (Run.runs_exec _ _)⟩

end Mzmq
