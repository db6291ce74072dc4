import Mzmq.Lemmas.Driver
import Mzmq.Peer

/-!
# The blocking and the async RADIO driver

The two drivers poll differently: behind a drain of buffered bytes that made no progress, the blocking one reads, and the async
one returns. In a steady driver a drain that succeeds makes progress, so both make the same calls of the transport.
-/

namespace Mzmq

open Checked Consumer

namespace Adapter

variable {τ T : Type} {cap : Nat} [Transport T] {P : Policy τ} {tgt : Target} {m : Mechanism}

/-- Policies that differ in their polls alone. -/
structure SameDrain (P Q : Policy τ) : Prop where
  role : Q.role = P.role
  move : Q.move = P.move

variable {Q : Policy τ}

/-- The loop of a drain does not ask how a poll goes on. -/
theorem SameDrain.loop (hPQ : SameDrain P Q) (tgt : Target) (fuel : Nat) :
    ∀ (a : Adapter τ cap T) (total : Nat), drainLoop Q tgt fuel a total = drainLoop P tgt fuel a total := by
  induction fuel with
  | zero =>
    intro a total
    rfl
  | succ fuel ih =>
    intro a total
    simp only [drainLoop, hPQ.role, hPQ.move, ih]

theorem SameDrain.drain (hPQ : SameDrain P Q) (tgt : Target) (a : Adapter τ cap T) :
    drainBuffer Q tgt a = drainBuffer P tgt a :=
  hPQ.loop tgt _ a 0

/-- A poll of a steady driver drains the buffer or reads, whether it is eager or not. -/
theorem Steady.pollBuffer_eq (L : P.Lawful m) {a : Adapter τ cap T} (s : Steady m a) (tgt : Target) :
    pollBuffer P tgt a = if a.rxLen > 0 then drainBuffer P tgt a else readMore P tgt a := by
  unfold pollBuffer
  by_cases hpos : a.rxLen > 0
  · rw [if_pos hpos, if_pos hpos]
    refine Outcome.andThen_idle fun hf => ?_
    rw [if_pos (.inr (s.progress L tgt hpos hf))]
  · rw [if_neg hpos, if_neg hpos]

/-- In a steady driver, the two policies do the same. -/
theorem SameDrain.step (hPQ : SameDrain P Q) (L : P.Lawful m) (L' : Q.Lawful m) (tgt : Target) {a : Adapter τ cap T}
    (s : Steady m a) (op : Op) : Adapter.step Q tgt a op = Adapter.step P tgt a op := by
  cases op with
  | publish topic payload =>
    simp only [Adapter.step, publish, hPQ.role]
  | poll =>
    have hread : readMore Q tgt a = readMore P tgt a := by
      have hd : (drainBuffer Q tgt : Adapter τ cap T → _) = drainBuffer P tgt := funext (hPQ.drain tgt)
      simp only [readMore, hd]
    have hbuf : pollBuffer Q tgt a = pollBuffer P tgt a := by
      rw [s.pollBuffer_eq L' tgt, s.pollBuffer_eq L tgt, hPQ.drain tgt a, hread]
    simp only [Adapter.step, s.poll_eq Q tgt, s.poll_eq P tgt, hbuf]

/-- The two policies make the same runs. -/
theorem SameDrain.runs (hPQ : SameDrain P Q) (L : P.Lawful m) (L' : Q.Lawful m) {a0 a : Adapter τ cap T}
    (s : Steady m a0) {h : List (Call τ cap T)} (hr : DriverRun P tgt a0 h a) : DriverRun Q tgt a0 h a :=
  hr.congr (Steady m) s (fun _ op s => hPQ.step L L' tgt s op) fun _ op s hlive => s.step L tgt op hlive

end Adapter

open Adapter

/-- The blocking and the async RADIO driver make the same runs: over every transport, each call does the same at the
transport, returns the same and leaves the same connection and the same buffer. -/
theorem radio_drivers_agree (V : Type → Nat → Type) [FixedVec V] (T : Type) [Transport T] (tgt : Target)
    (groupCap groupLenCap frameCap : Nat) (t : T) :
    ∀ tr d0, (RadioDriver.new t : List IoEvent × Res ConnError (RadioDriver V groupCap groupLenCap frameCap T)) =
        (tr, .ok d0) →
      ∀ h d, DriverRun RadioDriver.policy tgt d0 h d ↔ DriverRun RadioDriver.asyncPolicy tgt d0 h d := by
  intro tr d0 h0 h d
  have s : Steady .null d0 := start_steady h0
  have hasync : SameDrain (RadioDriver.policy : Policy (GroupTable V groupCap groupLenCap)) RadioDriver.asyncPolicy :=
    ⟨rfl, rfl⟩
  have hsync : SameDrain (RadioDriver.asyncPolicy : Policy (GroupTable V groupCap groupLenCap)) RadioDriver.policy :=
    ⟨rfl, rfl⟩
  constructor
  · intro hr
    exact hasync.runs RadioDriver.policy_lawful RadioDriver.asyncPolicy_lawful s hr
  · intro hr
    exact hsync.runs RadioDriver.asyncPolicy_lawful RadioDriver.policy_lawful s hr

/-- A DISH peer over a transport whose reads and writes fail in between: the greeting and JOIN come in two slices, and the
second write of the publish is refused. -/
def flakyDish : Flaky :=
  ⟨⟨[.fail 3, .data 0xFF (Peer.subGreeting.drop 1 |>.take 30),
    .data (Peer.subGreeting.getD 31 0) (Peer.subGreeting.drop 32 ++ Peer.dishReady ++ (Peer.dishJoin [0x67]).take 2),
    .data ((Peer.dishJoin [0x67]).getD 2 0) ((Peer.dishJoin [0x67]).drop 3)]⟩, [none, none, none, some ⟨7, 1⟩]⟩

/-- The driver that this peer talks to, with its greeting written. -/
def flakyDishDriver : RadioDriver BVec 2 8 32 Flaky :=
  ⟨{ RadioConnection.new with ourGreetingSent := true }, { flakyDish with answers := [none, none, some ⟨7, 1⟩] },
    List.Vector.replicate 512 0, 0⟩

/-- Five polls and two publishes, of which the transport refuses the first: the async driver makes the same run. -/
theorem radio_drivers_agree_flaky_dish :
    ∃ h d, DriverRun RadioDriver.policy ⟨.w64, false⟩ flakyDishDriver h d ∧ h.length = 7 ∧ d.conn.state = .established ∧
      DriverRun RadioDriver.asyncPolicy ⟨.w64, false⟩ flakyDishDriver h d := by
  have hrun : DriverRun RadioDriver.policy ⟨.w64, false⟩ flakyDishDriver _ _ :=
    Run.runs_exec _ [.poll, .poll, .poll, .poll, .poll, .publish [0x67] [0x68], .publish [0x67] [0x68]]
  refine ⟨_, _, hrun, by decide +kernel, by decide +kernel, ?_⟩
  exact (radio_drivers_agree BVec Flaky ⟨.w64, false⟩ 2 8 32 flakyDish _ _ rfl _ _).mp hrun

end Mzmq
