import Mzmq.Async

/-!
# Two drivers with one another

Two drivers of this library, at the two ends of a connection. Whatever is written at one end is in flight until the network
delivers it, in whatever pieces, to the other end; calls and deliveries interleave in any order. A read finds what has arrived,
or times out. A call that panics takes its end down, and the other goes on.
-/

namespace Mzmq

open Checked Consumer Adapter

/-- The number of the kind of the error of a read that has timed out. -/
def timedOut : Nat := 13

/-- One end of a connection: what has arrived here, and what is in flight to the other end. -/
structure Pipe where
  inbox : List UInt8
  outbox : List UInt8

instance : Transport Pipe where
  read t room :=
    if t.inbox = [] then (t, .error timedOut)
    else ({ t with inbox := t.inbox.drop room }, .ok (t.inbox.take room))
  writeAll t bs := ({ t with outbox := t.outbox ++ bs }, .ok ())
  write_le h := by cases h
  read_le {t t' room bs} h := by
    split at h
    · cases h
    · cases h
      exact List.length_take_le _ _

/-- A driver at one end, and whether it has panicked. -/
structure Node (τ : Type) (cap : Nat) where
  driver : Adapter τ cap Pipe
  down : Bool

/-- A call of the driver. Nothing comes of it if the driver is down. -/
def Node.call {τ : Type} {cap : Nat} (P : Policy τ) (tgt : Target) (n : Node τ cap) (op : Op) : Node τ cap × Option Returned :=
  if n.down = true then (n, none)
  else
    let r := n.driver.step P tgt op
    (⟨r.1, halts r.2⟩, some r.2.2)

/-- Deliver `k` of the bytes that are in flight from `a` to `b`. -/
def Node.deliver {τ σ : Type} {cap cap' : Nat} (k : Nat) (a : Node τ cap) (b : Node σ cap') : Node τ cap × Node σ cap' :=
  let sender := a.driver.transport
  let receiver := b.driver.transport
  ({ a with driver := { a.driver with transport := { sender with outbox := sender.outbox.drop k } } },
    { b with driver := { b.driver with transport := { receiver with inbox := receiver.inbox ++ sender.outbox.take k } } })

/-- The two ends. -/
structure Network (τ σ : Type) (cap cap' : Nat) where
  left : Node τ cap
  right : Node σ cap'

/-- What can happen: a call at either end, or a delivery. -/
inductive NetworkOp where
  | left (op : Op)
  | right (op : Op)
  | toRight (k : Nat)
  | toLeft (k : Nat)

namespace Network

variable {τ σ : Type} {cap cap' : Nat}

/-- One step. -/
def step (P : Policy τ) (Q : Policy σ) (tgt tgt' : Target) (n : Network τ σ cap cap') :
    NetworkOp → Network τ σ cap cap' × Option Returned
  | .left op => let r := n.left.call P tgt op; (⟨r.1, n.right⟩, r.2)
  | .right op => let r := n.right.call Q tgt' op; (⟨n.left, r.1⟩, r.2)
  | .toRight k => let r := n.left.deliver k n.right; (⟨r.1, r.2⟩, none)
  | .toLeft k => let r := n.right.deliver k n.left; (⟨r.2, r.1⟩, none)

/-- A run: nothing ends it. -/
abbrev NetworkRun (P : Policy τ) (Q : Policy σ) (tgt tgt' : Target) (n0 : Network τ σ cap cap')
    (h : List (Run.Event (Network τ σ cap cap') NetworkOp (Option Returned))) (n : Network τ σ cap cap') : Prop :=
  Run.Runs (step P Q tgt tgt') (fun _ => false) n0 h n

/-- Both ends have started, over an empty network. -/
def Started (c : Conn τ cap) (c' : Conn σ cap') (n : Network τ σ cap cap') : Prop :=
  (∃ tr, start c ⟨[], []⟩ = (tr, .ok n.left.driver)) ∧ n.left.down = false ∧
    (∃ tr, start c' ⟨[], []⟩ = (tr, .ok n.right.driver)) ∧ n.right.down = false

/-- What a driver that is not connected returns: a poll is never true, and a publish is refused. -/
def Unconnected : Returned → Prop
  | .polled r => r ≠ .ok true
  | .published r => r = .error (.err .wrongState)

end Network

/-- The drivers of the library: a policy, and the connection that a driver starts with. -/
inductive Publisher (V : Type → Nat → Type) [FixedVec V] (tableCap nameCap frameCap : Nat)
    (check : List UInt8 → List UInt8 → Bool) : ∀ {τ : Type}, Policy τ → Conn τ frameCap → Prop where
  | null : Publisher V tableCap nameCap frameCap check (Driver.policy : Policy (SubTable V tableCap nameCap)) Connection.new
  | plain : Publisher V tableCap nameCap frameCap check (Driver.policy : Policy (SubTable V tableCap nameCap))
      (Connection.newPlain check)
  | radio : Publisher V tableCap nameCap frameCap check (RadioDriver.policy : Policy (GroupTable V tableCap nameCap))
      RadioConnection.new
  | radioAsync : Publisher V tableCap nameCap frameCap check
      (RadioDriver.asyncPolicy : Policy (GroupTable V tableCap nameCap)) RadioConnection.new

end Mzmq
