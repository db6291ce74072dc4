import Mzmq.Endpoint

/-!
# Conforming peers, and the programs that serve them

A peer conforms when what it sends spells occasions that the endpoint can go on from, one behind the other (`Conforms`). The
programs of the README and of `examples/` call a driver in a loop: `connect` is the README's `while !driver.poll()? {}`, and
`PubHello.handshake` is the function of that name in `pub_hello.rs` and in `embassy_pub.rs`. The clock is modelled by how
often the loops turn before their deadlines.
-/

namespace Mzmq

open Checked Consumer Spelling

/-- It is the peer's. -/
def Occasion.isPeers : Occasion → Bool
  | .gaveUp => false
  | .publish _ _ => false
  | _ => true

/-- With `stream` a peer says one thing after the other, up to the stage `s`. -/
def Conforms {σ τ : Type} (E : Endpoint σ) (R : Role τ) (check : List UInt8 → List UInt8 → Bool) (tgt : Target) (cap : Nat)
    (m : Mechanism) (stream : List UInt8) (s : Stage σ) : Prop :=
  ∃ is ws, Run.Path (E.Step m) .greeting is ws s ∧ (∀ i ∈ is, i.isPeers = true) ∧
    Spelled (Occasion.IsWire R check tgt cap m) is stream

namespace Adapter

variable {τ T : Type} {cap : Nat} [Transport T]

/-- `while !driver.poll()? {}`, for at most `n` polls. -/
def connect (P : Policy τ) (tgt : Target) : Nat → Adapter τ cap T → Outcome (Adapter τ cap T) IoEvent ConnError
  | 0, a => ⟨a, [], some .hang⟩
  | n + 1, a =>
    match a.poll P tgt with
    | (a, tr, .error f) => ⟨a, tr, some f⟩
    | (a, tr, .ok true) => ⟨a, tr, none⟩
    | (a, tr, .ok false) => Outcome.andThen ⟨a, tr, none⟩ (connect P tgt n)

/-- Put a trace in front of what a call returned. -/
def behind {ρ : Type} (tr : List IoEvent) (r : Adapter τ cap T × List IoEvent × ρ) : Adapter τ cap T × List IoEvent × ρ :=
  (r.1, tr ++ r.2.1, r.2.2)

/-- Poll up to the deadline, `n` polls ahead, or until a poll returns true; errors are ignored. -/
def waitEstablished (P : Policy τ) (tgt : Target) : Nat → Adapter τ cap T → Adapter τ cap T × Polled
  | 0, a => (a, [], .ok false)
  | n + 1, a =>
    match a.poll P tgt with
    | (a, tr, .ok true) => (a, tr, .ok true)
    | (a, tr, .ok false) => behind tr (waitEstablished P tgt n a)
    | (a, tr, .error f) => if f.aborts = true then (a, tr, .error f) else behind tr (waitEstablished P tgt n a)

/-- Poll and publish up to the deadline, `n` turns ahead, or until a publish sends something; what the polls return is
ignored, and an error of a publish ends the loop. -/
def publishRetrying (P : Policy τ) (tgt : Target) (topic payload : List UInt8) :
    Nat → Adapter τ cap T → Adapter τ cap T × List IoEvent × Res ConnError Nat
  | 0, a => (a, [], .ok 0)
  | n + 1, a =>
    let p := a.poll P tgt
    match p.2.2 with
    | .error .panic => (p.1, p.2.1, .error .panic)
    | .error .hang => (p.1, p.2.1, .error .hang)
    | _ =>
      behind p.2.1 <| match p.1.publish P tgt topic payload with
        | (a, tr, .ok 0) => behind tr (publishRetrying P tgt topic payload n a)
        | r => r

end Adapter

namespace PubHello

variable {V : Type → Nat → Type} [FixedVec V] {subCap prefixCap frameCap : Nat} {T : Type} [Transport T]

/-- "hello" and "world". -/
def topic : List UInt8 := [0x68, 0x65, 0x6C, 0x6C, 0x6F]
def payload : List UInt8 := [0x77, 0x6F, 0x72, 0x6C, 0x64]

/-- How the example ends: the handshake timed out, a publish failed, a message went out, or nobody asked for it in time. -/
inductive Exit where
  | timedOut
  | failed (f : Fault ConnError)
  | published (n : Nat)
  | unmatched
  deriving DecidableEq

/-- `handshake`: at most `polls` polls before the first deadline, and at most `turns` turns before the second. -/
def handshake (tgt : Target) (polls turns : Nat) (d : Driver V subCap prefixCap frameCap T) :
    Driver V subCap prefixCap frameCap T × List IoEvent × Exit :=
  match Adapter.waitEstablished Driver.policy tgt polls d with
  | (d, tr, .error f) => (d, tr, .failed f)
  | (d, tr, .ok false) => (d, tr, .timedOut)
  | (d, tr, .ok true) =>
    Adapter.behind tr <| match Adapter.publishRetrying Driver.policy tgt topic payload turns d with
      | (d, tr, .error f) => (d, tr, .failed f)
      | (d, tr, .ok 0) => (d, tr, .unmatched)
      | (d, tr, .ok (n + 1)) => (d, tr, .published (n + 1))

end PubHello
end Mzmq
