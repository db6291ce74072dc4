import Mzmq.Lemmas.Deeds

/-!
# The acts of a driver

Where the transport takes every write, the trace of a driver is made of acts: a feed and all that is sent for it, a feed that
fails, and events that do nothing to the connection.
-/

namespace Mzmq

open Checked Consumer

namespace Conn

variable {τ : Type} {cap : Nat} {R : Role τ} {tgt : Target}

/-- An event that consumes nothing and writes no PONG. -/
def Idle : IoEvent → Prop
  | .consumed _ => False
  | .sent (.pong _) => False
  | _ => True

/-- One act on a connection, with its events. -/
inductive Act (R : Role τ) (tgt : Target) : Conn τ cap → List IoEvent → Conn τ cap → Prop where
  | idle {c : Conn τ cap} {e : IoEvent} : Idle e → Act R tgt c [e] c
  | round {c c1 c2 : Conn τ cap} {input : List UInt8} {n : Nat} {sent : List Sent} : c.Quiet →
      c.feed R tgt input = (c1, .ok n) → Answered c.state c1 → reply R c c1 = ⟨c2, sent, none⟩ →
      Act R tgt c (.consumed (input.take n) :: sent.map .sent) c2
  | reject {c c1 : Conn τ cap} {input : List UInt8} {f : Fault ConnError} : c.Quiet → c.feed R tgt input = (c1, .error f) →
      f.aborts = false → Act R tgt c [] c1

/-- Acts one after the other. -/
inductive Acts (R : Role τ) (tgt : Target) (c : Conn τ cap) : List IoEvent → Conn τ cap → Prop where
  | nil : Acts R tgt c [] c
  | snoc {tr x : List IoEvent} {c1 c2 : Conn τ cap} : Acts R tgt c tr c1 → Act R tgt c1 x c2 → Acts R tgt c (tr ++ x) c2

variable {c c1 c2 : Conn τ cap} {x y : List IoEvent}

theorem Act.acts (h : Act R tgt c x c1) : Acts R tgt c x c1 := by
  have hnil : Acts R tgt c [] c := .nil
  exact .snoc hnil h

theorem Acts.trans (h : Acts R tgt c x c1) (h' : Acts R tgt c1 y c2) : Acts R tgt c (x ++ y) c2 := by
  induction h' with
  | nil => rwa [List.append_nil]
  | snoc _ ha ih =>
    rw [← List.append_assoc]
    exact .snoc ih ha

/-- Idle events are acts that leave the connection as it is. -/
theorem acts_idle (h : ∀ e ∈ x, Idle e) : Acts R tgt c x c := by
  induction x with
  | nil => exact .nil
  | cons e x ih =>
    have hrest := ih fun e' he' => h e' (List.mem_cons_of_mem _ he')
    exact (Act.idle (h e List.mem_cons_self)).acts.trans hrest

end Conn

namespace Conn

variable {τ : Type} {cap : Nat} {R : Role τ} {tgt : Target} {c c' : Conn τ cap} {x : List IoEvent}

/-- ERROR is idle. -/
theorem errorOf_idle (c : Conn τ cap) : ∀ e ∈ c.errorOf, Idle e := by
  intro e he
  unfold errorOf at he
  split at he
  · rw [List.mem_singleton.mp he]
    trivial
  · cases he

/-- Every deed is made of acts. -/
theorem Deed.acts (h : Deed R tgt c x c') : Acts R tgt c x c' := by
  cases h with
  | @read e he =>
    refine acts_idle fun e' hmem => ?_
    rw [List.mem_singleton.mp hmem]
    cases e with
    | received bs => trivial
    | readFailed kind => trivial
    | consumed bs => cases he
    | sent s => cases he
    | sendFailed s w => cases he
  | round q hf _ hans hreply => exact (Act.round q hf hans hreply).acts
  | reject q hf hab => exact (Act.reject q hf hab).acts.trans (acts_idle c'.errorOf_idle)
  | refuse => exact acts_idle c.errorOf_idle

/-- Deeds are made of acts. -/
theorem Deeds.acts (h : Deeds R tgt c x c') : Acts R tgt c x c' :=
  h.keeps (fun tr c' => Acts R tgt c tr c') (fun _ _ _ _ ih hd => ih.trans hd.acts) .nil

end Conn

/-! ## The acts of a run -/

namespace Adapter

open Conn

variable {τ T : Type} {cap : Nat} [Transport T] {P : Policy τ} {tgt : Target} {m : Mechanism}

/-- A call of a steady driver is made of acts. -/
theorem Steady.step_acts (L : P.Lawful m) (tgt : Target) {a : Adapter τ cap T} (s : Steady m a) (op : Op)
    (htakes : TakesAll (Adapter.step P tgt a op).2.1) : ∃ c', Acts P.role tgt a.conn (Adapter.step P tgt a op).2.1 c' ∧
      (halts (Adapter.step P tgt a op).2 = false → c' = (Adapter.step P tgt a op).1.conn) := by
  cases op with
  | publish topic payload =>
    obtain ⟨t, hp, _⟩ := a.publish_spec P tgt topic payload
    refine ⟨a.conn, acts_idle ?_, fun _ => by simp only [Adapter.step, hp, moved]⟩
    intro e he
    obtain ⟨bs, rfl | ⟨w, _, rfl⟩⟩ := a.publish_pieces P tgt topic payload e he <;> trivial
  | poll =>
    obtain ⟨c', hdeeds, hend⟩ := s.poll_deeds L tgt htakes
    refine ⟨c', hdeeds.acts, fun hlive => ?_⟩
    rcases hend with hc | ⟨f, hf, hab⟩
    · exact hc
    · simp only [Adapter.step, halts, Returned.fault, hf] at hlive
      exact absurd (hab.symm.trans hlive) (by decide)

/-- A run in which the transport takes every write is made of acts. -/
theorem acts_of_run (L : P.Lawful m) {a0 a : Adapter τ cap T} (s : Steady m a0) {h : List (Call τ cap T)}
    (hr : DriverRun P tgt a0 h a) (htakes : TakesAll (trace h)) : ∃ c, Acts P.role tgt a0.conn (trace h) c := by
  have hinv : TakesAll (trace h) → ∃ c, Acts P.role tgt a0.conn (trace h) c ∧
      ((∀ ev ∈ h, halts ev.res = false) → c = a.conn ∧ Steady m a) := by
    refine hr.invariant (fun h a => TakesAll (trace h) → ∃ c, Acts P.role tgt a0.conn (trace h) c ∧
      ((∀ ev ∈ h, halts ev.res = false) → c = a.conn ∧ Steady m a)) (fun _ => ⟨a0.conn, .nil, fun _ => ⟨rfl, s⟩⟩) ?_
    intro h a op hlive ih htakes
    rw [trace_snoc] at htakes ⊢
    obtain ⟨c, hacts, hsteady⟩ := ih htakes.append.1
    obtain ⟨rfl, s⟩ := hsteady hlive
    obtain ⟨c', hstep, hc'⟩ := s.step_acts L tgt op htakes.append.2
    refine ⟨c', hacts.trans hstep, ?_⟩
    intro hall
    have hl := hall _ (List.mem_append_right _ (List.mem_singleton_self _))
    exact ⟨hc' hl, s.step L tgt op hl⟩
  obtain ⟨c, hacts, _⟩ := hinv htakes
  exact ⟨c, hacts⟩

end Adapter
end Mzmq
