import Mzmq.Lemmas.Async
import Mzmq.Theorems.Endpoint

/-!
# Futures that are dropped

A caller may drop the future of an async driver at any `await`, as a timeout or a `select` does. The driver does not notice: its
run is one over a transport that fails where the futures were dropped (`dropped_futures_fail`). A future that is dropped while
it reads has done nothing at all (`dropped_reads_undone`).
-/

namespace Mzmq

open Checked Consumer Interaction Adapter

namespace Adapter

variable {τ T : Type} {cap : Nat} [Transport T] {P : Policy τ} {tgt : Target} {a : Adapter τ cap T}

/-! ## A run over a transport that fails -/

/-- The driver over the transport with a script. -/
def scripted (a : Adapter τ cap T) (script : List (Option (WriteError × T))) : Adapter τ cap (Dropping T) :=
  a.core.toAdapter (T := Dropping T) (a.transport, script)

/-- The call `ev'`, over a transport that fails, goes like the call `ev`: the driver and its transport are the same before and
after it, and it returns the same, or an error that is no panic if the future of `ev` was dropped. -/
structure Mirrors (ev : AsyncCall τ cap T) (ev' : Call τ cap (Dropping T)) : Prop where
  op : ev'.op = ev.op.1
  pre : ∃ script, ev'.pre = ev.pre.scripted script
  post : ∃ script, ev'.post = ev.post.scripted script
  res : match ev.res with
    | some r => ev'.res.2 = r
    | none => ∃ f, f.aborts = false ∧ ev'.res.2.fault = some f

omit [Transport T] in
theorem Mirrors.halts {ev : AsyncCall τ cap T} {ev' : Call τ cap (Dropping T)} (h : Mirrors ev ev') :
    Adapter.halts ev'.res = asyncHalts ev.res := by
  have hres := h.res
  unfold Adapter.halts asyncHalts
  cases hr : ev.res with
  | none =>
    rw [hr] at hres
    obtain ⟨f, hf, he⟩ := hres
    rw [he]
    exact hf
  | some r =>
    rw [hr] at hres
    simp only at hres
    rw [hres]
    rfl

omit [Transport T] in
/-- Where no call of a run halts, none of those that follow it does. -/
theorem live_of_mirrors {h : List (AsyncCall τ cap T)} {h' : List (Call τ cap (Dropping T))} (hf : List.Forall₂ Mirrors h h')
    (hlive : ∀ ev ∈ h, asyncHalts ev.res = false) : ∀ ev ∈ h', Adapter.halts ev.res = false := by
  induction hf with
  | nil => simp
  | @cons ev ev' h h' he _ ih =>
    rw [List.forall_mem_cons] at hlive ⊢
    exact ⟨by rw [he.halts, hlive.1], ih hlive.2⟩

/-- A transport with a script answers like an interrupted one. -/
theorem answer_dropping : (Transport.answer : Dropping T → (q : Request) → Dropping T × q.Answer) =
    Program.interrupted Transport.answer failure := by
  funext t q
  cases q <;> rfl

/-- A failure is a failed read or write. -/
theorem failed_failure (e : WriteError) (q : Request) : AsyncAdapter.Failed q (failure e q) := by
  cases q with
  | read room => exact ⟨_, rfl⟩
  | write bs => exact ⟨_, rfl⟩

/-- One call: there is a script with which a call over the failing transport goes like it. -/
theorem asyncStep_mirrors (P : Policy τ) (tgt : Target) (a : Adapter τ cap T) (i : Op × Fate T) :
    ∃ script, ∀ rest, (step P tgt (a.scripted (script ++ rest)) i.1).1 = (asyncStep P tgt a i).1.scripted rest ∧
      Mirrors ⟨a, i, (asyncStep P tgt a i).2, (asyncStep P tgt a i).1⟩
        ⟨a.scripted (script ++ rest), i.1, (step P tgt (a.scripted (script ++ rest)) i.1).2,
          (step P tgt (a.scripted (script ++ rest)) i.1).1⟩ := by
  obtain ⟨op, fate⟩ := i
  have hcall : ∀ script c t r, (a.core.call P tgt op).run (Program.interrupted Transport.answer failure) (a.transport, script) =
      (c, t, r) → (step P tgt (a.scripted script) op).1 = c.toAdapter (T := Dropping T) t ∧
        (step P tgt (a.scripted script) op).2.2 = r := by
    intro script c t r h
    have hs := (AsyncAdapter.call_step (a.scripted script) P tgt op).run
    rw [answer_dropping] at hs
    have hs := hs.symm.trans h
    simp only [Prod.mk.injEq] at hs
    obtain ⟨rfl, rfl, rfl⟩ := hs
    exact ⟨rfl, rfl⟩
  -- A future that comes to its end is answered throughout.
  have hawaited : (asyncStep P tgt a (op, fate) =
      (((a.core.call P tgt op).run Transport.answer a.transport).1.toAdapter
          ((a.core.call P tgt op).run Transport.answer a.transport).2.1,
        some ((a.core.call P tgt op).run Transport.answer a.transport).2.2)) →
      ∃ script, ∀ rest, (step P tgt (a.scripted (script ++ rest)) op).1 = (asyncStep P tgt a (op, fate)).1.scripted rest ∧
        Mirrors ⟨a, (op, fate), (asyncStep P tgt a (op, fate)).2, (asyncStep P tgt a (op, fate)).1⟩
          ⟨a.scripted (script ++ rest), op, (step P tgt (a.scripted (script ++ rest)) op).2,
            (step P tgt (a.scripted (script ++ rest)) op).1⟩ := by
    intro h
    refine ⟨List.replicate ((a.core.call P tgt op).asks Transport.answer a.transport) none, fun rest => ?_⟩
    obtain ⟨h1, h2⟩ := hcall _ _ _ _ (Program.run_spared failure (a.core.call P tgt op) a.transport rest)
    rw [h]
    exact ⟨h1, rfl, ⟨_, rfl⟩, ⟨rest, h1⟩, h2⟩
  cases fate with
  | awaited => exact hawaited rfl
  | dropped n t passed =>
    cases hx : (a.core.call P tgt op).asked Transport.answer n a.transport with
    | none => exact hawaited (by simp only [asyncStep, hx])
    | some x =>
      -- The question at which the future is dropped fails.
      refine ⟨List.replicate n none ++ [some (⟨0, passed⟩, t)], fun rest => ?_⟩
      obtain ⟨r, ⟨f, hf, hr⟩, hrun⟩ := (AsyncAdapter.call_frail a.core P tgt op).run_dropped failed_failure hx ⟨0, passed⟩ t rest
      rw [List.append_assoc, List.singleton_append]
      obtain ⟨h1, h2⟩ := hcall _ _ _ _ hrun
      have hstep : asyncStep P tgt a (op, .dropped n t passed) = (x.1.toAdapter t, none) := by
        simp only [asyncStep, hx]
      rw [hstep]
      exact ⟨h1, rfl, ⟨_, rfl⟩, ⟨rest, h1⟩, f, hf, by rw [h2, hr]⟩

/-- A run with dropped futures goes like a run over a transport that fails, whatever its script says behind that. -/
theorem asyncRun_mirrors {a0 : Adapter τ cap T} {h : List (AsyncCall τ cap T)} (hr : AsyncRun P tgt a0 h a) :
    ∃ script, ∀ rest, ∃ h', DriverRun P tgt (a0.scripted (script ++ rest)) h' (a.scripted rest) ∧ List.Forall₂ Mirrors h h' := by
  induction hr with
  | nil => exact ⟨[], fun rest => ⟨[], .nil, .nil⟩⟩
  | @snoc h a i hr hlive ih =>
    obtain ⟨script, ih⟩ := ih
    obtain ⟨script', hstep⟩ := asyncStep_mirrors P tgt a i
    refine ⟨script ++ script', fun rest => ?_⟩
    obtain ⟨h', hr', hf⟩ := ih (script' ++ rest)
    obtain ⟨hpost, hmirrors⟩ := hstep rest
    refine ⟨_, ?_, List.rel_append hf (.cons hmirrors .nil)⟩
    rw [List.append_assoc, ← hpost]
    exact .snoc i.1 hr' (live_of_mirrors hf hlive)

/-- The future of `new`, run to its end, makes a driver. -/
theorem start_of_run {c : Conn τ cap} {t t' : T} {d : AsyncAdapter τ cap}
    (h : (AsyncAdapter.start c).run Transport.answer t = (d, t', .ok ())) : ∃ tr, start c t = (tr, .ok (d.toAdapter t')) := by
  have hs : AsyncAdapter.Does (AsyncAdapter.start c) t (send ⟨c, t, List.Vector.replicate 512 0, 0⟩ Conn.sendGreeting) :=
    AsyncAdapter.send_does ⟨c, t, List.Vector.replicate 512 0, 0⟩ Conn.sendGreeting
  have hs := hs.run
  rw [h] at hs
  unfold start
  generalize send (⟨c, t, List.Vector.replicate 512 0, 0⟩ : Adapter τ cap T) Conn.sendGreeting = o at hs
  obtain ⟨a, tr, fault⟩ := o
  cases fault with
  | none =>
    simp only [Prod.mk.injEq] at hs
    obtain ⟨rfl, rfl, _⟩ := hs
    exact ⟨tr, rfl⟩
  | some f => simp at hs

/-- The future of `new` makes the same driver over a transport that fails later. -/
theorem start_scripted {c : Conn τ cap} {t t' : T} {d : AsyncAdapter τ cap}
    (h : (AsyncAdapter.start c).run Transport.answer t = (d, t', .ok ())) (rest : List (Option (WriteError × T))) :
    ∃ script tr, start c ((t, script) : Dropping T) = (tr, .ok ((d.toAdapter t').scripted rest)) := by
  have hs : (AsyncAdapter.start c).run (Program.interrupted Transport.answer failure) _ = _ :=
    Program.run_spared failure (AsyncAdapter.start c) t rest
  rw [h, ← answer_dropping] at hs
  obtain ⟨tr, hs⟩ := start_of_run hs
  exact ⟨_, tr, hs⟩

/-! ## A run without the reads that were dropped -/

/-- What the calls whose futures were awaited have returned. -/
def returned (h : List (AsyncCall τ cap T)) : List (Op × Returned) := h.filterMap fun ev => ev.res.map fun r => (ev.op.1, r)

omit [Transport T] in
theorem returned_snoc (h : List (AsyncCall τ cap T)) (ev : AsyncCall τ cap T) :
    returned (h ++ [ev]) = returned h ++ (ev.res.map fun r => (ev.op.1, r)).toList := by
  obtain ⟨pre, op, res, post⟩ := ev
  rw [returned, List.filterMap_append]
  cases res <;> rfl

/-- A future that is not dropped before its end makes a step of the driver. -/
theorem asyncStep_returned {i : Op × Fate T} {r : Returned} (h : (asyncStep P tgt a i).2 = some r) :
    (step P tgt a i.1).1 = (asyncStep P tgt a i).1 ∧ (step P tgt a i.1).2.2 = r := by
  obtain ⟨op, fate⟩ := i
  have hs := (AsyncAdapter.call_step a P tgt op).run
  have hawaited : asyncStep P tgt a (op, fate) = (step P tgt a op |>.1, some (step P tgt a op).2.2) →
      (step P tgt a op).1 = (asyncStep P tgt a (op, fate)).1 ∧ (step P tgt a op).2.2 = r := by
    intro ha
    rw [ha] at h ⊢
    exact ⟨rfl, by simpa using h⟩
  cases fate with
  | awaited =>
    refine hawaited ?_
    simp only [asyncStep, hs]
    rfl
  | dropped n t passed =>
    cases hx : (a.core.call P tgt op).asked Transport.answer n a.transport with
    | none =>
      refine hawaited ?_
      simp only [asyncStep, hs, hx]
      rfl
    | some x =>
      simp only [asyncStep, hx] at h
      cases h

/-- A future that a steady driver drops while it reads leaves everything as it was. -/
theorem Steady.dropped_read {m : Mechanism} (L : P.Lawful m) (s : Steady m a) {i : Op × Fate T}
    (h : DroppedAtRead P tgt ⟨a, i, (asyncStep P tgt a i).2, (asyncStep P tgt a i).1⟩) : asyncStep P tgt a i = (a, none) := by
  obtain ⟨op, fate⟩ := i
  obtain ⟨n, passed, c, t, room, hfate, hx⟩ := h
  simp only at hfate hx
  obtain ⟨rfl, rfl⟩ := AsyncAdapter.call_asked L s hx
  subst hfate
  simp only [asyncStep, hx]
  rfl

/-- A run that drops its futures at reads alone is a run without them. -/
theorem asyncRun_without {R : Role τ} {m : Mechanism} {auth : Auth} {t : T} {tr : List IoEvent} {a0 : Adapter τ cap T}
    (L : P.Lawful m) (h0 : start (Conn.init R m auth) t = (tr, .ok a0)) {h : List (AsyncCall τ cap T)}
    (hr : AsyncRun P tgt a0 h a) (hdrops : ∀ ev ∈ h, ev.res = none → DroppedAtRead P tgt ev) :
    ∃ h', DriverRun P tgt a0 h' a ∧ h'.map (fun ev => (ev.op, ev.res.2)) = returned h := by
  induction hr with
  | nil => exact ⟨[], .nil, rfl⟩
  | @snoc h a i hr hlive ih =>
    rw [List.forall_mem_append] at hdrops
    obtain ⟨h', hr', hmap⟩ := ih hdrops.1
    have hlive' : ∀ ev ∈ h', halts ev.res = false := by
      intro ev hev
      have hmem : (ev.op, ev.res.2) ∈ returned h := by
        rw [← hmap]
        exact List.mem_map_of_mem hev
      obtain ⟨e, he, hres⟩ := List.mem_filterMap.mp hmem
      obtain ⟨r, hr, heq⟩ := Option.map_eq_some_iff.mp hres
      simp only [Prod.mk.injEq] at heq
      have := hlive e he
      rw [asyncHalts, hr, heq.2] at this
      exact this
    have s : Steady m a := steady_of_run L (start_steady h0) hr' hlive'
    cases hres : (asyncStep P tgt a i).2 with
    | none =>
      have hd := hdrops.2 _ (List.mem_singleton_self _) hres
      have hstep := s.dropped_read L hd
      refine ⟨h', ?_, ?_⟩
      · rw [hstep]
        exact hr'
      · rw [returned_snoc, hmap]
        exact (List.append_nil _).symm
    | some r =>
      obtain ⟨hpost, hr2⟩ := asyncStep_returned hres
      rw [← hpost]
      refine ⟨_, .snoc i.1 hr' hlive', ?_⟩
      rw [List.map_append, hmap, returned_snoc, List.map_singleton, hr2]
      rfl

end Adapter

open Adapter

/-- Whatever futures are dropped in a run of an async driver, the driver goes through the states of a run over a transport that
fails where they were dropped: what holds of every run over every transport holds with dropped futures as well. -/
theorem dropped_futures_fail (V : Type → Nat → Type) [FixedVec V] (T : Type) [Transport T] (tgt : Target)
    (tableCap nameCap frameCap : Nat) (check : List UInt8 → List UInt8 → Bool) (t : T) :
    EveryAsyncDriver V tgt tableCap nameCap frameCap check t fun P c h a => ∃ script tr b h',
      start c ((t, script) : Dropping T) = (tr, .ok b) ∧ DriverRun P tgt b h' (a.scripted []) ∧ List.Forall₂ Mirrors h h' := by
  have hall : ∀ {τ : Type} {P : Policy τ} {c : Conn τ frameCap} {d : AsyncAdapter τ frameCap} {t' : T},
      (AsyncAdapter.start c).run Transport.answer t = (d, t', .ok ()) → ∀ h a, AsyncRun P tgt (d.toAdapter t') h a →
        ∃ script tr b h', start c ((t, script) : Dropping T) = (tr, .ok b) ∧ DriverRun P tgt b h' (a.scripted []) ∧
          List.Forall₂ Mirrors h h' := by
    intro τ P c d t' h0 h a hr
    obtain ⟨script, hrun⟩ := asyncRun_mirrors hr
    obtain ⟨h', hr', hf⟩ := hrun []
    obtain ⟨script', tr, hs⟩ := start_scripted h0 (script ++ [])
    exact ⟨script', tr, _, h', hs, hr', hf⟩
  exact ⟨fun _ _ h0 => hall h0, fun _ _ h0 => hall h0, fun _ _ h0 => hall h0⟩

/-- The driver of `joiningPeer`, without its transport. -/
def joiningPeerCore : AsyncAdapter (GroupTable BVec 2 8) 32 :=
  ⟨{ RadioConnection.new with ourGreetingSent := true }, List.Vector.replicate 512 0, 0⟩

/-- Calls of this driver: the first poll is dropped while it reads, and the second while it writes READY. -/
def droppedOps : List (Op × Fate Slices) :=
  [(.poll, .dropped 0 joiningPeer 0), (.poll, .dropped 1 ⟨[]⟩ 5), (.poll, .awaited), (.publish [0x61] [1, 2], .awaited)]

/-- The run that makes them goes like one over a transport that fails. -/
theorem dropped_futures_fail_joined : ∃ script tr b h',
    start RadioConnection.new ((joiningPeer, script) : Dropping Slices) = (tr, .ok b) ∧
    DriverRun (RadioDriver.asyncPolicy : Policy (GroupTable BVec 2 8)) ⟨.w32, true⟩ b h'
      ((Run.exec (asyncStep RadioDriver.asyncPolicy ⟨.w32, true⟩) asyncHalts (joiningPeerCore.toAdapter joiningPeer)
        droppedOps).2.scripted []) ∧
    List.Forall₂ Mirrors (Run.exec (asyncStep RadioDriver.asyncPolicy ⟨.w32, true⟩) asyncHalts
      (joiningPeerCore.toAdapter joiningPeer) droppedOps).1 h' :=
  (dropped_futures_fail BVec Slices ⟨.w32, true⟩ 2 8 32 (fun _ _ => true) joiningPeer).radio _ _ rfl _ _ (Run.runs_exec _ _)

/-- A run of an async driver whose futures are dropped only while they read, so that nothing is taken from the transport, is
a run in which the dropped calls were not made at all. -/
theorem dropped_reads_undone (V : Type → Nat → Type) [FixedVec V] (T : Type) [Transport T] (tgt : Target)
    (tableCap nameCap frameCap : Nat) (check : List UInt8 → List UInt8 → Bool) (t : T) :
    EveryAsyncDriver V tgt tableCap nameCap frameCap check t fun P c h a =>
      (∀ ev ∈ h, ev.res = none → DroppedAtRead P tgt ev) → ∃ tr a0 h', start c t = (tr, .ok a0) ∧ DriverRun P tgt a0 h' a ∧
        h'.map (fun ev => (ev.op, ev.res.2)) = returned h := by
  have hall : ∀ {τ : Type} {P : Policy τ} {R : Role τ} {m : Mechanism} {auth : Auth} {d : AsyncAdapter τ frameCap} {t' : T},
      P.Lawful m → (AsyncAdapter.start (Conn.init R m auth)).run Transport.answer t = (d, t', .ok ()) →
        ∀ h a, AsyncRun P tgt (d.toAdapter t') h a → (∀ ev ∈ h, ev.res = none → DroppedAtRead P tgt ev) →
          ∃ tr a0 h', start (Conn.init R m auth) t = (tr, .ok a0) ∧ DriverRun P tgt a0 h' a ∧
            h'.map (fun ev => (ev.op, ev.res.2)) = returned h := by
    intro τ P R m auth d t' L h0 h a hr hdrops
    obtain ⟨tr, h0⟩ := start_of_run h0
    obtain ⟨h', hr', hmap⟩ := asyncRun_without L h0 hr hdrops
    exact ⟨tr, _, h', h0, hr', hmap⟩
  exact ⟨fun _ _ h0 => hall (Driver.policy_lawful .null) h0, fun _ _ h0 => hall (Driver.policy_lawful .plain) h0,
    fun _ _ h0 => hall RadioDriver.asyncPolicy_lawful h0⟩

/-- Calls whose first one is dropped while it reads. -/
def droppedReads : List (Op × Fate Slices) :=
  [(.poll, .dropped 0 joiningPeer 0), (.poll, .awaited), (.poll, .awaited), (.poll, .awaited), (.publish [0x61] [1, 2], .awaited)]

/-- The run that makes them. -/
def droppedReadsRun :=
  Run.exec (asyncStep (RadioDriver.asyncPolicy : Policy (GroupTable BVec 2 8)) ⟨.w32, true⟩) asyncHalts
    (joiningPeerCore.toAdapter joiningPeer) droppedReads

/-- It is a run without the first of them. -/
theorem dropped_reads_undone_joined : ∃ tr a0 h',
    start (RadioConnection.new : RadioConnection BVec 2 8 32) joiningPeer = (tr, .ok a0) ∧
    DriverRun RadioDriver.asyncPolicy ⟨.w32, true⟩ a0 h' droppedReadsRun.2 ∧
    h'.map (fun ev => (ev.op, ev.res.2)) = returned droppedReadsRun.1 := by
  refine (dropped_reads_undone BVec Slices ⟨.w32, true⟩ 2 8 32 (fun _ _ => true) joiningPeer).radio _ _ rfl _ _
    (Run.runs_exec _ _) ?_
  have hfirst : ∃ ev h, droppedReadsRun.1 = ev :: h ∧ DroppedAtRead RadioDriver.asyncPolicy ⟨.w32, true⟩ ev ∧
      h.all (fun ev => ev.res.isSome) = true :=
    ⟨_, _, rfl, ⟨0, 0, joiningPeerCore, joiningPeer, 512, rfl, rfl⟩, by decide +kernel⟩
  obtain ⟨first, h, hrun, hdropped, hrest⟩ := hfirst
  intro ev hev hres
  have hev : ev ∈ droppedReadsRun.1 := hev
  rw [hrun] at hev
  rcases List.mem_cons.mp hev with rfl | hev
  · exact hdropped
  · have := List.all_eq_true.mp hrest ev hev
    rw [hres] at this
    cases this

end Mzmq
