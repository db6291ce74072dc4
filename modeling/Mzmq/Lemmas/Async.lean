import Mzmq.Async
import Mzmq.Lemmas.Driver

/-!
# What the futures do

A future that is run to its end is the call of the driver (`call_step`), every future is frail (`call_frail`), and behind the
read of a poll there are only writes (`asked_read`).
-/

namespace Mzmq

open Checked Consumer Interaction

namespace AsyncAdapter

variable {τ T : Type} {cap : Nat} [Transport T] {P : Policy τ} {tgt : Target}

/-! ## Futures that are awaited -/

/-- What a future shows its transport. -/
abbrev wires {ρ : Type} (p : Program (AsyncAdapter τ cap) Request Request.Answer ρ) (t : T) : List Wire :=
  (p.log Transport.answer t).map Request.wire

/-- Over the transport `t` the future does what the driver does. -/
structure Does (p : Future τ cap Unit) (t : T) (o : Outcome (Adapter τ cap T) IoEvent ConnError) : Prop where
  run : p.run Transport.answer t = (o.state.core, o.state.transport, match o.fault with
    | none => .ok ()
    | some f => .error f)
  wires : wires p t = o.out.filterMap IoEvent.wire

/-- One behind the other. -/
theorem Does.andThen {p : Future τ cap Unit} {t : T} {o : Outcome (Adapter τ cap T) IoEvent ConnError}
    {f : AsyncAdapter τ cap → Unit → Future τ cap Unit} {k : Adapter τ cap T → Outcome (Adapter τ cap T) IoEvent ConnError}
    (h : Does p t o) (hf : ∀ a, Does (f a.core ()) a.transport (k a)) : Does (p.andThen f) t (o.andThen k) := by
  obtain ⟨a, tr, fault⟩ := o
  obtain ⟨hrun, hwires⟩ := h
  have hlog : (p.andThen f).log Transport.answer t = p.log Transport.answer t ++ _ := Program.log_bind p _ t
  rw [hrun] at hlog
  cases fault with
  | none =>
    obtain ⟨hrun', hwires'⟩ := hf a
    refine ⟨?_, ?_⟩
    · rw [Program.andThen, Program.run_bind, hrun]
      exact hrun'
    · rw [AsyncAdapter.wires, hlog, List.map_append]
      exact (congrArg₂ (· ++ ·) hwires hwires').trans (List.filterMap_append).symm
  | some f =>
    refine ⟨?_, ?_⟩
    · rw [Program.andThen, Program.run_bind, hrun]
      rfl
    · rw [AsyncAdapter.wires, hlog, List.map_append]
      exact (List.append_nil _).trans hwires

/-- The transport sees nothing of a feed. -/
theorem Does.consumed {p : Future τ cap Unit} {t : T} {o : Outcome (Adapter τ cap T) IoEvent ConnError} (h : Does p t o)
    (bs : List UInt8) : Does p t ⟨o.state, [.consumed bs] ++ o.out, o.fault⟩ := ⟨h.run, h.wires⟩

/-- Nothing happens at the transport. -/
theorem Does.idle (a : Adapter τ cap T) (r : Option (Fault ConnError)) : Does
    (.done a.core (match r with
      | none => .ok ()
      | some f => .error f)) a.transport ⟨a, [], r⟩ := ⟨rfl, rfl⟩

variable (a : Adapter τ cap T)

theorem write_does (s : Sent) : Does (a.core.write s.bytes) a.transport (a.write s) := by
  unfold write Adapter.write
  refine ⟨?_, ?_⟩
  · simp only [Program.run, Transport.answer]
    rcases Transport.writeAll a.transport s.bytes with ⟨t, e | u⟩ <;> rfl
  · simp only [wires, Program.log, Transport.answer]
    rcases Transport.writeAll a.transport s.bytes with ⟨t, e | u⟩ <;> rfl

theorem writeEach_does (ss : List Sent) : Does (a.core.writeEach ss) a.transport (a.writeEach ss) := by
  induction ss generalizing a with
  | nil => exact .idle a none
  | cons s ss ih => exact (write_does a s).andThen fun a => ih a

theorem send_does (op : Conn τ cap → Outcome (Conn τ cap) Sent ConnError) : Does (a.core.send op) a.transport (a.send op) := by
  unfold send Adapter.send
  have hop : op a.core.conn = op a.conn := rfl
  rw [hop]
  cases (op a.conn).fault with
  | none => exact writeEach_does ⟨(op a.conn).state, a.transport, a.rxBuf, a.rxLen⟩ (op a.conn).out
  | some f => exact .idle ⟨(op a.conn).state, a.transport, a.rxBuf, a.rxLen⟩ (some f)

theorem sendMove_does (R : Role τ) (mv : Move) : Does (a.core.sendMove R mv) a.transport (a.sendMove R mv) := by
  cases mv with
  | ready => exact send_does a _
  | welcome =>
    unfold sendMove Adapter.sendMove
    exact (send_does a _).andThen fun a => send_does a _

theorem compact_does (total : Nat) : Does (a.core.compact total) a.transport (a.compact total) := by
  unfold compact Adapter.compact
  by_cases h : total > 0
  · rw [if_pos h, if_pos h]
    have hs : slice (ε := ConnError) a.core.rxBuf.toList total a.core.rxLen = slice a.rxBuf.toList total a.rxLen := rfl
    rw [hs]
    cases slice (ε := ConnError) a.rxBuf.toList total a.rxLen with
    | error f => exact .idle a (some f)
    | ok left =>
      have hc : copyInto (ε := ConnError) a.core.rxBuf 0 left = copyInto a.rxBuf 0 left := rfl
      simp only [hc]
      cases copyInto (ε := ConnError) a.rxBuf 0 left with
      | error f => exact .idle a (some f)
      | ok buf => exact .idle ⟨a.conn, a.transport, buf, a.rxLen - total⟩ none
  · rw [if_neg h, if_neg h]
    exact .idle a none

theorem feedFailed_does (f : Fault ConnError) : Does (a.core.feedFailed f) a.transport (a.feedFailed f) := by
  unfold feedFailed Adapter.feedFailed
  by_cases h : f.aborts = false ∧ a.conn.state = .failed
  · have h' : f.aborts = false ∧ a.core.conn.state = .failed := h
    obtain ⟨hrun, hwires⟩ := send_does a Conn.sendError
    rw [if_pos h, if_pos h']
    refine ⟨?_, ?_⟩
    · rw [Program.run_bind, hrun]
      rfl
    · rw [wires, Program.log_bind, List.map_append]
      exact (List.append_nil _).trans hwires
  · have h' : ¬(f.aborts = false ∧ a.core.conn.state = .failed) := h
    rw [if_neg h, if_neg h']
    exact .idle a (some f)

theorem drainLoop_does (P : Policy τ) (tgt : Target) (fuel : Nat) : ∀ (a : Adapter τ cap T) (total : Nat),
    Does (drainLoop P tgt fuel a.core total) a.transport (Adapter.drainLoop P tgt fuel a total) := by
  induction fuel with
  | zero =>
    intro a total
    exact .idle a (some .hang)
  | succ fuel ih =>
    intro a total
    unfold drainLoop Adapter.drainLoop
    have hlen : a.core.rxLen = a.rxLen := rfl
    rw [hlen]
    by_cases h : total < a.rxLen
    · rw [if_pos h, if_pos h]
      have hs : slice (ε := ConnError) a.core.rxBuf.toList total a.rxLen = slice a.rxBuf.toList total a.rxLen := rfl
      rw [hs]
      cases slice (ε := ConnError) a.rxBuf.toList total a.rxLen with
      | error f => exact .idle a (some f)
      | ok input =>
        have hf : a.core.conn.feed P.role tgt input = a.conn.feed P.role tgt input := rfl
        simp only [hf]
        rcases a.conn.feed P.role tgt input with ⟨c, f | n⟩
        · exact feedFailed_does ⟨c, a.transport, a.rxBuf, a.rxLen⟩ f
        · simp only
          rw [Outcome.andThen_none rfl]
          refine .consumed ?_ _
          have hm : P.move a.core.conn.state c.state = P.move a.conn.state c.state := rfl
          simp only [hm]
          cases P.move a.conn.state c.state with
          | some m =>
            exact (sendMove_does ⟨c, a.transport, a.rxBuf, a.rxLen⟩ P.role m).andThen fun a => compact_does a _
          | none =>
            refine (send_does ⟨c, a.transport, a.rxBuf, a.rxLen⟩ Conn.sendPong).andThen fun a => ?_
            by_cases hn : n = 0
            · rw [if_pos hn, if_pos hn]
              exact compact_does a _
            · rw [if_neg hn, if_neg hn]
              exact ih a _
    · rw [if_neg h, if_neg h]
      exact compact_does a total

theorem drainBuffer_does (P : Policy τ) (tgt : Target) :
    Does (drainBuffer P tgt a.core) a.transport (Adapter.drainBuffer P tgt a) := drainLoop_does P tgt _ a 0

omit a in
/-- A read, and what is done with what it brings. -/
theorem read_does {c : AsyncAdapter τ cap} {k : Except Nat (List UInt8) → Future τ cap Unit} {t t' : T} {room : Nat}
    {r : Except Nat (List UInt8)} {ev : IoEvent} {o : Outcome (Adapter τ cap T) IoEvent ConnError}
    (hr : Transport.read t room = (t', r)) (hev : ev.wire = some (Request.wire ⟨.read room, r⟩)) (h : Does (k r) t' o) :
    Does (.ask c (.read room) k) t ⟨o.state, [ev] ++ o.out, o.fault⟩ := by
  refine ⟨?_, ?_⟩
  · simp only [Program.run, Transport.answer, hr]
    exact h.run
  · rw [List.singleton_append, List.filterMap_cons_some hev, ← h.wires]
    simp only [wires, Program.log, Transport.answer, hr]
    rfl

theorem readMore_does (P : Policy τ) (tgt : Target) : Does (readMore P tgt a.core) a.transport (Adapter.readMore P tgt a) := by
  unfold readMore Adapter.readMore
  have hlen : a.core.rxLen = a.rxLen := rfl
  rw [hlen]
  by_cases h : a.rxLen ≤ 512
  · rw [if_pos h, if_pos h]
    rcases hr : Transport.read a.transport (512 - a.rxLen) with ⟨t, kind | bs⟩
    · refine read_does (o := ⟨⟨a.conn, t, a.rxBuf, a.rxLen⟩, [], some (.err (.ioError kind))⟩) hr rfl ?_
      exact .idle ⟨a.conn, t, a.rxBuf, a.rxLen⟩ (some (.err (.ioError kind)))
    · cases bs with
      | nil =>
        refine read_does (o := ⟨⟨a.conn, t, a.rxBuf, a.rxLen⟩, [], some (.err (.ioError 0))⟩) hr rfl ?_
        exact .idle ⟨a.conn, t, a.rxBuf, a.rxLen⟩ (some (.err (.ioError 0)))
      | cons b bs =>
        simp only
        cases hc : copyInto (ε := ConnError) a.rxBuf a.rxLen (b :: bs) with
        | error f =>
          refine read_does (o := ⟨⟨a.conn, t, a.rxBuf, a.rxLen⟩, [], some f⟩) hr rfl ?_
          have hc' : copyInto (ε := ConnError) a.core.rxBuf a.rxLen (b :: bs) = .error f := hc
          simp only [hc']
          exact .idle ⟨a.conn, t, a.rxBuf, a.rxLen⟩ (some f)
        | ok buf =>
          refine read_does (o := Adapter.drainBuffer P tgt ⟨a.conn, t, buf, a.rxLen + (b :: bs).length⟩) hr rfl ?_
          have hc' : copyInto (ε := ConnError) a.core.rxBuf a.rxLen (b :: bs) = .ok buf := hc
          simp only [hc']
          exact drainBuffer_does ⟨a.conn, t, buf, a.rxLen + (b :: bs).length⟩ P tgt
  · rw [if_neg h, if_neg h]
    exact .idle a (some .panic)

theorem pollBuffer_does (P : Policy τ) (tgt : Target) :
    Does (pollBuffer P tgt a.core) a.transport (Adapter.pollBuffer P tgt a) := by
  unfold pollBuffer Adapter.pollBuffer
  have hlen : a.core.rxLen = a.rxLen := rfl
  rw [hlen]
  by_cases h : a.rxLen > 0
  · rw [if_pos h, if_pos h]
    refine (drainBuffer_does a P tgt).andThen fun a' => ?_
    have hlen' : a'.core.rxLen = a'.rxLen := rfl
    rw [hlen']
    by_cases he : P.eager = true ∨ a'.rxLen < a.rxLen
    · rw [if_pos he, if_pos he]
      exact .idle a' none
    · rw [if_neg he, if_neg he]
      exact readMore_does a' P tgt
  · rw [if_neg h, if_neg h]
    exact readMore_does a P tgt

/-- Over the transport `t` the future leaves what the driver leaves, and returns what it returns. -/
structure Gives {ρ : Type} (p : Program (AsyncAdapter τ cap) Request Request.Answer ρ) (t : T)
    (r : Adapter τ cap T × List IoEvent × ρ) : Prop where
  run : p.run Transport.answer t = (r.1.core, r.1.transport, r.2.2)
  wires : wires p t = r.2.1.filterMap IoEvent.wire

omit a in
/-- A value behind a future. -/
theorem Gives.bind {ρ ρ' : Type} {p : Program (AsyncAdapter τ cap) Request Request.Answer ρ} {t : T} {a : Adapter τ cap T}
    {tr : List IoEvent} {r : ρ} (h : Gives p t (a, tr, r))
    {f : AsyncAdapter τ cap → ρ → Program (AsyncAdapter τ cap) Request Request.Answer ρ'} {r' : ρ'}
    (hf : f a.core r = .done a.core r') :
    Gives (p.bind f) t (a, tr, r') := by
  have hlog : (p.bind f).log Transport.answer t = _ := Program.log_bind p f t
  have hrun : (p.bind f).run Transport.answer t = _ := Program.run_bind p f t
  obtain ⟨hr, hwires⟩ := h
  rw [hr] at hlog hrun
  simp only [hf, Program.run] at hrun
  simp only [hf, Program.log, List.append_nil] at hlog
  exact ⟨hrun, by rw [AsyncAdapter.wires, hlog]; exact hwires⟩

omit a in
/-- A value behind a future that may fail. -/
theorem Does.returning {p : Future τ cap Unit} {t : T} {o : Outcome (Adapter τ cap T) IoEvent ConnError} (h : Does p t o)
    {value : Adapter τ cap T → Bool} {f : AsyncAdapter τ cap → Bool} (hf : ∀ a, f a.core = value a) :
    Gives (p.andThen fun a _ => .done a (.ok (f a))) t (Adapter.returning o value) := by
  obtain ⟨a, tr, fault⟩ := o
  cases fault with
  | none =>
    have hp : Gives p t (a, tr, .ok ()) := ⟨h.run, h.wires⟩
    exact hp.bind (by rw [← hf])
  | some f =>
    have hp : Gives p t (a, tr, .error f) := ⟨h.run, h.wires⟩
    exact hp.bind rfl

theorem poll_gives (P : Policy τ) (tgt : Target) : Gives (poll P tgt a.core) a.transport (Adapter.poll P tgt a) := by
  unfold poll Adapter.poll
  have hst : a.core.conn = a.conn := rfl
  rw [hst]
  by_cases h : a.conn.state = .ready
  · rw [if_pos h, if_pos h]
    have hwrite := writeEach_does ⟨(a.conn.sendReady P.role).state, a.transport, a.rxBuf, a.rxLen⟩ (a.conn.sendReady P.role).out
    have hpoll := pollBuffer_does ⟨(a.conn.sendReady P.role).state, a.transport, a.rxBuf, a.rxLen⟩ P tgt
    cases (a.conn.sendReady P.role).fault with
    | none => exact hwrite.returning fun _ => rfl
    | some f =>
      rcases f with e | _ | _
      · cases e with
        | wrongState => exact hpoll.returning fun _ => rfl
        | _ => exact ⟨rfl, rfl⟩
      · exact ⟨rfl, rfl⟩
      · exact ⟨rfl, rfl⟩
  · rw [if_neg h, if_neg h]
    exact (pollBuffer_does a P tgt).returning fun _ => rfl

theorem publish_gives (P : Policy τ) (tgt : Target) (topic payload : List UInt8) :
    Gives (publish P tgt a.core topic payload) a.transport (Adapter.publish P tgt a topic payload) := by
  unfold publish Adapter.publish
  have hc : a.core.conn = a.conn := rfl
  rw [hc]
  rcases a.conn.publishHeaders P.role topic payload with f | _ | ⟨th, thN, ph, phN⟩
  · exact ⟨rfl, rfl⟩
  · exact ⟨rfl, rfl⟩
  · have hw := writeEach_does a [.piece (th.take thN), .piece topic, .piece (ph.take phN), .piece payload]
    simp only
    generalize a.writeEach _ = o at hw
    obtain ⟨a', tr, fault⟩ := o
    cases fault with
    | none => exact Gives.bind (r := .ok ()) ⟨hw.run, hw.wires⟩ rfl
    | some f => exact Gives.bind (r := .error f) ⟨hw.run, hw.wires⟩ rfl

/-- The future of a call, run to its end, is the call. -/
theorem call_step (P : Policy τ) (tgt : Target) (op : Adapter.Op) :
    Gives (call P tgt a.core op) a.transport (Adapter.step P tgt a op) := by
  cases op with
  | poll => exact Gives.bind (poll_gives a P tgt) rfl
  | publish topic payload => exact Gives.bind (publish_gives a P tgt topic payload) rfl

/-! ## Futures that are dropped -/

/-- A read or a write has failed. -/
def Failed : (q : Request) → q.Answer → Prop
  | .read _, r => ∃ kind : Nat, r = .error kind
  | .write _, r => ∃ e : WriteError, r = .error e

/-- A future ends at once when what it awaits has failed. -/
abbrev Frail {ρ : Type} (p : Future τ cap ρ) : Prop :=
  Program.Frail Failed (Program.Errs fun f => f.aborts = false) p

/-- A future that writes, and does nothing else to the transport. -/
structure Writes {ρ : Type} (p : Future τ cap ρ) : Prop where
  frail : Frail p
  asks : p.Asks fun q => q.isWrite = true

theorem Writes.done {ρ : Type} (a : AsyncAdapter τ cap) (r : Res ConnError ρ) : Writes (.done a r : Future τ cap ρ) :=
  ⟨trivial, trivial⟩

theorem Writes.andThen {ρ ρ' : Type} {p : Future τ cap ρ} {f : AsyncAdapter τ cap → ρ → Future τ cap ρ'} (h : Writes p)
    (hf : ∀ a v, Writes (f a v)) : Writes (p.andThen f) :=
  ⟨h.frail.andThen fun a v => (hf a v).frail, h.asks.andThen fun a v => (hf a v).asks⟩

section Writing

variable (a : AsyncAdapter τ cap)

theorem write_writes (bs : List UInt8) : Writes (a.write bs) := by
  refine ⟨⟨?_, ?_⟩, rfl, ?_⟩
  · rintro r ⟨e, rfl⟩
    exact ⟨_, ⟨_, rfl, rfl⟩, rfl⟩
  · rintro (e | u) <;> trivial
  · rintro (e | u) <;> trivial

theorem writeEach_writes (ss : List Sent) : Writes (a.writeEach ss) := by
  induction ss generalizing a with
  | nil => exact .done a _
  | cons s ss ih => exact (write_writes a _).andThen fun a _ => ih a

theorem send_writes (op : Conn τ cap → Outcome (Conn τ cap) Sent ConnError) : Writes (a.send op) := by
  unfold send
  cases (op a.conn).fault with
  | none => exact writeEach_writes _ _
  | some f => exact .done _ _

theorem sendMove_writes (R : Role τ) (mv : Move) : Writes (a.sendMove R mv) := by
  cases mv with
  | ready => exact send_writes a _
  | welcome => exact (send_writes a _).andThen fun a _ => send_writes a _

theorem compact_writes (total : Nat) : Writes (a.compact total) := by
  unfold compact
  split
  · split
    · exact .done _ _
    · split <;> exact .done _ _
  · exact .done _ _

theorem feedFailed_writes (f : Fault ConnError) : Writes (a.feedFailed f) := by
  unfold feedFailed
  by_cases h : f.aborts = false ∧ a.conn.state = .failed
  · rw [if_pos h]
    have hs := send_writes a Conn.sendError
    exact ⟨hs.frail.bind (fun _ _ => trivial) fun _ _ _ => ⟨_, ⟨f, h.1, rfl⟩, rfl⟩, hs.asks.bind fun _ _ => trivial⟩
  · rw [if_neg h]
    exact .done _ _

theorem drainLoop_writes (P : Policy τ) (tgt : Target) (fuel : Nat) : ∀ (a : AsyncAdapter τ cap) (total : Nat),
    Writes (drainLoop P tgt fuel a total) := by
  induction fuel with
  | zero =>
    intro a total
    exact .done _ _
  | succ fuel ih =>
    intro a total
    unfold drainLoop
    split
    · split
      · exact .done _ _
      · split
        · exact feedFailed_writes _ _
        · split
          · exact (sendMove_writes _ _ _).andThen fun a _ => compact_writes a _
          · refine (send_writes _ _).andThen fun a _ => ?_
            split
            · exact compact_writes a _
            · exact ih a _
    · exact compact_writes a total

theorem drainBuffer_writes (P : Policy τ) (tgt : Target) : Writes (drainBuffer P tgt a) := drainLoop_writes P tgt _ a 0

/-- A read that fails ends the future, and behind a read that does not there are only writes. -/
theorem readMore_frail (P : Policy τ) (tgt : Target) : Frail (readMore P tgt a) := by
  unfold readMore
  split
  · refine ⟨?_, ?_⟩
    · rintro r ⟨kind, rfl⟩
      exact ⟨_, ⟨_, rfl, rfl⟩, rfl⟩
    · rintro (kind | _ | ⟨b, bs⟩)
      · trivial
      · trivial
      · simp only
        split
        · trivial
        · exact (drainBuffer_writes _ P tgt).frail
  · trivial

theorem pollBuffer_frail (P : Policy τ) (tgt : Target) : Frail (pollBuffer P tgt a) := by
  unfold pollBuffer
  split
  · refine (drainBuffer_writes a P tgt).frail.andThen fun a' _ => ?_
    split
    · trivial
    · exact readMore_frail a' P tgt
  · exact readMore_frail a P tgt

theorem poll_frail (P : Policy τ) (tgt : Target) : Frail (poll P tgt a) := by
  unfold poll
  split
  · split
    · exact (writeEach_writes _ _).frail.andThen fun _ _ => trivial
    · exact (pollBuffer_frail _ P tgt).andThen fun _ _ => trivial
    · trivial
  · exact (pollBuffer_frail a P tgt).andThen fun _ _ => trivial

theorem publish_writes (P : Policy τ) (tgt : Target) (topic payload : List UInt8) : Writes (publish P tgt a topic payload) := by
  unfold publish
  split
  · exact .done _ _
  · exact .done _ _
  · exact (writeEach_writes a _).andThen fun _ _ => .done _ _

/-- Every call is frail: a failure of the transport ends it, and is no panic. -/
theorem call_frail (P : Policy τ) (tgt : Target) (op : Adapter.Op) :
    (call P tgt a op).Frail Failed fun r => ∃ f, f.aborts = false ∧ r.fault = some f := by
  cases op with
  | poll =>
    refine (poll_frail a P tgt).bind (fun _ _ => trivial) fun a r hr => ?_
    obtain ⟨f, hf, rfl⟩ := hr
    exact ⟨_, ⟨f, hf, rfl⟩, rfl⟩
  | publish topic payload =>
    refine (publish_writes a P tgt topic payload).frail.bind (fun _ _ => trivial) fun a r hr => ?_
    obtain ⟨f, hf, rfl⟩ := hr
    exact ⟨_, ⟨f, hf, rfl⟩, rfl⟩

end Writing

/-! ## Where a read is awaited -/

/-- A read is the first thing that is awaited behind an empty buffer. -/
theorem readMore_asked {c0 c : AsyncAdapter τ cap} {t0 t : T} {n room : Nat}
    (h : (readMore P tgt c0).asked Transport.answer n t0 = some (c, t, .read room)) : c = c0 ∧ t = t0 := by
  unfold readMore at h
  by_cases hle : c0.rxLen ≤ 512
  · rw [if_pos hle] at h
    cases n with
    | zero =>
      cases h
      exact ⟨rfl, rfl⟩
    | succ n =>
      simp only [Program.asked] at h
      generalize Transport.answer t0 (.read (512 - c0.rxLen)) = r at h
      obtain ⟨t1, kind | _ | ⟨b, bs⟩⟩ := r
      · cases h
      · cases h
      · simp only at h
        cases hc : copyInto (ε := ConnError) c0.rxBuf c0.rxLen (b :: bs) with
        | error f =>
          rw [hc] at h
          cases h
        | ok buf =>
          rw [hc] at h
          cases (drainBuffer_writes _ P tgt).asks.asked h
  · rw [if_neg hle] at h
    cases h

open Adapter

/-- A poll of a steady driver comes to a read with nothing done before. -/
theorem pollBuffer_asked {m : Mechanism} (L : P.Lawful m) {a : Adapter τ cap T} (s : Steady m a) {c : AsyncAdapter τ cap} {t : T}
    {n room : Nat} (h : (pollBuffer P tgt a.core).asked Transport.answer n a.transport = some (c, t, .read room)) :
    c = a.core ∧ t = a.transport := by
  unfold pollBuffer at h
  by_cases hpos : a.core.rxLen > 0
  · rw [if_pos hpos] at h
    rcases Program.asked_bind h with h | ⟨n', h⟩
    · cases (drainBuffer_writes _ P tgt).asks.asked h
    · rw [(drainBuffer_does a P tgt).run] at h
      cases hf : (Adapter.drainBuffer P tgt a).fault with
      | none =>
        have hlt : (Adapter.drainBuffer P tgt a).state.core.rxLen < a.core.rxLen := s.progress L tgt hpos hf
        simp only [hf, if_pos (Or.inr hlt)] at h
        cases h
      | some f =>
        simp only [hf] at h
        cases h
  · rw [if_neg hpos] at h
    exact readMore_asked h

/-- A call of a steady driver comes to a read with nothing done before. -/
theorem call_asked {m : Mechanism} (L : P.Lawful m) {a : Adapter τ cap T} (s : Steady m a) {op : Adapter.Op}
    {c : AsyncAdapter τ cap} {t : T} {n room : Nat}
    (h : (call P tgt a.core op).asked Transport.answer n a.transport = some (c, t, .read room)) :
    c = a.core ∧ t = a.transport := by
  cases op with
  | publish topic payload =>
    rcases Program.asked_bind h with h | ⟨n', h⟩
    · cases (publish_writes _ P tgt topic payload).asks.asked h
    · cases h
  | poll =>
    rcases Program.asked_bind h with h | ⟨n', h⟩
    · have hpoll : poll P tgt a.core = (pollBuffer P tgt a.core).andThen fun a _ => .done a (.ok a.established) := by
        unfold poll
        have hc : a.core.conn = a.conn := rfl
        rw [hc]
        by_cases hst : a.conn.state = .ready
        · rw [if_pos hst, sendReady_sent (ready_sent s.conn hst)]
          rfl
        · rw [if_neg hst]
      rw [hpoll] at h
      rcases Program.asked_bind h with h | ⟨n', h⟩
      · exact pollBuffer_asked L s h
      · revert h
        generalize (Program.run Transport.answer (pollBuffer P tgt a.core) a.transport).2.2 = r
        cases r <;> exact fun h => by cases h
    · cases h

end AsyncAdapter
end Mzmq
