import Mzmq.Theorems.Endpoint
import Mzmq.Theorems.ExactlyOnce

/-!
# Answers before reads

A driver reads from its transport with an empty buffer only: at that moment it has consumed all that it has received, and the
replies to it are accepted. So a peer that waits for an answer before it goes on is not kept waiting by a driver that waits for
the peer.

What the polls of a driver send is no more than what they consume, as long as the driver has not given up: a peer gets no more
bytes out of a driver than it puts in, apart from what the user publishes.
-/

namespace Mzmq

open Checked Consumer Conn Spelling

namespace Adapter

variable {σ τ T : Type} {cap : Nat} [Transport T] {P : Policy τ} {tgt : Target} {m : Mechanism}

/-- A steady driver that holds what was received and not consumed; a driver with a stuck connection holds something. -/
structure Level (m : Mechanism) (tr : List IoEvent) (a : Adapter τ cap T) : Prop where
  steady : Steady m a
  level : a.conn.Stuck ∧ 0 < a.rxLen ∨ consumedBytes tr ++ a.buffered = receivedBytes tr

omit [Transport T] in
/-- A driver with an empty buffer has consumed all that was received. -/
theorem Level.empty {tr : List IoEvent} {a : Adapter τ cap T} (l : Level m tr a) (h0 : a.rxLen = 0) :
    consumedBytes tr = receivedBytes tr := by
  rcases l.level with ⟨_, hpos⟩ | h
  · omega
  · rwa [buffered, h0, List.take_zero, List.append_nil] at h

/-- A drain keeps it so. -/
theorem Level.drain (L : P.Lawful m) (tgt : Target) {tr : List IoEvent} {a : Adapter τ cap T} (l : Level m tr a)
    (hpos : 0 < a.rxLen) (htakes : TakesAll (drainBuffer P tgt a).out)
    (hlive : ∀ f, (drainBuffer P tgt a).fault = some f → f.aborts = false) :
    Level m (tr ++ (drainBuffer P tgt a).out) (drainBuffer P tgt a).state := by
  refine ⟨l.steady.drain L tgt hpos hlive, ?_⟩
  by_cases hs : a.conn.Stuck
  · obtain ⟨e, he⟩ := drain_stuck P tgt hs hpos l.steady.fits
    obtain ⟨t, x, hf, _⟩ := a.feedFailed_spec (.err e)
    rw [he, hf]
    exact .inl ⟨hs, hpos⟩
  · have q : a.conn.Quiet := l.steady.conn.resolve_right hs
    have hlevel : consumedBytes tr ++ a.buffered = receivedBytes tr := l.level.resolve_left fun h => hs h.1
    obtain ⟨k, hd, _⟩ := drain_quiet L tgt q l.steady.mechanism l.steady.fits
    cases hd.ending with
    | done _ _ left _ _ =>
      refine .inr ?_
      rw [consumedBytes_append, receivedBytes_append, hd.consumed, hd.received, List.append_nil, ← hlevel, left, List.append_assoc,
        List.take_append_drop]
    | refused s e _ event => exact absurd ⟨e, event⟩ (htakes s)
    | failed f _ _ fault _ buffer conn =>
      rcases conn with hab | hstuck | ⟨_, h0, _⟩
      · rw [hlive f fault] at hab
        cases hab
      · exact .inl ⟨hstuck, by rw [buffer.2]; exact hpos⟩
      · refine .inr ?_
        rw [consumedBytes_append, receivedBytes_append, hd.consumed, hd.received, h0, List.take_zero, List.append_nil,
          List.append_nil, ← hlevel, buffered, buffered, buffer.1, buffer.2]

/-- A publish reads nothing. -/
theorem publish_reads (P : Policy τ) (tgt : Target) (a : Adapter τ cap T) (key payload : List UInt8) :
    ∀ e ∈ (a.publish P tgt key payload).2.1, e.isRead = false := by
  unfold Adapter.publish
  split
  · simp
  · simp
  · rename_i th thN ph phN _
    rcases a.writeEach_cases [.piece (th.take thN), .piece key, .piece (ph.take phN), .piece payload] with
      ⟨t, hw, _⟩ | ⟨t, done, s, left, e, _, hw, _⟩
    · simp only [hw, List.forall_mem_map]
      exact fun _ _ => rfl
    · simp only [hw]
      intro e' he
      rcases List.mem_append.mp he with he | he
      · obtain ⟨s', _, rfl⟩ := List.mem_map.mp he
        rfl
      · rw [List.mem_singleton.mp he]
        rfl

/-- A read among events without one is the first of them, if it stands in front. -/
theorem isRead_first {x p q : List IoEvent} {e0 e : IoEvent} (hx : ∀ e ∈ x, e.isRead = false) (heq : e0 :: x = p ++ e :: q)
    (he : e.isRead = true) : p = [] := by
  cases p with
  | nil => rfl
  | cons e1 p =>
    obtain ⟨_, rfl⟩ := List.cons.inj heq
    rw [hx e (by simp)] at he
    cases he

/-- Every call keeps it so, and reads, if it does, before anything else. -/
theorem Level.step (L : P.Lawful m) (tgt : Target) {tr : List IoEvent} {a : Adapter τ cap T} (l : Level m tr a) (op : Op)
    (htakes : TakesAll (Adapter.step P tgt a op).2.1) :
    (halts (Adapter.step P tgt a op).2 = false → Level m (tr ++ (Adapter.step P tgt a op).2.1) (Adapter.step P tgt a op).1) ∧
      ∀ p e q, (Adapter.step P tgt a op).2.1 = p ++ e :: q → e.isRead = true → p = [] ∧ consumedBytes tr = receivedBytes tr := by
  have hsteady := l.steady.step L tgt op
  -- Without a read, there is nothing to show of one.
  have hnone : ∀ x : List IoEvent, (∀ e ∈ x, e.isRead = false) → ∀ p e q, x = p ++ e :: q → e.isRead = true →
      p = [] ∧ consumedBytes tr = receivedBytes tr := by
    rintro x hx p e q rfl he
    rw [hx e (by simp)] at he
    cases he
  have hsame : ∀ x, receivedBytes x = [] → consumedBytes x = [] → a.conn.Stuck ∧ 0 < a.rxLen ∨
      consumedBytes (tr ++ x) ++ a.buffered = receivedBytes (tr ++ x) := by
    intro x hrec hcons
    rw [consumedBytes_append, receivedBytes_append, hrec, hcons, List.append_nil, List.append_nil]
    exact l.level
  cases op with
  | publish key payload =>
    obtain ⟨t, h, _, hrec, hcons, _⟩ := a.publish_spec P tgt key payload
    refine ⟨fun hl => ⟨hsteady hl, ?_⟩, hnone _ (publish_reads P tgt a key payload)⟩
    simp only [Adapter.step, h]
    exact hsame _ hrec hcons
  | poll =>
    simp only [Adapter.step, halts, Returned.fault] at htakes hsteady ⊢
    rcases l.steady.poll_cases L tgt with ⟨hpos, hp⟩ | ⟨h0, t, kind, _, hp⟩ | ⟨h0, t, _, hp⟩ |
      ⟨h0, t, bs, a', _, _, hc, _, hpos, hfit, hbuf, hp⟩
    · obtain ⟨e1, e2, e3⟩ := returning_spec (drainBuffer P tgt a) established
      rw [hp, e2] at htakes
      rw [hp, e1, e2, e3]
      refine ⟨fun hl => l.drain L tgt hpos htakes ?_, hnone _ (l.steady.drain_deeds L tgt hpos htakes).1⟩
      intro f hf
      rw [hf] at hl
      exact hl
    · rw [hp] at hsteady ⊢
      exact ⟨fun hl => ⟨hsteady hl, hsame _ rfl rfl⟩, fun p e q heq he => ⟨isRead_first (by simp) heq he, l.empty h0⟩⟩
    · rw [hp] at hsteady ⊢
      exact ⟨fun hl => ⟨hsteady hl, hsame _ rfl rfl⟩, fun p e q heq he => ⟨isRead_first (by simp) heq he, l.empty h0⟩⟩
    · have hread : Level m (tr ++ [.received bs]) a' := by
        refine ⟨⟨by rw [hc]; exact l.steady.conn, by rw [hc]; exact l.steady.mechanism, hfit⟩, .inr ?_⟩
        have hcons : consumedBytes [.received bs] = [] := rfl
        have hrec : receivedBytes [.received bs] = bs := List.append_nil bs
        rw [consumedBytes_append, receivedBytes_append, hcons, hrec, List.append_nil, hbuf, l.empty h0]
      rw [Outcome.andThen_none rfl] at hp
      obtain ⟨e1, e2, e3⟩ := returning_spec (⟨(drainBuffer P tgt a').state,
        [.received bs] ++ (drainBuffer P tgt a').out, (drainBuffer P tgt a').fault⟩ : Outcome _ _ _) established
      rw [hp, e2] at htakes
      rw [hp, e1, e2, e3]
      refine ⟨fun hl => ?_, fun p e q heq he => ⟨isRead_first (hread.steady.drain_deeds L tgt hpos htakes.append.2).1 heq he,
        l.empty h0⟩⟩
      rw [← List.append_assoc]
      refine hread.drain L tgt hpos htakes.append.2 ?_
      intro f hf
      rw [hf] at hl
      exact hl

/-- In every run in which the transport takes all that is written, a read is the first event of a call, and all that was received
before it is consumed. -/
theorem reads_of_run (L : P.Lawful m) {R : Role τ} {auth : Auth} {t : T} {tr : List IoEvent} {a0 a : Adapter τ cap T}
    (h0 : start (Conn.init R m auth) t = (tr, .ok a0)) {h : List (Call τ cap T)} (hr : DriverRun P tgt a0 h a)
    (htakes : TakesAll (trace h)) : ∀ p e q, trace h = p ++ e :: q → e.isRead = true →
      consumedBytes p = receivedBytes p ∧ ∃ h1 h2, h = h1 ++ h2 ∧ trace h1 = p := by
  have hinv : TakesAll (trace h) → (∀ p e q, trace h = p ++ e :: q → e.isRead = true →
      consumedBytes p = receivedBytes p ∧ ∃ h1 h2, h = h1 ++ h2 ∧ trace h1 = p) ∧
      ((∀ ev ∈ h, halts ev.res = false) → Level m (trace h) a) := by
    refine hr.invariant (fun h a => TakesAll (trace h) → (∀ p e q, trace h = p ++ e :: q → e.isRead = true →
      consumedBytes p = receivedBytes p ∧ ∃ h1 h2, h = h1 ++ h2 ∧ trace h1 = p) ∧
      ((∀ ev ∈ h, halts ev.res = false) → Level m (trace h) a)) ?_ ?_
    · intro _
      obtain ⟨_, _, _, _, hlen, _⟩ := start_spec h0
      refine ⟨fun p e q heq => absurd heq (by simp), fun _ => ⟨start_steady h0, .inr ?_⟩⟩
      rw [buffered, hlen, List.take_zero, List.append_nil]
      rfl
    · intro h a op hlive ih htakes
      rw [trace_snoc] at htakes ⊢
      obtain ⟨hreads, hlevel⟩ := ih htakes.append.1
      obtain ⟨hlevel', hfirst⟩ := (hlevel hlive).step L tgt op htakes.append.2
      refine ⟨fun p e q heq he => ?_, fun hl => hlevel' (hl _ (List.mem_append_right _ (List.mem_singleton_self _)))⟩
      rcases List.append_eq_append_iff.mp heq with ⟨x, rfl, hx⟩ | ⟨x, hx, hq⟩
      · -- The read is one of the last call.
        obtain ⟨rfl, hconsumed⟩ := hfirst x e q hx he
        rw [List.append_nil]
        exact ⟨hconsumed, h, _, rfl, rfl⟩
      · cases x with
        | nil =>
          -- It is the first event of the last call.
          rw [List.append_nil] at hx
          rw [List.nil_append] at hq
          obtain ⟨_, hconsumed⟩ := hfirst [] e q hq.symm he
          rw [← hx]
          exact ⟨hconsumed, h, _, rfl, rfl⟩
        | cons e1 x =>
          obtain ⟨rfl, _⟩ := List.cons.inj hq
          obtain ⟨hconsumed, h1, h2, rfl, hp⟩ := hreads p e x hx he
          exact ⟨hconsumed, h1, h2 ++ [_], (List.append_assoc _ _ _), hp⟩
  exact (hinv htakes).1

end Adapter

open Adapter

/-- In every run of a driver in which the transport takes all that is written and the lengths of every message add up, what the
driver has received at the moment of a read is consumed, and the transport has accepted the replies of the endpoint to it. -/
theorem answers_before_reads (V : Type → Nat → Type) [FixedVec V] (T : Type) [Transport T] (tgt : Target)
    (tableCap nameCap frameCap : Nat) (check : List UInt8 → List UInt8 → Bool) (t : T) :
    EveryDriver V tgt tableCap nameCap frameCap check t fun E P check m _ h _ => TakesAll (trace h) → SumsFit tgt h →
      ∀ p e q, trace h = p ++ e :: q → e.isRead = true → consumedBytes p = receivedBytes p ∧
        ∃ h1 is ws s, h1 <+: h ∧ trace h1 = p ∧ Enacts E P.role check tgt m h1 is ws s := by
  refine everyDriver_of_lawful fun L I h0 hr htakes hfit p e q heq he => ?_
  obtain ⟨hconsumed, h1, h2, rfl, hp⟩ := reads_of_run L h0 hr htakes p e q heq he
  obtain ⟨is, ws, s, hm, _⟩ := enacts_of_run L I h0 hr htakes hfit
  obtain ⟨is1, ws1, s1, hm1, _⟩ := hm.take
  exact ⟨hconsumed, h1, is1, ws1, s1, List.prefix_append _ _, hp, hm1⟩

/-- At the second read, which returns JOIN and PING, the greeting and READY are consumed, and our READY is accepted. -/
theorem answers_before_reads_joined :
    ∃ p e q, trace joiningCalls = p ++ e :: q ∧ e.isRead = true ∧ (receivedBytes p).length = 92 ∧
      consumedBytes p = receivedBytes p := by
  have hevents : trace joiningCalls = (trace joiningCalls).take 4 ++
      .received (Peer.dishJoin [0x61] ++ Peer.commandFrame pingName [0, 9, 0x42]) :: (trace joiningCalls).drop 5 := by
    decide +kernel
  refine ⟨_, _, _, hevents, rfl, by decide +kernel, ?_⟩
  exact ((answers_before_reads BVec Slices ⟨.w32, true⟩ 2 8 32 (fun _ _ => true) joiningPeer).radioAsync _ _ rfl _ _
    joiningCalls_run joiningCalls_taken joiningCalls_fit _ _ _ hevents rfl).1

/-! ## What goes out for what comes in -/

section Endpoint

variable {σ : Type} {E : Endpoint σ} {m : Mechanism} {a b : Stage σ}

/-- The fewest bytes in which the peer can say an occasion. -/
def Occasion.least : Occasion → Nat
  | .greeted _ => greetingLen
  | .heard f => f.body.length + 2
  | _ => 0

theorem Occasion.least_le {τ : Type} {R : Role τ} {check : List UInt8 → List UInt8 → Bool} {tgt : Target} {cap : Nat}
    (i : Occasion) {wire : List UInt8} (h : i.IsWire R check tgt cap m wire) : i.least ≤ wire.length := by
  cases i with
  | greeted minor => exact (Greeted.length h).ge
  | heard f =>
    obtain ⟨⟨flags, size, _, hlen, rfl, _⟩, _⟩ := h
    have : 1 ≤ size.length := by
      rw [hlen]
      cases flagLong flags <;> decide
    simp only [Occasion.least, List.length_cons, List.length_append]
    omega
  | _ => exact Nat.zero_le _

/-- What a PLAIN endpoint still owes for the greeting. -/
def Mechanism.credit (m : Mechanism) (s : Stage σ) : Nat :=
  match m, s with
  | .plain, .opening _ => greetingLen
  | _, _ => 0

/-- A PONG is no longer than its PING. -/
theorem pongsTo_length (minor : UInt8) (f : DecodedFrame) : (wireOf (pongsTo minor f)).length ≤ f.body.length + 2 := by
  unfold pongsTo
  split
  · unfold pings pingContext
    by_cases hp : f.isCommand = true ∧ (commandBody pingName []).isPrefixOf f.body = true
    · have hle : (commandBody pingName []).length ≤ f.body.length := (List.isPrefixOf_iff_prefix.mp hp.2).length_le
      have hname : (commandBody pingName []).length = 5 := rfl
      simp only [List.filterMap_cons, if_pos hp, List.filterMap_nil, List.map_cons, List.map_nil, wireOf_single]
      rw [frameBytes_pong (List.length_take_le 16 _)]
      simp only [Conn.pongFrame, pongName, List.length_cons, List.length_append, List.length_nil, List.length_take,
        List.length_drop]
      omega
    · simp only [List.filterMap_cons, if_neg hp, List.filterMap_nil, List.map_nil, wireOf, List.flatMap_nil, List.length_nil,
        Nat.zero_le]
  · simp [wireOf]

/-- What is sent for an occasion that is not the user's is paid for by what the peer has said, unless the endpoint gives up. -/
theorem Endpoint.Step.pays (hE : (frameBytes E.ready).length ≤ 32) {i : Occasion} {w : Reply} (h : E.Step m a i w b)
    (hi : i.isPublish = false) (hb : b ≠ .failed) :
    a ≠ .failed ∧ (wireOf w.frames).length + m.credit b ≤ i.least + m.credit a := by
  have hgreeting : greetingLen = 64 := rfl
  cases h with
  | greeted =>
    rw [wireOf_single]
    refine ⟨by simp, ?_⟩
    simp only [Mechanism.credit, Occasion.least]
    omega
  | greetedPlain => exact ⟨by simp, Nat.le_of_eq (Nat.zero_add _)⟩
  | hello =>
    have hlen : (wireOf [command welcomeName [], E.ready]).length = 10 + (frameBytes E.ready).length := by
      rw [wireOf, List.flatMap_cons, List.flatMap_singleton, frameBytes_welcome, List.length_append]
      rfl
    refine ⟨by simp, ?_⟩
    simp only [Mechanism.credit, Occasion.least]
    omega
  | ready => exact ⟨by simp, Nat.le_refl _⟩
  | readyPlain => exact ⟨by simp, Nat.le_refl _⟩
  | @heard _ minor kept f =>
    have hpong := pongsTo_length minor f
    refine ⟨by simp, ?_⟩
    cases m <;> exact hpong
  | gaveUp => exact absurd rfl hb
  | wanted => cases hi
  | unwanted => cases hi
  | early => cases hi

end Endpoint

namespace Adapter

variable {σ τ T : Type} {cap : Nat} {E : Endpoint σ} {R : Role τ} {check : List UInt8 → List UInt8 → Bool} {tgt : Target}
  {m : Mechanism}

/-- What the polls of a run have sent. -/
def polledBytes (h : List (Call τ cap T)) : List UInt8 := acceptedBytes (trace (h.filter fun ev => ev.op = .poll))

/-- What the polls have sent is paid for by the occasions. -/
theorem pays_of_enacts (hE : (frameBytes E.ready).length ≤ 32) {h : List (Call τ cap T)} {is : List Occasion} {ws : List Reply}
    {s : Stage σ} (hm : Enacts E R check tgt m h is ws s) (hs : s ≠ .failed) :
    (polledBytes h).length + m.credit s ≤ (is.map Occasion.least).sum := by
  induction hm with
  | nil => cases m <;> exact Nat.le_refl _
  | @snoc h is js ws us b c ev _ hpath hsees _ ih =>
    obtain ⟨hcall, hacc⟩ := hsees
    rw [List.map_append, List.sum_append]
    cases hop : ev.op with
    | poll =>
      rw [hop] at hcall
      have hpays := (hpath.restrict (fun i => i.isPublish = false) hcall.1).accounts (fun s => s ≠ .failed)
        (fun w => (wireOf w.frames).length) Occasion.least m.credit (fun a k w b hk hb => hk.1.pays hE hk.2 hb) hs
      have hlen : (us.map fun w => (wireOf w.frames).length).sum = (wireOf (framesOf us)).length := by
        rw [framesOf, wireOf, List.flatMap_assoc, List.length_flatMap]
        rfl
      have hpolled : polledBytes (h ++ [ev]) = polledBytes h ++ wireOf (framesOf us) := by
        rw [polledBytes, List.filter_append, trace, List.flatMap_append, acceptedBytes_append]
        simp only [List.filter_cons, hop, decide_true, if_true, List.filter_nil, List.flatMap_singleton, hacc]
        rfl
      obtain ⟨hb, hpays⟩ := hpays
      have hih := ih hb
      rw [hlen] at hpays
      rw [hpolled, List.length_append]
      omega
    | publish key payload =>
      rw [hop] at hcall
      obtain ⟨rfl, _⟩ := hcall
      have hpolled : polledBytes (h ++ [ev]) = polledBytes h := by
        simp [polledBytes, List.filter_append, hop]
      have hstay : c = b := by
        cases hpath with
        | cons hstep hrest =>
        cases hrest
        cases hstep <;> rfl
      have hih := ih (hstay ▸ hs)
      rw [hpolled, hstay]
      exact Nat.le_trans hih (Nat.le_add_right _ _)

end Adapter

open Adapter

/-- In every run of a driver in which the transport takes all that is written, the lengths of every message add up and no call
panics, the polls send no more bytes than they consume, unless the connection has failed. -/
theorem polls_never_amplify (V : Type → Nat → Type) [FixedVec V] (T : Type) [Transport T] (tgt : Target)
    (tableCap nameCap frameCap : Nat) (check : List UInt8 → List UInt8 → Bool) (t : T) :
    EveryDriver V tgt tableCap nameCap frameCap check t fun _ _ _ _ _ h d => TakesAll (trace h) → SumsFit tgt h →
      (∀ ev ∈ h, halts ev.res = false) → d.conn.state ≠ .failed →
      (polledBytes h).length ≤ (consumedBytes (trace h)).length := by
  refine everyDriver_of_lawful fun L I h0 hr htakes hfit hlive hst => ?_
  obtain ⟨is, ws, s, hm, _, _, c, _, _, hstands, hconn⟩ := enacts_of_run L I h0 hr htakes hfit
  obtain ⟨rfl, _⟩ := hconn hlive
  have hs : s ≠ .failed := by
    rintro rfl
    cases hstands with
    | failed hf => exact hst hf
  have hready := I.lawful.fits
  rw [I.ready] at hready
  have hpays := pays_of_enacts hready hm hs
  obtain ⟨u, v, hc, hspell, _⟩ := hm.rel
  have hsum := hspell.sum_le Occasion.least fun i wire hw => i.least_le hw
  rw [hc, List.length_append]
  omega

/-- The polls of `joiningCalls` send READY and a PONG for 110 bytes. -/
theorem polls_never_amplify_joined :
    polledBytes joiningCalls = radioReadyFrame ++ Conn.pongFrame [0x42] ∧
      (polledBytes joiningCalls).length ≤ (consumedBytes (trace joiningCalls)).length :=
  ⟨by decide +kernel, (polls_never_amplify BVec Slices ⟨.w32, true⟩ 2 8 32 (fun _ _ => true) joiningPeer).radioAsync _ _ rfl _ _
    joiningCalls_run joiningCalls_taken joiningCalls_fit (by decide +kernel) (by decide +kernel)⟩

end Mzmq
