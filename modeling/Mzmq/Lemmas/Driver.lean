import Mzmq.Delivery
import Mzmq.Lemmas.Steady
import Mathlib.Logic.Relation

/-!
# Draining and polling

What one drain of the buffer can do (`Drains`), and what one poll can do (`poll_cases`). A driver whose connection is quiet or
stuck (`Steady`) reads only when its buffer is empty.
-/

namespace Mzmq

open Checked Consumer Conn

/-! ## Traces -/

section Traces

variable (x y : List IoEvent) (ss : List Sent)

@[simp] theorem consumedBytes_append : consumedBytes (x ++ y) = consumedBytes x ++ consumedBytes y := List.flatMap_append
@[simp] theorem receivedBytes_append : receivedBytes (x ++ y) = receivedBytes x ++ receivedBytes y := List.flatMap_append
@[simp] theorem sentIn_append : sentIn (x ++ y) = sentIn x ++ sentIn y := List.filterMap_append

@[simp] theorem consumedBytes_sent : consumedBytes (ss.map .sent) = [] := by
  induction ss with
  | nil => rfl
  | cons s ss ih => exact ih

@[simp] theorem receivedBytes_sent : receivedBytes (ss.map .sent) = [] := by
  induction ss with
  | nil => rfl
  | cons s ss ih => exact ih

@[simp] theorem readFailedIn_append : readFailedIn (x ++ y) = (readFailedIn x || readFailedIn y) := List.any_append

@[simp] theorem readFailedIn_sent : readFailedIn (ss.map .sent) = false := by
  induction ss with
  | nil => rfl
  | cons s ss ih => exact ih

@[simp] theorem sentIn_sent : sentIn (ss.map .sent) = ss := by
  induction ss with
  | nil => rfl
  | cons s ss ih => exact congrArg (s :: ·) ih

end Traces

theorem TakesReplies.append {x y : List IoEvent} (h : TakesReplies (x ++ y)) : TakesReplies x ∧ TakesReplies y := by
  constructor
  · rintro s ⟨e, he⟩
    exact h s ⟨e, List.mem_append_left _ he⟩
  · rintro s ⟨e, he⟩
    exact h s ⟨e, List.mem_append_right _ he⟩

/-- A failed read is seen in the trace. -/
theorem readFailedIn_of_mem {tr : List IoEvent} {kind : Nat} (h : .readFailed kind ∈ tr) : readFailedIn tr = true :=
  List.any_eq_true.mpr ⟨_, h, rfl⟩

/-- The condition, event by event. -/
theorem takesReplies_of_all {tr : List IoEvent}
    (h : (tr.all fun | .sendFailed s _ => !s.isReadyOrPong | _ => true) = true) : TakesReplies tr := by
  rintro s ⟨e, he⟩
  simpa using List.all_eq_true.mp h _ he

namespace Adapter

section Histories

variable {τ T : Type} {cap : Nat}

@[simp] theorem trace_nil : trace ([] : List (Call τ cap T)) = [] := rfl

theorem trace_snoc (h : List (Call τ cap T)) (ev : Call τ cap T) : trace (h ++ [ev]) = trace h ++ ev.res.1 := by
  simp [trace]

end Histories

variable {τ T : Type} {cap : Nat}

/-! ## The buffer -/

theorem buffered_length {a : Adapter τ cap T} (h : a.rxLen ≤ 512) : a.buffered.length = a.rxLen := by
  rw [buffered, List.length_take, a.rxBuf.toList_length]
  exact Nat.min_eq_left h

/-- The part of the buffer that is not consumed. -/
theorem slice_buffered {a : Adapter τ cap T} {total : Nat} (h : total ≤ a.rxLen) (h' : a.rxLen ≤ 512) :
    slice (ε := ConnError) a.rxBuf.toList total a.rxLen = .ok (a.buffered.drop total) := by
  rw [slice_ok h (by rw [a.rxBuf.toList_length]; exact h'), buffered, List.drop_take]

/-- Compaction drops what is consumed, and nothing else. -/
theorem compact_spec {a : Adapter τ cap T} {total : Nat} (h : total ≤ a.rxLen) (h' : a.rxLen ≤ 512) :
    ∃ a', a.compact total = ⟨a', [], none⟩ ∧ a'.conn = a.conn ∧ a'.transport = a.transport ∧ a'.rxLen ≤ 512 ∧
      a'.buffered = a.buffered.drop total := by
  unfold compact
  by_cases hpos : total > 0
  · have hlen : (a.buffered.drop total).length = a.rxLen - total := by rw [List.length_drop, buffered_length h']
    obtain ⟨buf, hc, hb⟩ := copyInto_ok (ε := ConnError) a.rxBuf 0 (a.buffered.drop total) (by omega)
    rw [if_pos hpos, slice_buffered h h']
    simp only [hc]
    refine ⟨_, rfl, rfl, rfl, ?_, ?_⟩
    · exact Nat.le_trans (Nat.sub_le _ _) h'
    · have ht := splice_take a.rxBuf.toList (a.buffered.drop total) (Nat.zero_le _)
      rw [Nat.zero_add, hlen, List.take_zero, List.nil_append] at ht
      simp only [buffered] at hb ht ⊢
      rw [hb, ht]
  · have h0 : total = 0 := by omega
    rw [if_neg hpos]
    exact ⟨a, rfl, rfl, rfl, h', by rw [h0, List.drop_zero]⟩

/-! ## Writing -/

variable [Transport T]

/-- A transport that was only written to in between. -/
def Wrote (t t' : T) : Prop := Relation.ReflTransGen (fun t t' => ∃ bs, t' = (Transport.writeAll t bs).1) t t'

/-- The transport has refused a write. -/
def Refusal (T : Type) [Transport T] : Prop := ∃ (t : T) (bs : List UInt8) (e : WriteError), (Transport.writeAll t bs).2 = .error e

/-- The driver with another connection and another transport: the buffer is the same. -/
def moved (a : Adapter τ cap T) (c : Conn τ cap) (t : T) : Adapter τ cap T := { a with conn := c, transport := t }

/-- A write is taken or refused. -/
theorem write_cases (a : Adapter τ cap T) (s : Sent) :
    (∃ t, a.write s = ⟨a.moved a.conn t, [.sent s], none⟩ ∧ Wrote a.transport t) ∨
    ∃ t e, a.write s = ⟨a.moved a.conn t, [.sendFailed s e], some (.err (.ioError e.kind))⟩ ∧
      Wrote a.transport t ∧ Refusal T ∧ e.accepted ≤ s.bytes.length := by
  unfold write
  rcases hw : Transport.writeAll a.transport s.bytes with ⟨t, e | u⟩
  · refine .inr ⟨t, e, rfl, .single ⟨s.bytes, ?_⟩, ⟨a.transport, s.bytes, e, ?_⟩, Transport.write_le hw⟩
    · rw [hw]
    · rw [hw]
  · refine .inl ⟨t, rfl, .single ⟨s.bytes, ?_⟩⟩
    rw [hw]

/-- An operation that gives nothing to write. -/
theorem send_none {a : Adapter τ cap T} {op : Conn τ cap → Outcome (Conn τ cap) Sent ConnError} {c : Conn τ cap}
    (h : op a.conn = ⟨c, [], none⟩) : a.send op = ⟨a.moved c a.transport, [], none⟩ := by
  simp only [send, h, writeEach, moved]

/-- An operation that gives one thing to write. -/
theorem send_one {a : Adapter τ cap T} {op : Conn τ cap → Outcome (Conn τ cap) Sent ConnError} {c : Conn τ cap} {s : Sent}
    (h : op a.conn = ⟨c, [s], none⟩) : a.send op = (a.moved c a.transport).write s := by
  simp only [send, h, writeEach]
  exact Outcome.andThen_stop _

/-! ## Policies -/

end Adapter

/-- What the policy of a driver has to do for the connections of a mechanism. -/
structure Policy.Lawful {τ : Type} (P : Policy τ) (m : Mechanism) : Prop where
  role : P.role.Lawful
  same : ∀ s, P.move s s = none
  established : ∀ s, P.move s .established = none
  ready : m = .null → P.move .greeting .ready = some .ready
  hello : m = .plain → P.move .greeting .plainHello = none
  welcome : m = .plain → P.move .plainHello .plainReady = some .welcome

theorem Driver.policy_lawful {V : Type → Nat → Type} [FixedVec V] {subCap prefixCap : Nat} (m : Mechanism) :
    (Driver.policy : Policy (SubTable V subCap prefixCap)).Lawful m where
  role := Connection.role_lawful
  same := fun s => by cases s <;> rfl
  established := fun s => by cases s <;> rfl
  ready := fun _ => rfl
  hello := fun _ => rfl
  welcome := fun _ => rfl

theorem RadioDriver.policy_lawful {V : Type → Nat → Type} [FixedVec V] {groupCap groupLenCap : Nat} :
    (RadioDriver.policy : Policy (GroupTable V groupCap groupLenCap)).Lawful .null where
  role := RadioConnection.role_lawful
  same := fun s => by cases s <;> rfl
  established := fun s => by cases s <;> rfl
  ready := fun _ => rfl
  hello := fun h => by cases h
  welcome := fun h => by cases h

theorem RadioDriver.asyncPolicy_lawful {V : Type → Nat → Type} [FixedVec V] {groupCap groupLenCap : Nat} :
    (RadioDriver.asyncPolicy : Policy (GroupTable V groupCap groupLenCap)).Lawful .null where
  role := RadioConnection.role_lawful
  same := fun s => by cases s <;> rfl
  established := fun s => by cases s <;> rfl
  ready := fun _ => rfl
  hello := fun h => by cases h
  welcome := fun h => by cases h

namespace Adapter

variable {τ T : Type} {cap : Nat} [Transport T] {P : Policy τ} {tgt : Target} {m : Mechanism}

/-! ## The answer to a feed -/

/-- What a driver does after a feed, going on with `brk` when it has sent a part of the handshake, and else with `cont`. -/
def answer (P : Policy τ) (prev : State) (brk cont : Adapter τ cap T → Outcome (Adapter τ cap T) IoEvent ConnError)
    (a : Adapter τ cap T) : Outcome (Adapter τ cap T) IoEvent ConnError :=
  match P.move prev a.conn.state with
  | some mv => (a.sendMove P.role mv).andThen brk
  | none => (a.send Conn.sendPong).andThen cont

/-- A driver has sent `sent` and goes on with `k`. -/
def Went (a : Adapter τ cap T) (c : Conn τ cap) (sent : List Sent)
    (k : Adapter τ cap T → Outcome (Adapter τ cap T) IoEvent ConnError)
    (o : Outcome (Adapter τ cap T) IoEvent ConnError) : Prop :=
  ∃ t, Wrote a.transport t ∧ o = Outcome.andThen ⟨a.moved c t, sent.map .sent, none⟩ k

/-- A write was refused: of READY or PONG, with the connection quiet, or of WELCOME, which leaves it stuck. -/
def Gave (a : Adapter τ cap T) (o : Outcome (Adapter τ cap T) IoEvent ConnError) : Prop :=
  ∃ (c : Conn τ cap) (t : T) (sent : List Sent) (s : Sent) (e : WriteError),
    o = ⟨a.moved c t, sent.map .sent ++ [.sendFailed s e], some (.err (.ioError e.kind))⟩ ∧
    Wrote a.transport t ∧ Refusal T ∧ c.mechanism = a.conn.mechanism ∧ (s.isReadyOrPong = true ∧ c.Quiet ∨ c.Stuck)

/-- Sending one thing goes well, or it is refused. -/
theorem send_one_cases {a : Adapter τ cap T} {op : Conn τ cap → Outcome (Conn τ cap) Sent ConnError} {c : Conn τ cap}
    {s : Sent} (h : op a.conn = ⟨c, [s], none⟩) (hm : c.mechanism = a.conn.mechanism)
    (hc : s.isReadyOrPong = true ∧ c.Quiet ∨ c.Stuck) (k : Adapter τ cap T → Outcome (Adapter τ cap T) IoEvent ConnError) :
    Went a c [s] k ((a.send op).andThen k) ∨ Gave a ((a.send op).andThen k) := by
  rw [send_one h]
  rcases (a.moved c a.transport).write_cases s with ⟨t, hw, ht⟩ | ⟨t, kind, hw, ht, hr, _⟩
  · rw [hw]
    exact .inl ⟨t, ht, rfl⟩
  · rw [hw]
    exact .inr ⟨c, t, [], s, kind, rfl, ht, hr, hm, hc⟩

/-- After a feed that succeeded, a driver replies like a session, or a write is refused. -/
theorem answer_cases (L : P.Lawful m) {prev : Conn τ cap} {a : Adapter τ cap T} (hm : a.conn.mechanism = m)
    (h : Answered prev.state a.conn) (brk cont : Adapter τ cap T → Outcome (Adapter τ cap T) IoEvent ConnError) :
    (∃ k, (k = brk ∨ k = cont ∧ P.move prev.state a.conn.state = none) ∧
      Went a (reply P.role prev a.conn).state (reply P.role prev a.conn).out k (answer P prev.state brk cont a)) ∨
    Gave a (answer P prev.state brk cont a) := by
  have hR := L.role.fits
  have hquiet := (h.reply hR).1
  -- There is nothing to send but a PONG.
  have hpong : P.move prev.state a.conn.state = none → reply P.role prev a.conn = a.conn.sendPong →
      (a.conn.pendingPong = none ∨ ∃ ctx n, a.conn.pendingPong = some (ctx, n) ∧ n ≤ 16) →
      (∃ k, (k = brk ∨ k = cont ∧ P.move prev.state a.conn.state = none) ∧
        Went a (reply P.role prev a.conn).state (reply P.role prev a.conn).out k (answer P prev.state brk cont a)) ∨
      Gave a (answer P prev.state brk cont a) := by
    intro hmove hreply hp
    have hans : answer P prev.state brk cont a = (a.send Conn.sendPong).andThen cont := by simp only [answer, hmove]
    rw [hreply] at hquiet ⊢
    rw [hans]
    rcases hp with hp | ⟨ctx, n, hp, hn⟩
    · rw [send_none (sendPong_none hp), sendPong_none hp]
      exact .inl ⟨cont, .inr ⟨rfl, hmove⟩, a.transport, .refl, rfl⟩
    · rw [sendPong_some hp hn] at hquiet ⊢
      rcases send_one_cases (a := a) (sendPong_some hp hn) rfl (.inl ⟨rfl, hquiet⟩) cont with hw | hg
      · exact .inl ⟨cont, .inr ⟨rfl, hmove⟩, hw⟩
      · exact .inr hg
  rcases h with ⟨q, hs⟩ | ⟨hcomp, hi⟩
  · exact hpong (by rw [hs]; exact L.same _) (reply_same hs) (.inl q.pong)
  · cases hcomp with
    | established hst hp =>
      exact hpong (by rw [hst]; exact L.established _) (reply_other (by simp [hst]) (by simp [hst])) hp
    | hello hs hst hpl hr hp =>
      exact hpong (by rw [hs, hst]; exact L.hello (hm.symm.trans hpl)) (reply_other (by simp [hst]) (by simp [hst])) (.inl hp)
    | ready hs hst hn hr hp =>
      have hans : answer P prev.state brk cont a = (a.send (Conn.sendReady P.role)).andThen brk := by
        simp only [answer, hs, hst, L.ready (hm.symm.trans hn), sendMove]
      have hsend : a.conn.sendReady P.role = _ := sendReady_eq hR (by simp [inReadyState, hn, hst]) hr
      rw [hans]
      rw [reply_ready hR (by simp [hs]) hst hn hr hp] at hquiet ⊢
      rcases send_one_cases (a := a) hsend rfl (.inl ⟨rfl, hquiet⟩) brk with hw | hg
      · exact .inl ⟨brk, .inl rfl, hw⟩
      · exact .inr hg
    | welcome hs hst hpl hr hp =>
      have hans : answer P prev.state brk cont a =
          (a.send Conn.sendWelcome).andThen fun a => (a.send (Conn.sendReady P.role)).andThen brk := by
        simp only [answer, hs, hst, L.welcome (hm.symm.trans hpl), sendMove, Outcome.andThen_assoc]
      have hstuck : ({ a.conn with ourWelcomeSent := true } : Conn τ cap).Stuck := by
        unfold Stuck
        simp only [hst]
        exact .inl hr.1
      rw [hans]
      rw [reply_plainReady hR (by simp [hs]) hst hpl hr.2 hr.1 hp] at hquiet ⊢
      rcases send_one_cases (a := a) (sendWelcome_eq hst hr.2) rfl (.inr hstuck) fun a =>
        (a.send (Conn.sendReady P.role)).andThen brk with ⟨t, ht, hw⟩ | hg
      · have hsend : ({ a.conn with ourWelcomeSent := true } : Conn τ cap).sendReady P.role = _ :=
          sendReady_eq hR (by simp [inReadyState, hpl, hst]) hr.1
        rw [hw, Outcome.andThen_none rfl]
        rcases send_one_cases (a := a.moved { a.conn with ourWelcomeSent := true } t) hsend rfl (.inl ⟨rfl, hquiet⟩) brk
          with ⟨t', ht', hw'⟩ | ⟨c, t', sent, s, kind, hw', ht', hr', hm', hc'⟩
        · refine .inl ⟨brk, .inl rfl, t', ht.trans ht', ?_⟩
          simp only [hw', Outcome.andThen_none]
          rfl
        · refine .inr ⟨c, t', .welcome welcomeFrame :: sent, s, kind, ?_, ht.trans ht', hr', hm', hc'⟩
          simp only [hw']
          rfl
      · exact .inr hg

/-! ## Draining -/

/-- The ERROR that follows a feed that failed. -/
def errorSent (f : Fault ConnError) (c : Conn τ cap) : List Sent :=
  if f.aborts = false ∧ c.state = .failed then c.sendError.out else []

/-- How a drain of `w` ends when it has consumed `k` bytes of it. -/
inductive Ending (R : Role τ) (tgt : Target) (a : Adapter τ cap T) (w : List UInt8) (k : Nat)
    (o : Outcome (Adapter τ cap T) IoEvent ConnError) : Prop where
  | done (fault : o.fault = none) (quiet : o.state.conn.Quiet) (left : o.state.buffered = w.drop k)
      (fits : o.state.rxLen ≤ 512)
      (session : sessionSteps R tgt a.conn w =
        Outcome.andThen ⟨o.state.conn, sentIn o.out, none⟩ fun c => sessionSteps R tgt c (w.drop k))
  | refused (s : Sent) (e : WriteError) (fault : o.fault = some (.err (.ioError e.kind))) (event : .sendFailed s e ∈ o.out)
      (buffer : o.state.rxBuf = a.rxBuf ∧ o.state.rxLen = a.rxLen) (reason : Refusal T)
      (conn : s.isReadyOrPong = true ∧ o.state.conn.Quiet ∨ o.state.conn.Stuck)
  | failed (f : Fault ConnError) (c : Conn τ cap) (sent : List Sent) (fault : o.fault = some f) (nonempty : w ≠ [])
      (buffer : o.state.rxBuf = a.rxBuf ∧ o.state.rxLen = a.rxLen)
      (conn : f.aborts = true ∨ o.state.conn.Stuck ∨ a.conn.state = .greeting ∧ k = 0 ∧ o.state.conn.Quiet)
      (session : sessionSteps R tgt a.conn w = ⟨c, sent, some f⟩) (seen : o.state.conn.seen = c.seen)
      (errors : sentIn o.out = sent ++ errorSent f o.state.conn ∨ Refusal T)

/-- What a drain of `w` does when it consumes `k` bytes of it. -/
structure Drains (R : Role τ) (tgt : Target) (a : Adapter τ cap T) (w : List UInt8) (k : Nat)
    (o : Outcome (Adapter τ cap T) IoEvent ConnError) : Prop where
  consumed : consumedBytes o.out = w.take k
  received : receivedBytes o.out = []
  reads : readFailedIn o.out = false
  mechanism : o.state.conn.mechanism = a.conn.mechanism
  wrote : Wrote a.transport o.state.transport
  ending : Ending R tgt a w k o

/-- A drain that begins with a feed of `n` bytes and the answer to it. -/
theorem Drains.prepend {R : Role τ} {a : Adapter τ cap T} {w : List UInt8} {c : Conn τ cap} {t : T} {sent : List Sent}
    {n k : Nat} {o : Outcome (Adapter τ cap T) IoEvent ConnError} (ht : Wrote a.transport t)
    (hm : c.mechanism = a.conn.mechanism) (hg : c.state = .greeting → n = w.length)
    (hst : sessionSteps R tgt a.conn w = Outcome.andThen ⟨c, sent, none⟩ fun c => sessionSteps R tgt c (w.drop n))
    (h : Drains R tgt (a.moved c t) (w.drop n) k o) :
    Drains R tgt a w (n + k) ⟨o.state, [.consumed (w.take n)] ++ (sent.map .sent ++ o.out), o.fault⟩ := by
  have hcons : consumedBytes [.consumed (w.take n)] = w.take n := List.append_nil _
  have hrec : receivedBytes [.consumed (w.take n)] = [] := rfl
  have hread : readFailedIn [.consumed (w.take n)] = false := rfl
  have hsent : sentIn [.consumed (w.take n)] = [] := rfl
  refine ⟨?_, ?_, ?_, h.mechanism.trans hm, ht.trans h.wrote, ?_⟩
  · simp only [consumedBytes_append, hcons, consumedBytes_sent, List.nil_append, h.consumed, List.take_add]
  · simp only [receivedBytes_append, hrec, receivedBytes_sent, List.nil_append, h.received]
  · simp only [readFailedIn_append, hread, readFailedIn_sent, h.reads, Bool.or_self]
  · cases h.ending with
    | done fault quiet left fits session =>
      refine .done fault quiet (by rw [left, List.drop_drop]) fits ?_
      have session : sessionSteps R tgt c (w.drop n) = _ := session
      simp only [hst, session, Outcome.andThen, sentIn_append, hsent, sentIn_sent, List.nil_append, List.drop_drop,
        List.append_assoc]
    | refused s kind fault event buffer reason conn =>
      exact .refused s kind fault (List.mem_append_right _ (List.mem_append_right _ event)) buffer reason conn
    | failed f c' sent' fault nonempty buffer conn session seen errors =>
      have session : sessionSteps R tgt c (w.drop n) = _ := session
      have hne : w ≠ [] := by
        rintro rfl
        simp at nonempty
      refine .failed f c' (sent ++ sent') fault hne buffer ?_ ?_ seen ?_
      · rcases conn with hab | hstuck | ⟨hgr, _⟩
        · exact .inl hab
        · exact .inr (.inl hstuck)
        · exfalso
          apply nonempty
          rw [hg hgr, List.drop_length]
      · simp only [hst, session, Outcome.andThen]
      · rcases errors with he | hr
        · refine .inl ?_
          simp only [sentIn_append, hsent, sentIn_sent, List.nil_append, he, List.append_assoc]
        · exact .inr hr

/-- After a feed that failed, the error of the feed is returned, and ERROR is all that is sent. -/
theorem feedFailed_spec (a : Adapter τ cap T) (f : Fault ConnError) :
    ∃ t tr, a.feedFailed f = ⟨a.moved a.conn t, tr, some f⟩ ∧ Wrote a.transport t ∧ receivedBytes tr = [] ∧
      consumedBytes tr = [] ∧ readFailedIn tr = false ∧ (sentIn tr = errorSent f a.conn ∨ Refusal T) ∧
      (tr = [] ∨ a.conn.state = .failed ∧ ∃ bs, tr = [.sent (.error bs)] ∨ ∃ e, tr = [.sendFailed (.error bs) e]) := by
  unfold feedFailed
  by_cases he : f.aborts = false ∧ a.conn.state = .failed
  · obtain ⟨frame, hframe⟩ : ∃ frame, a.conn.sendError = ⟨a.conn, [.error frame], none⟩ := ⟨_, rfl⟩
    have hsend : a.send Conn.sendError = a.write (.error frame) := send_one hframe
    rw [if_pos he, hsend, errorSent, if_pos he, hframe]
    rcases a.write_cases (.error frame) with ⟨t, hw, ht⟩ | ⟨t, e, hw, ht, hr, _⟩
    · rw [hw]
      exact ⟨t, _, rfl, ht, rfl, rfl, rfl, .inl rfl, .inr ⟨he.2, frame, .inl rfl⟩⟩
    · rw [hw]
      exact ⟨t, _, rfl, ht, rfl, rfl, rfl, .inr hr, .inr ⟨he.2, frame, .inr ⟨e, rfl⟩⟩⟩
  · rw [if_neg he, errorSent, if_neg he]
    exact ⟨a.transport, [], rfl, .refl, rfl, rfl, rfl, .inl rfl, .inl rfl⟩

/-- What a drain does when a feed fails. -/
theorem drains_failed {R : Role τ} {a : Adapter τ cap T} {w : List UInt8} (hne : w ≠ []) {c c' : Conn τ cap}
    {f : Fault ConnError} (hm : c.mechanism = a.conn.mechanism)
    (hc : f.aborts = true ∨ c.Stuck ∨ a.conn.state = .greeting ∧ c.Quiet)
    (hst : sessionSteps R tgt a.conn w = ⟨c', [], some f⟩) (hseen : c.seen = c'.seen) :
    Drains R tgt a w 0 (feedFailed (a.moved c a.transport) f) ∧ (feedFailed (a.moved c a.transport) f).fault = some f := by
  have hconn : f.aborts = true ∨ c.Stuck ∨ a.conn.state = .greeting ∧ 0 = 0 ∧ c.Quiet := by
    rcases hc with h | h | ⟨h, h'⟩
    · exact .inl h
    · exact .inr (.inl h)
    · exact .inr (.inr ⟨h, rfl, h'⟩)
  obtain ⟨t, tr, he, ht, hrec, hcons, hread, hsent, _⟩ := (a.moved c a.transport).feedFailed_spec f
  rw [he]
  exact ⟨⟨hcons, hrec, hread, hm, ht, .failed f c' [] rfl hne ⟨rfl, rfl⟩ hconn hst hseen hsent⟩, rfl⟩

/-- A turn of the loop whose feed succeeds. -/
theorem drainLoop_ok {a : Adapter τ cap T} {total : Nat} (hlt : total < a.rxLen) (hmax : a.rxLen ≤ 512) {c : Conn τ cap}
    {n : Nat} (hf : a.conn.feed P.role tgt (a.buffered.drop total) = (c, .ok n)) (fuel : Nat) :
    drainLoop P tgt (fuel + 1) a total =
      Outcome.andThen ⟨a.moved c a.transport, [.consumed ((a.buffered.drop total).take n)], none⟩
        (answer P a.conn.state (fun a => a.compact (total + n))
          fun a => if n = 0 then a.compact (total + n) else drainLoop P tgt fuel a (total + n)) := by
  rw [drainLoop, if_pos hlt, slice_buffered (Nat.le_of_lt hlt) hmax]
  simp only [hf]
  rfl

/-- A turn of the loop whose feed fails. -/
theorem drainLoop_error {a : Adapter τ cap T} {total : Nat} (hlt : total < a.rxLen) (hmax : a.rxLen ≤ 512) {c : Conn τ cap}
    {f : Fault ConnError} (hf : a.conn.feed P.role tgt (a.buffered.drop total) = (c, .error f)) (fuel : Nat) :
    drainLoop P tgt (fuel + 1) a total = feedFailed (a.moved c a.transport) f := by
  rw [drainLoop, if_pos hlt, slice_buffered (Nat.le_of_lt hlt) hmax]
  simp only [hf]
  rfl

/-- The end of a drain: what is consumed is dropped. -/
theorem drains_compact (R : Role τ) (tgt : Target) {a : Adapter τ cap T} {total : Nat} (q : a.conn.Quiet)
    (hle : total ≤ a.rxLen) (hmax : a.rxLen ≤ 512) : Drains R tgt a (a.buffered.drop total) 0 (a.compact total) := by
  obtain ⟨a', hc, hconn, htr, hfit, hbuf⟩ := compact_spec hle hmax
  rw [hc]
  refine ⟨rfl, rfl, rfl, by rw [hconn], by rw [htr]; exact .refl, .done rfl ?_ hbuf hfit ?_⟩
  · rw [hconn]
    exact q
  · rw [hconn]
    rfl

/-- What one turn of the loop can do with the bytes that are left: the feed succeeds, the driver replies like a session and
goes on, or ends the loop; or a write of the reply is refused; or the feed fails. -/
inductive Turn (P : Policy τ) (tgt : Target) (fuel : Nat) (a : Adapter τ cap T) (total : Nat)
    (o : Outcome (Adapter τ cap T) IoEvent ConnError) : Prop where
  | goesOn (c : Conn τ cap) (n : Nat) (t : T) (next : Outcome (Adapter τ cap T) IoEvent ConnError)
      (feed : a.conn.feed P.role tgt (a.buffered.drop total) = (c, .ok n)) (mechanism : c.mechanism = a.conn.mechanism)
      (answered : Answered a.conn.state c) (pos : 0 < n) (fits : total + n ≤ a.rxLen)
      (ends : total + n = a.rxLen ∨ Completed a.conn.state c) (wrote : Wrote a.transport t)
      (session : sessionSteps P.role tgt a.conn (a.buffered.drop total) =
        (reply P.role a.conn c).andThen fun t => sessionSteps P.role tgt t ((a.buffered.drop total).drop n))
      (rest : next = (a.moved (reply P.role a.conn c).state t).compact (total + n) ∨
        next = drainLoop P tgt fuel (a.moved (reply P.role a.conn c).state t) (total + n) ∧
          P.move a.conn.state c.state = none)
      (outcome : o = ⟨next.state, [.consumed ((a.buffered.drop total).take n)] ++
        ((reply P.role a.conn c).out.map .sent ++ next.out), next.fault⟩)
  | refused (c : Conn τ cap) (n : Nat) (t : T) (sent : List Sent) (s : Sent) (e : WriteError) (wrote : Wrote a.transport t)
      (reason : Refusal T) (mechanism : c.mechanism = a.conn.mechanism)
      (conn : s.isReadyOrPong = true ∧ c.Quiet ∨ c.Stuck)
      (outcome : o = ⟨a.moved c t, [.consumed ((a.buffered.drop total).take n)] ++ (sent.map .sent ++ [.sendFailed s e]),
        some (.err (.ioError e.kind))⟩)
  | failed (c c' : Conn τ cap) (f : Fault ConnError)
      (feed : a.conn.feed P.role tgt (a.buffered.drop total) = (c, .error f)) (mechanism : c.mechanism = a.conn.mechanism)
      (session : sessionSteps P.role tgt a.conn (a.buffered.drop total) = ⟨c', [], some f⟩) (same : c.seen = c'.seen)
      (conn : f.aborts = true ∨ c.Stuck ∨ a.conn.state = .greeting ∧ c.Quiet)
      (outcome : o = feedFailed (a.moved c a.transport) f)

/-- One turn of the loop, with something left to consume. -/
theorem drainLoop_turn (L : P.Lawful m) (tgt : Target) (fuel : Nat) {a : Adapter τ cap T} {total : Nat} (q : a.conn.Quiet)
    (hm : a.conn.mechanism = m) (hlt : total < a.rxLen) (hmax : a.rxLen ≤ 512) :
    Turn P tgt fuel a total (drainLoop P tgt (fuel + 1) a total) := by
  have hlen : (a.buffered.drop total).length = a.rxLen - total := by rw [List.length_drop, buffered_length hmax]
  have hne : a.buffered.drop total ≠ [] := by
    intro h
    rw [h, List.length_nil] at hlen
    omega
  have hkept := (q.kept P.role tgt (a.buffered.drop total)).mechanism
  rcases q.feed_spec L.role.fits hne with ⟨c, n, hf, hpos, hn, hans, hend, hst⟩ | ⟨c, c', f, hf, hst, hseen, hc⟩
  · rw [hf] at hkept
    rw [drainLoop_ok hlt hmax hf, Outcome.andThen_none rfl]
    rcases answer_cases (a := a.moved c a.transport) L (hkept.trans hm) hans (fun a => a.compact (total + n))
      (fun a => if n = 0 then a.compact (total + n) else drainLoop P tgt fuel a (total + n)) with
      ⟨k, hk, t, ht, hw⟩ | ⟨c1, t, sent, s, e, hw, ht, hr, hm1, hc1⟩
    · have hends : total + n = a.rxLen ∨ Completed a.conn.state c := by
        rcases hend with hall | hcomp
        · exact .inl (by omega)
        · exact .inr hcomp
      rw [hw, Outcome.andThen_none rfl]
      refine .goesOn c n t (k (a.moved (reply P.role a.conn c).state t)) hf hkept hans hpos (by omega) hends ht hst ?_ rfl
      rcases hk with rfl | ⟨rfl, hmove⟩
      · exact .inl rfl
      · exact .inr ⟨if_neg (Nat.ne_of_gt hpos), hmove⟩
    · rw [hw]
      exact .refused c1 n t sent s e ht hr (hm1.trans hkept) hc1 rfl
  · rw [hf] at hkept
    rw [drainLoop_error hlt hmax hf]
    exact .failed c c' f hf hkept hst hseen hc rfl

/-- The loop of a drain. The induction is on the fuel, which is more than is left to consume; every turn consumes
something. -/
theorem drainLoop_spec (L : P.Lawful m) (tgt : Target) (fuel : Nat) : ∀ (a : Adapter τ cap T) (total : Nat), a.conn.Quiet →
    a.conn.mechanism = m → total ≤ a.rxLen → a.rxLen ≤ 512 → a.rxLen - total < fuel →
    ∃ k, Drains P.role tgt a (a.buffered.drop total) k (drainLoop P tgt fuel a total) ∧
      ((drainLoop P tgt fuel a total).fault = none → total < a.rxLen → 0 < k) := by
  induction fuel with
  | zero =>
    intro a total _ _ _ _ hfuel
    omega
  | succ fuel ih =>
    intro a total q hm hle hmax hfuel
    by_cases hlt : total < a.rxLen
    · have hlen : (a.buffered.drop total).length = a.rxLen - total := by rw [List.length_drop, buffered_length hmax]
      have hcons : ∀ n, consumedBytes [.consumed ((a.buffered.drop total).take n)] = (a.buffered.drop total).take n :=
        fun _ => List.append_nil _
      cases drainLoop_turn L tgt fuel q hm hlt hmax with
      | goesOn c n t next hf hmc hans hpos hfit hends ht hst hnext ho =>
        obtain ⟨hq, hfault, hstate, hmech⟩ := hans.reply L.role.fits
        -- The driver goes on, or ends the loop: either way it drains the rest.
        have hrest : ∃ j, Drains P.role tgt (a.moved (reply P.role a.conn c).state t) ((a.buffered.drop total).drop n) j next := by
          rw [List.drop_drop]
          rcases hnext with rfl | ⟨rfl, _⟩
          · exact ⟨0, drains_compact P.role tgt (a := a.moved (reply P.role a.conn c).state t) hq hfit hmax⟩
          · obtain ⟨j, hj, _⟩ := ih (a.moved (reply P.role a.conn c).state t) (total + n) hq
              ((hmech.trans hmc).trans hm) hfit hmax (show a.rxLen - (total + n) < fuel by omega)
            exact ⟨j, hj⟩
        obtain ⟨j, hj⟩ := hrest
        have hreply : reply P.role a.conn c =
            ⟨(reply P.role a.conn c).state, (reply P.role a.conn c).out, none⟩ := by rw [← hfault]
        rw [hreply] at hst
        have hgr : (reply P.role a.conn c).state.state = .greeting → n = (a.buffered.drop total).length := by
          intro hs
          rcases hends with hall | hcomp
          · omega
          · exact absurd (hstate.symm.trans hs) hcomp.not_greeting
        rw [ho]
        exact ⟨n + j, hj.prepend (a := a) ht (hmech.trans hmc) hgr hst, fun _ _ => by omega⟩
      | refused c n t sent s e ht hr hmc hc ho =>
        rw [ho]
        refine ⟨n, ⟨?_, ?_, ?_, hmc, ht, ?_⟩, fun h => by cases h⟩
        · simp only [consumedBytes_append, hcons, consumedBytes_sent, List.nil_append]
          exact List.append_nil _
        · simp only [receivedBytes_append, receivedBytes_sent, List.nil_append]
          rfl
        · simp only [readFailedIn_append, readFailedIn_sent]
          rfl
        · exact .refused s e rfl (by simp) ⟨rfl, rfl⟩ hr hc
      | failed c c' f hf hmc hst hseen hc ho =>
        have hne : a.buffered.drop total ≠ [] := by
          intro h
          rw [h, List.length_nil] at hlen
          omega
        obtain ⟨hd, hfault⟩ := drains_failed hne hmc hc hst hseen
        rw [ho]
        refine ⟨0, hd, fun h => ?_⟩
        rw [hfault] at h
        cases h
    · rw [drainLoop, if_neg hlt]
      exact ⟨0, drains_compact P.role tgt q hle hmax, fun _ h => absurd h hlt⟩

/-! ## Polling -/

/-- A driver between two calls: its connection is quiet or stuck. -/
structure Steady (m : Mechanism) (a : Adapter τ cap T) : Prop where
  conn : a.conn.Quiet ∨ a.conn.Stuck
  mechanism : a.conn.mechanism = m
  fits : a.rxLen ≤ 512

/-- READY that was sent is not sent again. -/
theorem sendReady_sent {R : Role τ} {c : Conn τ cap} (h : c.ourReadySent = true) :
    c.sendReady R = ⟨c, [], some (.err .wrongState)⟩ := by
  unfold sendReady writeReady
  by_cases hin : c.inReadyState = false
  · rw [if_pos hin]
  · rw [if_neg hin, if_pos h]

/-- A connection between two calls that is in the `Ready` state has sent READY. -/
theorem ready_sent {c : Conn τ cap} (hc : c.Quiet ∨ c.Stuck) (h : c.state = .ready) : c.ourReadySent = true := by
  rcases hc with q | hs
  · have hq := q.phase
    rw [h] at hq
    exact hq
  · unfold Stuck at hs
    rw [h] at hs
    exact hs.1

/-- A poll of a steady driver drains its buffer, or reads if the buffer is empty. -/
theorem Steady.poll_eq {a : Adapter τ cap T} (s : Steady m a) (P : Policy τ) (tgt : Target) :
    a.poll P tgt = returning (pollBuffer P tgt a) established := by
  unfold poll
  by_cases h : a.conn.state = .ready
  · rw [if_pos h, sendReady_sent (ready_sent s.conn h)]
  · rw [if_neg h]

/-- A stuck connection refuses what is buffered. -/
theorem drain_stuck (P : Policy τ) (tgt : Target) {a : Adapter τ cap T} (hs : a.conn.Stuck) (hpos : 0 < a.rxLen)
    (hmax : a.rxLen ≤ 512) : ∃ e, drainBuffer P tgt a = feedFailed a (.err e) := by
  have hne : a.buffered.drop 0 ≠ [] := by
    intro h
    have := buffered_length hmax
    rw [List.drop_zero] at h
    rw [h, List.length_nil] at this
    omega
  obtain ⟨e, he⟩ := hs.feed P.role tgt hne
  exact ⟨e, drainLoop_error hpos hmax he a.rxLen⟩

/-- A quiet connection drains what is buffered. -/
theorem drain_quiet (L : P.Lawful m) (tgt : Target) {a : Adapter τ cap T} (q : a.conn.Quiet) (hm : a.conn.mechanism = m)
    (hmax : a.rxLen ≤ 512) : ∃ k, Drains P.role tgt a a.buffered k (drainBuffer P tgt a) ∧
      ((drainBuffer P tgt a).fault = none → 0 < a.rxLen → 0 < k) := by
  obtain ⟨k, h, hk⟩ := drainLoop_spec L tgt (a.rxLen + 1) a 0 q hm (Nat.zero_le _) hmax (by omega)
  exact ⟨k, h, hk⟩

/-- A drain that succeeds makes progress. -/
theorem Steady.progress (L : P.Lawful m) (tgt : Target) {a : Adapter τ cap T} (s : Steady m a) (hpos : 0 < a.rxLen)
    (h : (drainBuffer P tgt a).fault = none) : (drainBuffer P tgt a).state.rxLen < a.rxLen := by
  rcases s.conn with q | hs
  · obtain ⟨k, hd, hk⟩ := drain_quiet L tgt q s.mechanism s.fits
    have hk := hk h hpos
    cases hd.ending with
    | done _ _ left fits _ =>
      have hlen := congrArg List.length left
      rw [buffered_length fits, List.length_drop, buffered_length s.fits] at hlen
      omega
    | refused _ _ fault =>
      rw [fault] at h
      cases h
    | failed _ _ _ fault =>
      rw [fault] at h
      cases h
  · obtain ⟨e, he⟩ := drain_stuck P tgt hs hpos s.fits
    obtain ⟨t, tr, hf, _⟩ := a.feedFailed_spec (.err e)
    rw [he, hf] at h
    cases h

/-- What a poll of a steady driver can do: drain what is buffered, fail to read, come to the end of the input, or read and
drain what it has read. -/
theorem Steady.poll_cases (L : P.Lawful m) {a : Adapter τ cap T} (s : Steady m a) (tgt : Target) :
    (0 < a.rxLen ∧ a.poll P tgt = returning (drainBuffer P tgt a) established) ∨
    (a.rxLen = 0 ∧ ∃ t kind, Transport.read a.transport 512 = (t, .error kind) ∧
      a.poll P tgt = (a.moved a.conn t, [.readFailed kind], .error (.err (.ioError kind)))) ∨
    (a.rxLen = 0 ∧ ∃ t, Transport.read a.transport 512 = (t, .ok []) ∧
      a.poll P tgt = (a.moved a.conn t, [.received []], .error (.err (.ioError 0)))) ∨
    (a.rxLen = 0 ∧ ∃ t bs a', Transport.read a.transport 512 = (t, .ok bs) ∧ bs ≠ [] ∧ a'.conn = a.conn ∧
      a'.transport = t ∧ 0 < a'.rxLen ∧ a'.rxLen ≤ 512 ∧ a'.buffered = bs ∧
      a.poll P tgt = returning (Outcome.andThen ⟨a', [.received bs], none⟩ (drainBuffer P tgt)) established) := by
  rw [s.poll_eq P tgt]
  unfold pollBuffer
  by_cases hpos : a.rxLen > 0
  · refine .inl ⟨hpos, ?_⟩
    rw [if_pos hpos, Outcome.andThen_idle]
    intro h
    rw [if_pos (.inr (s.progress L tgt hpos h))]
  · obtain ⟨c0, t0, buf0, len0⟩ := a
    have h0 : len0 = 0 := Nat.eq_zero_of_not_pos hpos
    subst h0
    have hread : ∀ {t bs}, Transport.read t0 512 = (t, .ok bs) → bs.length ≤ 512 := Transport.read_le
    refine .inr ?_
    rw [if_neg hpos]
    unfold readMore
    rw [if_pos s.fits, Nat.sub_zero]
    simp only
    generalize Transport.read t0 512 = r at hread
    obtain ⟨t, kind | bs⟩ := r
    · exact .inl ⟨trivial, t, kind, rfl, rfl⟩
    · cases bs with
      | nil => exact .inr (.inl ⟨trivial, t, rfl, rfl⟩)
      | cons b bs =>
        have hle : (b :: bs).length ≤ 512 := hread rfl
        obtain ⟨buf, hc, hb⟩ := copyInto_ok (ε := ConnError) buf0 0 (b :: bs) (by omega)
        have ht := splice_take buf0.toList (b :: bs) (Nat.zero_le _)
        rw [List.take_zero, List.nil_append, Nat.zero_add] at ht
        simp only [hc]
        refine .inr (.inr ⟨trivial, t, b :: bs, ⟨c0, t, buf, 0 + (b :: bs).length⟩, rfl, by simp, rfl, rfl, ?_, ?_, ?_, rfl⟩)
        · simp
        · rwa [Nat.zero_add]
        · rw [buffered, hb, Nat.zero_add]
          exact ht

/-! ## Calls -/

/-- A drain leaves a steady driver, unless it panicked. -/
theorem Drains.steady {R : Role τ} {a : Adapter τ cap T} {w : List UInt8} {k : Nat}
    {o : Outcome (Adapter τ cap T) IoEvent ConnError} (h : Drains R tgt a w k o) (hm : a.conn.mechanism = m)
    (hmax : a.rxLen ≤ 512) (hlive : ∀ f, o.fault = some f → f.aborts = false) : Steady m o.state := by
  have hm' := h.mechanism.trans hm
  cases h.ending with
  | done _ quiet _ fits _ => exact ⟨.inl quiet, hm', fits⟩
  | refused _ _ _ _ buffer _ conn =>
    refine ⟨?_, hm', by rw [buffer.2]; exact hmax⟩
    rcases conn with ⟨_, q⟩ | hs
    · exact .inl q
    · exact .inr hs
  | failed f _ _ fault _ buffer conn =>
    refine ⟨?_, hm', by rw [buffer.2]; exact hmax⟩
    rcases conn with hab | hs | ⟨_, _, q⟩
    · rw [hlive f fault] at hab
      cases hab
    · exact .inr hs
    · exact .inl q

/-- A drain of a steady driver leaves it steady, unless it panicked. -/
theorem Steady.drain (L : P.Lawful m) (tgt : Target) {a : Adapter τ cap T} (s : Steady m a) (hpos : 0 < a.rxLen)
    (hlive : ∀ f, (drainBuffer P tgt a).fault = some f → f.aborts = false) : Steady m (drainBuffer P tgt a).state := by
  rcases s.conn with q | hs
  · obtain ⟨k, hd, _⟩ := drain_quiet L tgt q s.mechanism s.fits
    exact hd.steady s.mechanism s.fits hlive
  · obtain ⟨e, he⟩ := drain_stuck P tgt hs hpos s.fits
    obtain ⟨t, tr, hf, _⟩ := a.feedFailed_spec (.err e)
    rw [he, hf]
    exact ⟨.inr hs, s.mechanism, s.fits⟩

/-- A drain reads nothing from the transport. -/
theorem Steady.drain_reads (L : P.Lawful m) (tgt : Target) {a : Adapter τ cap T} (s : Steady m a) (hpos : 0 < a.rxLen) :
    readFailedIn (drainBuffer P tgt a).out = false := by
  rcases s.conn with q | hs
  · obtain ⟨k, hd, _⟩ := drain_quiet L tgt q s.mechanism s.fits
    exact hd.reads
  · obtain ⟨e, he⟩ := drain_stuck P tgt hs hpos s.fits
    obtain ⟨t, tr, hf, _, _, _, hread, _⟩ := a.feedFailed_spec (.err e)
    rw [he, hf]
    exact hread

omit [Transport T] in
/-- What is returned behind an outcome: the driver and the trace are the outcome's. -/
theorem returning_spec (o : Outcome (Adapter τ cap T) IoEvent ConnError) (value : Adapter τ cap T → Bool) :
    (returning o value).1 = o.state ∧ (returning o value).2.1 = o.out ∧
      ((returning o value).2.2 = match o.fault with | some f => .error f | none => .ok (value o.state)) := by
  unfold returning
  cases o.fault <;> exact ⟨rfl, rfl, rfl⟩

/-- Writing one thing after the other goes well, or it stops at the first write that is refused. -/
theorem writeEach_cases (a : Adapter τ cap T) (ss : List Sent) :
    (∃ t, a.writeEach ss = ⟨a.moved a.conn t, ss.map .sent, none⟩ ∧ Wrote a.transport t) ∨
    ∃ t done s left e, ss = done ++ s :: left ∧
      a.writeEach ss = ⟨a.moved a.conn t, done.map .sent ++ [.sendFailed s e], some (.err (.ioError e.kind))⟩ ∧
      Wrote a.transport t ∧ Refusal T ∧ e.accepted ≤ s.bytes.length := by
  induction ss generalizing a with
  | nil => exact .inl ⟨a.transport, rfl, .refl⟩
  | cons s ss ih =>
    rcases a.write_cases s with ⟨t, hw, ht⟩ | ⟨t, e, hw, ht, hr, hacc⟩
    · rw [writeEach, hw, Outcome.andThen_none rfl]
      rcases ih (a.moved a.conn t) with ⟨t', hw', ht'⟩ | ⟨t', done, s', left, e, hss, hw', ht', hr⟩
      · rw [hw']
        exact .inl ⟨t', rfl, ht.trans ht'⟩
      · rw [hw', hss]
        exact .inr ⟨t', s :: done, s', left, e, rfl, rfl, ht.trans ht', hr⟩
    · rw [writeEach, hw]
      exact .inr ⟨t, [], s, ss, e, rfl, rfl, ht, hr, hacc⟩

/-- A publish touches the transport alone. -/
theorem publish_spec (P : Policy τ) (tgt : Target) (a : Adapter τ cap T) (topic payload : List UInt8) :
    ∃ t, (a.publish P tgt topic payload).1 = a.moved a.conn t ∧ Wrote a.transport t ∧
      receivedBytes (a.publish P tgt topic payload).2.1 = [] ∧ consumedBytes (a.publish P tgt topic payload).2.1 = [] ∧
      readFailedIn (a.publish P tgt topic payload).2.1 = false := by
  unfold publish
  split
  · exact ⟨a.transport, rfl, .refl, rfl, rfl, rfl⟩
  · exact ⟨a.transport, rfl, .refl, rfl, rfl, rfl⟩
  · rename_i th thN ph phN _
    rcases a.writeEach_cases [.piece (th.take thN), .piece topic, .piece (ph.take phN), .piece payload] with
      ⟨t, hw, ht⟩ | ⟨t, done, s, left, e, _, hw, ht, _⟩
    · simp only [hw]
      exact ⟨t, rfl, ht, rfl, rfl, rfl⟩
    · simp only [hw]
      refine ⟨t, rfl, ht, ?_, ?_, ?_⟩
      · rw [receivedBytes_append, receivedBytes_sent]
        rfl
      · rw [consumedBytes_append, consumedBytes_sent]
        rfl
      · rw [readFailedIn_append, readFailedIn_sent]
        rfl

/-- A call of a steady driver leaves it steady, unless it panicked. -/
theorem Steady.step (L : P.Lawful m) (tgt : Target) {a : Adapter τ cap T} (s : Steady m a) (op : Op)
    (hlive : halts (step P tgt a op).2 = false) : Steady m (step P tgt a op).1 := by
  cases op with
  | publish topic payload =>
    obtain ⟨t, h, _⟩ := a.publish_spec P tgt topic payload
    simp only [Adapter.step, h]
    exact ⟨s.conn, s.mechanism, s.fits⟩
  | poll =>
    simp only [Adapter.step, halts, Returned.fault] at hlive ⊢
    rcases s.poll_cases L tgt with ⟨hpos, hp⟩ | ⟨_, t, kind, _, hp⟩ | ⟨_, t, _, hp⟩ |
      ⟨_, t, bs, a', _, _, hc, _, hpos, hfit, _, hp⟩
    · obtain ⟨h1, _, h3⟩ := returning_spec (drainBuffer P tgt a) established
      rw [hp] at hlive ⊢
      rw [h1]
      refine s.drain L tgt hpos ?_
      intro f hf
      rw [h3, hf] at hlive
      exact hlive
    · rw [hp]
      exact ⟨s.conn, s.mechanism, s.fits⟩
    · rw [hp]
      exact ⟨s.conn, s.mechanism, s.fits⟩
    · have s' : Steady m a' := ⟨by rw [hc]; exact s.conn, by rw [hc]; exact s.mechanism, hfit⟩
      rw [Outcome.andThen_none rfl] at hp
      obtain ⟨h1, _, h3⟩ := returning_spec (⟨(drainBuffer P tgt a').state,
        [.received bs] ++ (drainBuffer P tgt a').out, (drainBuffer P tgt a').fault⟩ : Outcome _ _ _) established
      rw [hp] at hlive ⊢
      rw [h1]
      refine s'.drain L tgt hpos ?_
      intro f hf
      rw [h3, hf] at hlive
      exact hlive

/-! ## The start -/

/-- A driver starts with our greeting sent, an empty buffer and a quiet connection. -/
theorem start_spec {R : Role τ} {auth : Auth} {t : T} {tr : List IoEvent} {a : Adapter τ cap T}
    (h : start (Conn.init R m auth) t = (tr, .ok a)) :
    tr = (Conn.init R m auth : Conn τ cap).sendGreeting.out.map .sent ∧
      a.conn = (Conn.init R m auth : Conn τ cap).sendGreeting.state ∧ a.conn.Quiet ∧ a.conn.mechanism = m ∧ a.rxLen = 0 ∧
      Wrote t a.transport := by
  have hg : ∃ g, (Conn.init R m auth : Conn τ cap).sendGreeting =
      ⟨{ Conn.init R m auth with ourGreetingSent := true }, [g], none⟩ := ⟨_, rfl⟩
  have h64 : 64 ≤ (List.replicate 64 (0 : UInt8)).length := by decide
  have hq : ({ Conn.init R m auth with ourGreetingSent := true } : Conn τ cap).Quiet := quiet_init R m auth h64
  obtain ⟨g, hg⟩ := hg
  unfold start at h
  rw [send_one hg] at h
  rcases ((⟨Conn.init R m auth, t, List.Vector.replicate 512 0, 0⟩ : Adapter τ cap T).moved
    { Conn.init R m auth with ourGreetingSent := true } t).write_cases g with ⟨t', hw, ht⟩ | ⟨t', e, hw, _⟩
  · have hw : ((⟨Conn.init R m auth, t, List.Vector.replicate 512 0, 0⟩ : Adapter τ cap T).moved
      { Conn.init R m auth with ourGreetingSent := true } t).write g = _ := hw
    simp only [hw] at h
    cases h
    rw [hg]
    exact ⟨rfl, rfl, hq, rfl, rfl, ht⟩
  · simp only [hw] at h
    cases h

/-- A driver that has started is steady. -/
theorem start_steady {R : Role τ} {auth : Auth} {t : T} {tr : List IoEvent} {a : Adapter τ cap T}
    (h : start (Conn.init R m auth) t = (tr, .ok a)) : Steady m a := by
  obtain ⟨_, _, q, hm, h0, _⟩ := start_spec h
  exact ⟨.inl q, hm, by omega⟩

/-- A driver between two calls of a run is steady. -/
theorem steady_of_run (L : P.Lawful m) {a0 a : Adapter τ cap T} (s : Steady m a0) {h : List (Call τ cap T)}
    (hr : DriverRun P tgt a0 h a) : (∀ ev ∈ h, halts ev.res = false) → Steady m a :=
  hr.live_invariant (Steady m) s fun _ op s hlive => s.step L tgt op hlive

end Adapter
end Mzmq
