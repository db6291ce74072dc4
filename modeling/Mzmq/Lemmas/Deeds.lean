import Mzmq.KeepAlive
import Mzmq.Lemmas.Calls

/-!
# The deeds of a driver

Where the transport takes every write, the trace of a poll is made of deeds, each of which leaves the connection quiet or
stuck: a read, a feed with all that is sent for it, and a feed that fails, with the ERROR that follows when it has led to
`Failed`.
-/

namespace Mzmq

open Checked Consumer

theorem TakesAll.append {x y : List IoEvent} (h : TakesAll (x ++ y)) : TakesAll x ∧ TakesAll y := by
  constructor
  · rintro s ⟨e, he⟩
    exact h s ⟨e, List.mem_append_left _ he⟩
  · rintro s ⟨e, he⟩
    exact h s ⟨e, List.mem_append_right _ he⟩

/-- The condition, event by event. -/
theorem takesAll_of_all {tr : List IoEvent} (h : (tr.all fun | .sendFailed _ _ => false | _ => true) = true) :
    TakesAll tr := by
  rintro s ⟨e, he⟩
  simpa using List.all_eq_true.mp h _ he

/-- What a read leaves in the trace. -/
def IoEvent.isRead : IoEvent → Bool
  | .received _ => true
  | .readFailed _ => true
  | _ => false

namespace Conn

variable {τ : Type} {cap : Nat} {R : Role τ} {tgt : Target}

/-- The ERROR that is written when a feed has failed and left this connection. -/
def errorOf (c : Conn τ cap) : List IoEvent := if c.state = .failed then [.sent (.error errorFrame)] else []

/-- One deed on a connection, with its events. -/
inductive Deed (R : Role τ) (tgt : Target) : Conn τ cap → List IoEvent → Conn τ cap → Prop where
  | read {c : Conn τ cap} {e : IoEvent} : e.isRead = true → Deed R tgt c [e] c
  | round {c c1 c2 : Conn τ cap} {input : List UInt8} {n : Nat} {sent : List Sent} : c.Quiet →
      c.feed R tgt input = (c1, .ok n) → 0 < n → Answered c.state c1 → reply R c c1 = ⟨c2, sent, none⟩ →
      Deed R tgt c (.consumed (input.take n) :: sent.map .sent) c2
  | reject {c c1 : Conn τ cap} {input : List UInt8} {f : Fault ConnError} : c.Quiet → c.feed R tgt input = (c1, .error f) →
      f.aborts = false → Deed R tgt c c1.errorOf c1
  | refuse {c : Conn τ cap} {input : List UInt8} {e : ConnError} : c.Stuck → c.feed R tgt input = (c, .error (.err e)) →
      Deed R tgt c c.errorOf c

/-- Deeds one after the other. -/
inductive Deeds (R : Role τ) (tgt : Target) (c : Conn τ cap) : List IoEvent → Conn τ cap → Prop where
  | nil : Deeds R tgt c [] c
  | snoc {tr x : List IoEvent} {c1 c2 : Conn τ cap} : Deeds R tgt c tr c1 → Deed R tgt c1 x c2 → Deeds R tgt c (tr ++ x) c2

variable {c c1 c2 : Conn τ cap} {x y : List IoEvent}

theorem Deed.deeds (h : Deed R tgt c x c1) : Deeds R tgt c x c1 := by
  have hnil : Deeds R tgt c [] c := .nil
  exact .snoc hnil h

theorem Deeds.trans (h : Deeds R tgt c x c1) (h' : Deeds R tgt c1 y c2) : Deeds R tgt c (x ++ y) c2 := by
  induction h' with
  | nil => rwa [List.append_nil]
  | snoc _ hd ih =>
    rw [← List.append_assoc]
    exact .snoc ih hd

/-- What every deed keeps, deeds keep. -/
theorem Deeds.keeps (I : List IoEvent → Conn τ cap → Prop)
    (hdeed : ∀ tr c x c', I tr c → Deed R tgt c x c' → I (tr ++ x) c') {tr : List IoEvent} (h0 : I tr c)
    (h : Deeds R tgt c x c1) : I (tr ++ x) c1 := by
  induction h with
  | nil => rwa [List.append_nil]
  | snoc _ hd ih =>
    rw [← List.append_assoc]
    exact hdeed _ _ _ _ ih hd

end Conn

/-! ## The deeds of a drain -/

namespace Adapter

open Conn

variable {τ T : Type} {cap : Nat} [Transport T] {P : Policy τ} {tgt : Target} {m : Mechanism}

/-- The trace of an outcome is made of deeds that lead from `c` to its connection, unless it panicked; there is no read among
them. -/
def Did (R : Role τ) (tgt : Target) (c : Conn τ cap) (o : Outcome (Adapter τ cap T) IoEvent ConnError) : Prop :=
  (∀ e ∈ o.out, e.isRead = false) ∧ ∃ c', Deeds R tgt c o.out c' ∧ (c' = o.state.conn ∨ ∃ f, o.fault = some f ∧ f.aborts = true)

omit [Transport T] in
theorem errorOf_isRead (c : Conn τ cap) : ∀ e ∈ c.errorOf, e.isRead = false := by
  unfold errorOf
  split <;> simp [IoEvent.isRead]

/-- After a feed that failed, ERROR is all that is written. -/
theorem feedFailed_taken {a : Adapter τ cap T} {f : Fault ConnError} (h : TakesAll (a.feedFailed f).out) :
    ∃ t, a.feedFailed f = ⟨a.moved a.conn t, if f.aborts = false then a.conn.errorOf else [], some f⟩ := by
  unfold feedFailed at h ⊢
  by_cases hab : f.aborts = false
  · by_cases hs : a.conn.state = .failed
    · rw [if_pos ⟨hab, hs⟩, send_one (Conn.sendError_eq a.conn)] at h ⊢
      rw [if_pos hab, errorOf, if_pos hs]
      rcases (a.moved a.conn a.transport).write_cases (.error Conn.errorFrame) with ⟨t, hw, _⟩ | ⟨t, e, hw, _⟩
      · rw [hw]
        exact ⟨t, rfl⟩
      · rw [hw] at h
        exact absurd ⟨e, List.mem_singleton_self _⟩ (h (.error Conn.errorFrame))
    · rw [if_neg (fun h => hs h.2), if_pos hab, errorOf, if_neg hs]
      exact ⟨a.transport, rfl⟩
  · rw [if_neg (fun h => hab h.1), if_neg hab]
    exact ⟨a.transport, rfl⟩

/-- The loop of a drain is made of rounds, up to a feed that fails. The induction is on the fuel. -/
theorem drainLoop_deeds (L : P.Lawful m) (tgt : Target) (fuel : Nat) : ∀ (a : Adapter τ cap T) (total : Nat), a.conn.Quiet →
    a.conn.mechanism = m → total ≤ a.rxLen → a.rxLen ≤ 512 → a.rxLen - total < fuel →
    TakesAll (drainLoop P tgt fuel a total).out → Did P.role tgt a.conn (drainLoop P tgt fuel a total) := by
  induction fuel with
  | zero =>
    intro a total _ _ _ _ hfuel
    omega
  | succ fuel ih =>
    intro a total q hm hle hmax hfuel htakes
    have hcompact : ∀ (b : Adapter τ cap T) k, k ≤ b.rxLen → b.rxLen ≤ 512 → Did P.role tgt b.conn (b.compact k) := by
      intro b k hk hb
      obtain ⟨b', hc, hconn, _⟩ := compact_spec hk hb
      rw [hc]
      exact ⟨by simp, b.conn, .nil, .inl hconn.symm⟩
    by_cases hlt : total < a.rxLen
    · cases drainLoop_turn L tgt fuel q hm hlt hmax with
      | goesOn c n t next hfeed hmc hans hpos hfit _ _ _ hnext ho =>
        obtain ⟨hq, hfault, _, hmech⟩ := hans.reply L.role.fits
        have hround : Deed P.role tgt a.conn (.consumed ((a.buffered.drop total).take n) :: (reply P.role a.conn c).out.map .sent)
            (reply P.role a.conn c).state := .round q hfeed hpos hans (by rw [← hfault])
        rw [ho] at htakes ⊢
        have hrest : Did P.role tgt (reply P.role a.conn c).state next := by
          rcases hnext with rfl | ⟨rfl, _⟩
          · exact hcompact (a.moved (reply P.role a.conn c).state t) _ hfit hmax
          · exact ih (a.moved (reply P.role a.conn c).state t) (total + n) hq ((hmech.trans hmc).trans hm) hfit hmax
              (show a.rxLen - (total + n) < fuel by omega) htakes.append.2.append.2
        obtain ⟨hreads, c', hdeeds, hend⟩ := hrest
        refine ⟨fun e he => ?_, c', hround.deeds.trans hdeeds, hend⟩
        simp only [List.mem_append, List.mem_singleton, List.mem_map] at he
        rcases he with rfl | ⟨s, _, rfl⟩ | he
        · rfl
        · rfl
        · exact hreads e he
      | refused c n t sent s e _ _ _ _ ho =>
        rw [ho] at htakes
        exact absurd ⟨e, by simp⟩ (htakes s)
      | failed c c' f hfeed _ _ _ _ ho =>
        rw [ho] at htakes ⊢
        obtain ⟨t, he⟩ := feedFailed_taken htakes
        rw [he]
        by_cases hab : f.aborts = false
        · simp only [if_pos hab]
          exact ⟨errorOf_isRead c, c, (Deed.reject q hfeed hab).deeds, .inl rfl⟩
        · simp only [if_neg hab]
          exact ⟨by simp, a.conn, .nil, .inr ⟨f, rfl, by simpa using hab⟩⟩
    · rw [drainLoop, if_neg hlt]
      exact hcompact a total hle hmax

/-- A drain of a steady driver is made of deeds. -/
theorem Steady.drain_deeds (L : P.Lawful m) (tgt : Target) {a : Adapter τ cap T} (s : Steady m a) (hpos : 0 < a.rxLen)
    (htakes : TakesAll (drainBuffer P tgt a).out) : Did P.role tgt a.conn (drainBuffer P tgt a) := by
  rcases s.conn with q | hs
  · exact drainLoop_deeds L tgt (a.rxLen + 1) a 0 q s.mechanism (Nat.zero_le _) s.fits (by omega) htakes
  · have hne : a.buffered.drop 0 ≠ [] := by
      intro h
      have := buffered_length s.fits
      rw [List.drop_zero] at h
      rw [h, List.length_nil] at this
      omega
    obtain ⟨e, he⟩ := hs.feed P.role tgt hne
    have hd : drainBuffer P tgt a = feedFailed a (.err e) := drainLoop_error hpos s.fits he a.rxLen
    rw [hd] at htakes ⊢
    obtain ⟨t, hf⟩ := feedFailed_taken htakes
    rw [hf]
    exact ⟨errorOf_isRead a.conn, a.conn, (Deed.refuse hs he).deeds, .inl rfl⟩

/-- A poll of a steady driver is made of deeds. -/
theorem Steady.poll_deeds (L : P.Lawful m) (tgt : Target) {a : Adapter τ cap T} (s : Steady m a)
    (htakes : TakesAll (a.poll P tgt).2.1) : ∃ c', Deeds P.role tgt a.conn (a.poll P tgt).2.1 c' ∧
      (c' = (a.poll P tgt).1.conn ∨ ∃ f, (a.poll P tgt).2.2 = .error f ∧ f.aborts = true) := by
  -- What is returned behind an outcome has the deeds of the outcome.
  have hreturn : ∀ o : Outcome (Adapter τ cap T) IoEvent ConnError, a.poll P tgt = returning o established →
      (TakesAll o.out → ∃ c', Deeds P.role tgt a.conn o.out c' ∧
        (c' = o.state.conn ∨ ∃ f, o.fault = some f ∧ f.aborts = true)) → ∃ c', Deeds P.role tgt a.conn (a.poll P tgt).2.1 c' ∧
        (c' = (a.poll P tgt).1.conn ∨ ∃ f, (a.poll P tgt).2.2 = .error f ∧ f.aborts = true) := by
    intro o hp hdid
    obtain ⟨h1, h2, h3⟩ := returning_spec o established
    rw [hp, h2] at htakes
    rw [hp, h1, h2, h3]
    obtain ⟨c', hdeeds, hend⟩ := hdid htakes
    refine ⟨c', hdeeds, ?_⟩
    rcases hend with hc | ⟨f, hf, hab⟩
    · exact .inl hc
    · exact .inr ⟨f, by rw [hf], hab⟩
  rcases s.poll_cases L tgt with ⟨hpos, hp⟩ | ⟨_, t, kind, _, hp⟩ | ⟨_, t, _, hp⟩ |
    ⟨_, t, bs, a', _, _, hc, _, hpos, hfit, _, hp⟩
  · exact hreturn _ hp fun htakes => (s.drain_deeds L tgt hpos htakes).2
  · rw [hp]
    exact ⟨a.conn, (Deed.read rfl).deeds, .inl rfl⟩
  · rw [hp]
    exact ⟨a.conn, (Deed.read rfl).deeds, .inl rfl⟩
  · have s' : Steady m a' := ⟨by rw [hc]; exact s.conn, by rw [hc]; exact s.mechanism, hfit⟩
    rw [Outcome.andThen_none rfl] at hp
    refine hreturn _ hp ?_
    intro htakes
    obtain ⟨_, c', hdeeds, hend⟩ := s'.drain_deeds L tgt hpos htakes.append.2
    rw [hc] at hdeeds
    have hread : Deed P.role tgt a.conn [.received bs] a.conn := .read rfl
    exact ⟨c', hread.deeds.trans hdeeds, hend⟩

end Adapter
end Mzmq
