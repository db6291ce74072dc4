import Mzmq.Lemmas.Driver

/-!
# Rules for the calls of a driver

A call of a driver feeds its connection and writes what the connection gives. `Keeps` says what a property of the trace and
the connection needs in order to survive that, write by write; a poll then keeps it (`Keeps.poll`), whatever the transport
does.
-/

namespace Mzmq

open Checked Consumer

/-- READY that cannot be written leaves the connection as it is. -/
theorem Conn.sendReady_fault {τ : Type} {cap : Nat} {R : Role τ} {c : Conn τ cap} (h : (c.sendReady R).fault ≠ none) :
    (c.sendReady R).state = c := by
  unfold sendReady at h ⊢
  rcases writeReady_spec R c (List.replicate 32 0) with ⟨out, he, _⟩ | ⟨out, e, he⟩
  · rw [he] at h
    exact absurd rfl h
  · rw [he]

namespace Adapter

variable {τ T : Type} {cap : Nat} [Transport T] {P : Policy τ} {tgt : Target}

/-- The operations of the connection whose output a poll writes. -/
inductive Sends (R : Role τ) : (Conn τ cap → Outcome (Conn τ cap) Sent ConnError) → Prop where
  | ready : Sends R (Conn.sendReady R)
  | welcome : Sends R Conn.sendWelcome
  | pong : Sends R Conn.sendPong

/-- The events of a write of `s` that the transport does not take. -/
def IsRefusal (s : Sent) (e : IoEvent) : Prop := ∃ w : WriteError, w.accepted ≤ s.bytes.length ∧ e = .sendFailed s w

/-- The refusal of what is no ERROR is none. -/
theorem isError_of_refusal {s : Sent} {e : IoEvent} (h : IsRefusal s e) (hs : IoEvent.isError (.sent s) = false) :
    e.isError = false := by
  obtain ⟨w, _, rfl⟩ := h
  cases s with
  | error bs => cases hs
  | _ => rfl

/-- What a poll writes besides ERROR is no ERROR. -/
theorem Sends.not_error {R : Role τ} {op : Conn τ cap → Outcome (Conn τ cap) Sent ConnError} (h : Sends R op) (c : Conn τ cap) :
    (op c).out = [] ∨ ∃ s, (op c).out = [s] ∧ (op c).fault = none ∧ IoEvent.isError (.sent s) = false ∧
      ∀ e, IsRefusal s e → e.isError = false := by
  cases h with
  | ready =>
    rcases hw : c.writeReady R (List.replicate 32 0) with ⟨c', out, f | n⟩ <;> simp only [Conn.sendReady, hw]
    · exact .inl trivial
    · exact .inr ⟨_, rfl, trivial, rfl, fun _ he => isError_of_refusal he rfl⟩
  | welcome =>
    rcases hw : c.writeWelcome (List.replicate welcomeFrame.length 0) with ⟨c', out, f | n⟩ <;> simp only [Conn.sendWelcome, hw]
    · exact .inl trivial
    · exact .inr ⟨_, rfl, trivial, rfl, fun _ he => isError_of_refusal he rfl⟩
  | pong =>
    rcases hw : c.writePong (List.replicate 23 0) with ⟨c', out, f | _ | n⟩ <;> simp only [Conn.sendPong, hw]
    · exact .inl trivial
    · exact .inl trivial
    · exact .inr ⟨_, rfl, trivial, rfl, fun _ he => isError_of_refusal he rfl⟩

/-- `I` holds of the trace and the connection as long as a poll goes on, and `E` when it stopped at a fault. -/
structure Keeps (P : Policy τ) (tgt : Target) (I E : List IoEvent → Conn τ cap → Prop) : Prop where
  idle : ∀ {tr c e}, I tr c → e.isWrite = false → I (tr ++ [e]) c
  stop : ∀ {tr c}, I tr c → E tr c
  feed : ∀ {tr c input c' n}, I tr c → c.feed P.role tgt input = (c', .ok n) → I tr c'
  reject : ∀ {tr c input c' f}, I tr c → c.feed P.role tgt input = (c', .error f) → E tr c'
  error : ∀ {tr c input c' f e}, I tr c → c.feed P.role tgt input = (c', .error f) → c'.state = .failed →
    (e = .sent (.error Conn.errorFrame) ∨ IsRefusal (.error Conn.errorFrame) e) → E (tr ++ [e]) c'
  send : ∀ {tr c op}, I tr c → Sends P.role op →
    ((op c).out = [] ∧ ((op c).fault = none → I tr (op c).state) ∧ ((op c).fault ≠ none → E tr (op c).state)) ∨
    ∃ s, (op c).out = [s] ∧ (op c).fault = none ∧ I (tr ++ [.sent s]) (op c).state ∧
      ∀ e, IsRefusal s e → E (tr ++ [e]) (op c).state

/-- What holds of the trace and the connection, behind an outcome of a driver. -/
abbrev Sat (I E : List IoEvent → Conn τ cap → Prop) (tr : List IoEvent)
    (o : Outcome (Adapter τ cap T) IoEvent ConnError) : Prop :=
  o.Sat (fun tr a => I tr a.conn) (fun tr a => E tr a.conn) tr

section Rules

variable {I E : List IoEvent → Conn τ cap → Prop} {tr : List IoEvent} {a : Adapter τ cap T}

/-- A write of `s`: it is taken, or it is refused. -/
theorem write_sat {s : Sent} (h : I (tr ++ [.sent s]) a.conn) (h' : ∀ e, IsRefusal s e → E (tr ++ [e]) a.conn) :
    Sat I E tr (a.write s) := by
  rcases a.write_cases s with ⟨t, hw, _⟩ | ⟨t, e, hw, _, _, hle⟩
  · rw [hw]
    exact ⟨fun _ => h, fun hf => absurd rfl hf⟩
  · rw [hw]
    exact ⟨fun hf => (by cases hf), fun _ => h' _ ⟨e, hle, rfl⟩⟩

variable (K : Keeps P tgt I E)

include K

/-- Sending what an operation of the connection gives. -/
theorem Keeps.send_sat {op : Conn τ cap → Outcome (Conn τ cap) Sent ConnError} (hop : Sends P.role op) (h : I tr a.conn) :
    Sat I E tr (a.send op) := by
  unfold Adapter.send
  rcases K.send h hop with ⟨hout, hgo, hstop⟩ | ⟨s, hout, hnone, hgo, hstop⟩
  · cases hf : (op a.conn).fault with
    | some f => exact .stop (hstop (by simp [hf]))
    | none =>
      rw [hout]
      exact .start (hgo hf)
  · rw [hnone, hout]
    simp only [writeEach, Outcome.andThen_stop]
    exact write_sat hgo hstop

theorem Keeps.sendMove (h : I tr a.conn) (mv : Move) : Sat I E tr (a.sendMove P.role mv) := by
  cases mv with
  | ready => exact K.send_sat .ready h
  | welcome => exact (K.send_sat .welcome h).andThen fun _ _ h => K.send_sat .ready h

/-- The return of an error of a feed, behind ERROR if the connection has failed. -/
theorem Keeps.feedFailed {input : List UInt8} {c : Conn τ cap} {f : Fault ConnError} (h : I tr c)
    (hf : c.feed P.role tgt input = (a.conn, .error f)) : Sat I E tr (a.feedFailed f) := by
  unfold Adapter.feedFailed
  by_cases he : f.aborts = false ∧ a.conn.state = .failed
  · have hw : Sat E E tr ((a.moved a.conn a.transport).write (.error Conn.errorFrame)) := by
      refine write_sat ?_ ?_
      · exact K.error h hf he.2 (.inl rfl)
      · intro e hr
        exact K.error h hf he.2 (.inr hr)
    rw [if_pos he, send_one (Conn.sendError_eq a.conn)]
    refine ⟨fun hn => (by cases hn), fun _ => ?_⟩
    cases hfault : ((a.moved a.conn a.transport).write (.error Conn.errorFrame)).fault with
    | none => exact hw.goes hfault
    | some f => exact hw.stops (by simp [hfault])
  · rw [if_neg he]
    exact .stop (K.reject h hf)

omit [Transport T] in
theorem Keeps.compact (h : I tr a.conn) (total : Nat) : Sat I E tr (a.compact total) := by
  unfold Adapter.compact
  split
  · split
    · exact .stop (K.stop h)
    · split
      · exact .stop (K.stop h)
      · exact .start h
  · exact .start h

/-- The loop of a drain, by induction on the fuel. -/
theorem Keeps.drainLoop (fuel : Nat) : ∀ {tr : List IoEvent} {a : Adapter τ cap T} (total : Nat), I tr a.conn →
    Sat I E tr (drainLoop P tgt fuel a total) := by
  induction fuel with
  | zero =>
    intro tr a total h
    exact .stop (K.stop h)
  | succ fuel ih =>
    intro tr a total h
    unfold Adapter.drainLoop
    split
    · split
      · exact .stop (K.stop h)
      · split
        · rename_i c f hf
          exact K.feedFailed (a := { a with conn := c }) h hf
        · rename_i input _ _ c n hf
          have hfed : Sat I E tr (⟨{ a with conn := c }, [.consumed (input.take n)], none⟩ :
              Outcome (Adapter τ cap T) IoEvent ConnError) :=
            ⟨fun _ => K.idle (K.feed h hf) rfl, fun hn => absurd rfl hn⟩
          refine hfed.andThen fun tr a' h => ?_
          split
          · exact (K.sendMove h _).andThen fun _ _ h => K.compact h _
          · refine (K.send_sat .pong h).andThen fun _ _ h => ?_
            split
            · exact K.compact h _
            · exact ih _ h
    · exact K.compact h total

theorem Keeps.readMore (h : I tr a.conn) : Sat I E tr (readMore P tgt a) := by
  have hread : ∀ {e : IoEvent}, e.isWrite = false → I (tr ++ [e]) a.conn := fun he => K.idle h he
  unfold Adapter.readMore
  split
  · split
    · exact ⟨fun hn => (by cases hn), fun _ => K.stop (hread rfl)⟩
    · exact ⟨fun hn => (by cases hn), fun _ => K.stop (hread rfl)⟩
    · split
      · exact ⟨fun hn => (by cases hn), fun _ => K.stop (hread rfl)⟩
      · rename_i t bs _ _ _ buf _
        have hgot : Sat I E tr (⟨⟨a.conn, t, buf, a.rxLen + bs.length⟩, [.received bs], none⟩ :
            Outcome (Adapter τ cap T) IoEvent ConnError) := ⟨fun _ => hread rfl, fun hn => absurd rfl hn⟩
        exact hgot.andThen fun _ _ h => K.drainLoop _ 0 h
  · exact .stop (K.stop h)

theorem Keeps.pollBuffer (h : I tr a.conn) : Sat I E tr (pollBuffer P tgt a) := by
  unfold Adapter.pollBuffer
  split
  · refine (K.drainLoop (a.rxLen + 1) 0 h).andThen fun _ _ h => ?_
    split
    · exact .start h
    · exact K.readMore h
  · exact K.readMore h

omit [Transport T] K in
/-- What is returned behind an outcome. -/
theorem returning_sat {o : Outcome (Adapter τ cap T) IoEvent ConnError} (h : Sat I E tr o) (value : Adapter τ cap T → Bool) :
    (∀ v, (returning o value).2.2 = .ok v → I (tr ++ (returning o value).2.1) (returning o value).1.conn) ∧
      ∀ f, (returning o value).2.2 = .error f → E (tr ++ (returning o value).2.1) (returning o value).1.conn := by
  obtain ⟨h1, h2, h3⟩ := returning_spec o value
  rw [h1, h2, h3]
  cases hf : o.fault with
  | none => exact ⟨fun _ _ => h.goes hf, fun _ hr => (by cases hr)⟩
  | some f => exact ⟨fun _ hr => (by cases hr), fun _ _ => h.stops (by simp [hf])⟩

/-- A poll keeps what its steps keep. -/
theorem Keeps.poll (h : I tr a.conn) :
    (∀ v, (a.poll P tgt).2.2 = .ok v → I (tr ++ (a.poll P tgt).2.1) (a.poll P tgt).1.conn) ∧
      ∀ f, (a.poll P tgt).2.2 = .error f → E (tr ++ (a.poll P tgt).2.1) (a.poll P tgt).1.conn := by
  unfold Adapter.poll
  by_cases hs : a.conn.state = .ready
  · rw [if_pos hs]
    have hrefused : (a.conn.sendReady P.role).fault ≠ none → I tr (a.conn.sendReady P.role).state := by
      intro hf
      rw [Conn.sendReady_fault hf]
      exact h
    split
    · rename_i hf
      have hw := K.send_sat (a := a) .ready h
      simp only [Adapter.send, hf] at hw
      exact returning_sat hw _
    · rename_i hf
      exact returning_sat (K.pollBuffer (a := { a with conn := _ }) (hrefused (by simp [hf]))) _
    · rename_i f _ hf
      refine ⟨fun _ hr => (by cases hr), fun _ _ => ?_⟩
      rw [List.append_nil]
      exact K.stop (hrefused (by simp [hf]))
  · rw [if_neg hs]
    exact returning_sat (K.pollBuffer h) _

end Rules

/-! ## ERROR -/

/-- No ERROR was written. -/
def NoError (tr : List IoEvent) (_ : Conn τ cap) : Prop := tr.countP IoEvent.isError = 0

theorem NoError.snoc {tr : List IoEvent} {c c' : Conn τ cap} {e : IoEvent} (h : NoError tr c) (he : e.isError = false) :
    NoError (tr ++ [e]) c' := by
  unfold NoError at h ⊢
  rw [List.countP_append, h, List.countP_singleton, he]
  rfl

/-- No ERROR was written, or the connection has failed and ERROR was the last write, taken or refused. -/
def ErrorLast (tr : List IoEvent) (c : Conn τ cap) : Prop :=
  NoError tr c ∨ c.state = .failed ∧ ∃ tr' e, tr = tr' ++ [e] ∧ NoError tr' c ∧
    (e = .sent (.error Conn.errorFrame) ∨ IsRefusal (.error Conn.errorFrame) e)

/-- As long as a poll goes on, it has written no ERROR; behind ERROR it stops, and the connection has failed. -/
theorem keeps_noError (P : Policy τ) (tgt : Target) : Keeps P tgt (NoError : _ → Conn τ cap → Prop) ErrorLast where
  idle {tr c e} h he := h.snoc (by cases e <;> first | rfl | cases he)
  stop h := .inl h
  feed h _ := h
  reject h _ := .inl h
  error {tr c input c' f e} h _ hs he := .inr ⟨hs, tr, e, rfl, h, he⟩
  send {tr c op} h hop := by
    rcases hop.not_error c with hout | ⟨s, hout, hf, hs, hr⟩
    · exact .inl ⟨hout, fun _ => h, fun _ => .inl h⟩
    · exact .inr ⟨s, hout, hf, h.snoc hs, fun e he => .inl (h.snoc (hr e he))⟩

/-- A poll writes ERROR last, if at all. -/
theorem poll_error_last (P : Policy τ) (tgt : Target) (a : Adapter τ cap T) :
    ErrorLast (a.poll P tgt).2.1 (a.poll P tgt).1.conn := by
  have h0 : NoError [] a.conn := rfl
  obtain ⟨hok, herr⟩ := (keeps_noError P tgt).poll h0
  rw [List.nil_append] at hok herr
  cases hr : (a.poll P tgt).2.2 with
  | ok v => exact .inl (hok v hr)
  | error f => exact herr f hr

/-! ## Publishing -/

/-- The four pieces of a publish. -/
def pieces (topic payload : List UInt8) : PublishHeaders → List Sent
  | (th, thN, ph, phN) => [.piece (th.take thN), .piece topic, .piece (ph.take phN), .piece payload]

/-- A publish does nothing, or it writes its pieces one after the other. -/
theorem publish_cases (P : Policy τ) (tgt : Target) (a : Adapter τ cap T) (topic payload : List UInt8) :
    (∃ r, a.publish P tgt topic payload = (a, [], r)) ∨
    ∃ hdrs, a.conn.publishHeaders P.role topic payload = .ok (some hdrs) ∧
      (a.publish P tgt topic payload).1 = (a.writeEach (pieces topic payload hdrs)).state ∧
      (a.publish P tgt topic payload).2.1 = (a.writeEach (pieces topic payload hdrs)).out := by
  unfold Adapter.publish
  split
  · exact .inl ⟨_, rfl⟩
  · exact .inl ⟨_, rfl⟩
  · rename_i th thN ph phN heq
    refine .inr ⟨_, heq, ?_⟩
    simp only [pieces]
    cases hf : (a.writeEach [.piece (th.take thN), .piece topic, .piece (ph.take phN), .piece payload]).fault <;>
      exact ⟨rfl, rfl⟩

/-- The pieces of a publish are no commands. -/
theorem publish_pieces (P : Policy τ) (tgt : Target) (a : Adapter τ cap T) (topic payload : List UInt8) :
    ∀ e ∈ (a.publish P tgt topic payload).2.1, ∃ bs, e = .sent (.piece bs) ∨ IsRefusal (.piece bs) e := by
  intro e he
  rcases a.publish_cases P tgt topic payload with ⟨r, h⟩ | ⟨⟨th, thN, ph, phN⟩, _, _, hout⟩
  · rw [h] at he
    cases he
  · have hpiece : ∀ s ∈ pieces topic payload (th, thN, ph, phN), ∃ bs, s = .piece bs := by
      intro s hs
      simp only [pieces, List.mem_cons, List.not_mem_nil, or_false] at hs
      rcases hs with rfl | rfl | rfl | rfl <;> exact ⟨_, rfl⟩
    rw [hout] at he
    rcases a.writeEach_cases (pieces topic payload (th, thN, ph, phN)) with
      ⟨t, hw, _⟩ | ⟨t, done, s, left, w, hss, hw, _, _, hle⟩
    · rw [hw] at he
      obtain ⟨s, hs, rfl⟩ := List.mem_map.mp he
      obtain ⟨bs, rfl⟩ := hpiece s hs
      exact ⟨bs, .inl rfl⟩
    · rw [hw] at he
      rcases List.mem_append.mp he with he | he
      · obtain ⟨s', hs, rfl⟩ := List.mem_map.mp he
        obtain ⟨bs, rfl⟩ := hpiece s' (by rw [hss]; exact List.mem_append_left _ hs)
        exact ⟨bs, .inl rfl⟩
      · rw [List.mem_singleton] at he
        obtain ⟨bs, rfl⟩ := hpiece s (by rw [hss]; simp)
        exact ⟨bs, .inr ⟨w, hle, he⟩⟩

end Adapter
end Mzmq
