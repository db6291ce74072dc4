import Mzmq.Lib.Checked

/-!
# Resumable consumers

A consumer takes items one at a time: after an item it asks for more, or it is done with a unit of input, or it fails
(`Answer`). `offer` hands it a list of items and stops at the first answer that is not `more`, which is what one call of a
streaming `feed` does. A caller that holds a stream in pieces feeds each piece, feeds again what was not consumed, and acts
after every feed (`Feeder`, `pump`). `Lawful` says that such a `feed` is the consumer it claims to be and that the action
has nothing to do while the consumer asks for more; then what the caller sees does not depend on how the stream is cut
(`pumpChunks_agrees`): it is what taking the stream item by item gives (`steps`).

Nothing here depends on the program that uses it.
-/

namespace Consumer

open Checked

variable {σ α β ε ω ο : Type}

/-- What a consumer answers to one item. -/
inductive Answer (ε β : Type) where
  | more
  | done (b : β)
  | fail (e : ε)

/-- Count one more consumed item. -/
def bump (r : σ × Except ε (Nat × Option β)) : σ × Except ε (Nat × Option β) :=
  (r.1, r.2.map fun p => (p.1 + 1, p.2))

/-- Offer items one by one until the consumer is done or fails: how many it took, and what it is done with. -/
def offer (push : σ → α → σ × Answer ε β) : σ → List α → σ × Except ε (Nat × Option β)
  | s, [] => (s, .ok (0, none))
  | s, a :: as =>
    match push s a with
    | (s', .more) => bump (offer push s' as)
    | (s', .done b) => (s', .ok (1, some b))
    | (s', .fail e) => (s', .error e)

variable {push : σ → α → σ × Answer ε β}

theorem offer_cons_more {s t : σ} {a : α} {as : List α} (h : push s a = (t, .more)) :
    offer push s (a :: as) = bump (offer push t as) := by
  simp [offer, h]

theorem offer_cons_done {s t : σ} {a : α} {as : List α} {b : β} (h : push s a = (t, .done b)) :
    offer push s (a :: as) = (t, .ok (1, some b)) := by
  simp [offer, h]

theorem offer_cons_fail {s t : σ} {a : α} {as : List α} {e : ε} (h : push s a = (t, .fail e)) :
    offer push s (a :: as) = (t, .error e) := by
  simp [offer, h]

/-- Two consumers that answer alike, as long as they ask for more, take an offer alike. -/
theorem offer_congr {push' : σ → α → σ × Answer ε β} {P : σ → Prop} (hpush : ∀ s a, P s → push s a = push' s a)
    (hmore : ∀ s s' a, P s → push s a = (s', .more) → P s') {s : σ} (hs : P s) (as : List α) :
    offer push s as = offer push' s as := by
  induction as generalizing s with
  | nil => rfl
  | cons a as ih =>
    cases hp : push s a with
    | mk s' r =>
      have hp' := (hpush s a hs).symm.trans hp
      cases r with
      | more => rw [offer_cons_more hp, offer_cons_more hp', ih (hmore s s' a hs hp)]
      | done b => rw [offer_cons_done hp, offer_cons_done hp']
      | fail e => rw [offer_cons_fail hp, offer_cons_fail hp']

/-- A consumer takes no more than it is offered, all of it when it asks for more, and something when it is offered
something. -/
theorem offer_consumed {s s' : σ} {as : List α} {n : Nat} {o : Option β} (h : offer push s as = (s', .ok (n, o))) :
    n ≤ as.length ∧ (o = none → n = as.length) ∧ (as ≠ [] → 0 < n) := by
  induction as generalizing s n with
  | nil =>
    simp only [offer, Prod.mk.injEq, Except.ok.injEq] at h
    obtain ⟨_, rfl, rfl⟩ := h
    simp
  | cons a as ih =>
    cases hp : push s a with
    | mk s1 r =>
      cases r with
      | more =>
        rw [offer_cons_more hp] at h
        cases ho : offer push s1 as with
        | mk s2 r2 =>
          rw [ho] at h
          cases r2 with
          | error e => simp [bump, Except.map] at h
          | ok p =>
            obtain ⟨m, o'⟩ := p
            simp only [bump, Except.map, Prod.mk.injEq, Except.ok.injEq] at h
            obtain ⟨rfl, rfl, rfl⟩ := h
            obtain ⟨h1, h2, _⟩ := ih ho
            simp only [List.length_cons]
            exact ⟨by omega, fun hn => by rw [h2 hn], fun _ => by omega⟩
      | done b =>
        rw [offer_cons_done hp] at h
        simp only [Prod.mk.injEq, Except.ok.injEq] at h
        obtain ⟨_, rfl, rfl⟩ := h
        simp
      | fail e =>
        rw [offer_cons_fail hp] at h
        simp at h

/-- How an offer ends: with the consumer asking for more, or with the answer to one item. `P` is what every state in between
satisfies. -/
theorem offer_last {P : σ → Prop} (hmore : ∀ s s' a, P s → push s a = (s', .more) → P s') {s s' : σ} (hs : P s)
    {as : List α} {r : Except ε (Nat × Option β)} (h : offer push s as = (s', r)) :
    match r with
    | .ok (_, none) => P s'
    | .ok (_, some b) => ∃ t a, P t ∧ push t a = (s', .done b)
    | .error e => ∃ t a, P t ∧ push t a = (s', .fail e) := by
  induction as generalizing s r with
  | nil =>
    simp only [offer, Prod.mk.injEq] at h
    obtain ⟨rfl, rfl⟩ := h
    exact hs
  | cons a as ih =>
    cases hp : push s a with
    | mk t q =>
      cases q with
      | more =>
        rw [offer_cons_more hp] at h
        have h1 := hmore s t a hs hp
        rcases ho : offer push t as with ⟨t', e | ⟨n, o⟩⟩
        · rw [ho] at h
          cases h
          exact ih h1 ho
        · rw [ho] at h
          cases h
          have := ih h1 ho
          cases o <;> exact this
      | done b =>
        rw [offer_cons_done hp] at h
        cases h
        exact ⟨s, a, hs, hp⟩
      | fail e =>
        rw [offer_cons_fail hp] at h
        cases h
        exact ⟨s, a, hs, hp⟩

/-! ## Feeding a stream in pieces -/

/-- How a caller's work ended: the state it left, what it sent, and the fault it stopped at, if any. -/
structure Outcome (σ ω ε : Type) where
  state : σ
  out : List ω
  fault : Option (Fault ε)

/-- Go on from an outcome, unless it stopped at a fault. -/
def Outcome.andThen (r : Outcome σ ω ε) (k : σ → Outcome σ ω ε) : Outcome σ ω ε :=
  match r.fault with
  | some _ => r
  | none => { state := (k r.state).state, out := r.out ++ (k r.state).out, fault := (k r.state).fault }

/-- A caller of a streaming `feed`: the call, and what the caller does after a call that consumed something or nothing,
knowing the state before it. The action may send items of its own and may fail. -/
structure Feeder (σ α ω ε : Type) where
  feed : σ → List α → σ × Res ε Nat
  after : σ → σ → Outcome σ ω ε

/-- Feed one piece, and again what was not consumed of it, acting after each feed. -/
def Feeder.pump (F : Feeder σ α ω ε) : Nat → σ → List α → Outcome σ ω ε
  | 0, s, _ => ⟨s, [], some .hang⟩
  | fuel + 1, s, xs =>
    match F.feed s xs with
    | (s', .error e) => ⟨s', [], some e⟩
    | (s', .ok n) =>
      (F.after s s').andThen fun t => if xs.length ≤ n then ⟨t, [], none⟩ else F.pump fuel t (xs.drop n)

/-- Feed the pieces of a stream one after the other. -/
def Feeder.pumpChunks (F : Feeder σ α ω ε) : σ → List (List α) → Outcome σ ω ε
  | s, [] => ⟨s, [], none⟩
  | s, c :: cs => (F.pump (c.length + 1) s c).andThen fun t => F.pumpChunks t cs

/-- Take a stream item by item, acting whenever the consumer is done with a unit. -/
def steps (push : σ → α → σ × Answer (Fault ε) β) (after : σ → σ → Outcome σ ω ε) : σ → List α → Outcome σ ω ε
  | s, [] => ⟨s, [], none⟩
  | s, a :: as =>
    match push s a with
    | (s', .more) => steps push after s' as
    | (s', .done _) => (after s s').andThen fun t => steps push after t as
    | (s', .fail e) => ⟨s', [], some e⟩

/-- Two outcomes agree: the same items sent, the same fault, and the same state, or only what is observed of it when they
stopped at a fault. -/
structure Outcome.Agrees (obs : σ → ο) (a b : Outcome σ ω ε) : Prop where
  out : a.out = b.out
  fault : a.fault = b.fault
  state : a.fault = none → a.state = b.state
  seen : obs a.state = obs b.state

/-- `feed` is the consumer `push` from every state that satisfies `Inv`, up to what is observed of a failed state; the
action after a feed does nothing while the consumer asks for more and succeeds when it is done. -/
structure Feeder.Lawful (F : Feeder σ α ω ε) (push : σ → α → σ × Answer (Fault ε) β) (Inv : σ → Prop) (obs : σ → ο) :
    Prop where
  feed_ok : ∀ {s s' xs n o}, Inv s → offer push s xs = (s', .ok (n, o)) → F.feed s xs = (s', .ok n)
  feed_error : ∀ {s s' xs e}, Inv s → offer push s xs = (s', .error e) →
    ∃ s'', F.feed s xs = (s'', .error e) ∧ obs s'' = obs s'
  after_self : ∀ {s}, Inv s → F.after s s = ⟨s, [], none⟩
  more_inv : ∀ {s s' a}, Inv s → push s a = (s', .more) → Inv s'
  more_after : ∀ {s s' a}, Inv s → push s a = (s', .more) → F.after s = F.after s'
  done_inv : ∀ {s s' a b}, Inv s → push s a = (s', .done b) → 
    Inv (F.after s s').state ∧ (F.after s s').fault = none

/-! ## Lemmas on outcomes -/

theorem Outcome.andThen_none {r : Outcome σ ω ε} (h : r.fault = none) (k : σ → Outcome σ ω ε) :
    r.andThen k = ⟨(k r.state).state, r.out ++ (k r.state).out, (k r.state).fault⟩ := by
  simp [Outcome.andThen, h]

theorem Outcome.andThen_some {r : Outcome σ ω ε} {e : Fault ε} (h : r.fault = some e) (k : σ → Outcome σ ω ε) :
    r.andThen k = r := by
  simp [Outcome.andThen, h]

/-- Going on from an outcome that sent nothing and did not stop. -/
theorem Outcome.andThen_start (s : σ) (k : σ → Outcome σ ω ε) : Outcome.andThen ⟨s, [], none⟩ k = k s := by
  simp [Outcome.andThen]

/-- Going on without doing anything. -/
theorem Outcome.andThen_stop (r : Outcome σ ω ε) : (r.andThen fun s => ⟨s, [], none⟩) = r := by
  obtain ⟨s, out, _ | e⟩ := r
  · simp [Outcome.andThen]
  · rfl

/-- Going on with something that does nothing here. -/
theorem Outcome.andThen_idle {r : Outcome σ ω ε} {k : σ → Outcome σ ω ε}
    (h : r.fault = none → k r.state = ⟨r.state, [], none⟩) : r.andThen k = r := by
  cases hr : r.fault with
  | some e => rw [andThen_some hr]
  | none =>
    rw [andThen_none hr, h hr, List.append_nil, ← hr]

/-- What holds of the state, and what goes on keeps, holds of the state behind. -/
theorem Outcome.andThen_state {I : σ → Prop} {r : Outcome σ ω ε} {k : σ → Outcome σ ω ε} (h : I r.state)
    (hk : ∀ s, I s → I (k s).state) : I (r.andThen k).state := by
  cases hr : r.fault with
  | some e =>
    rw [andThen_some hr]
    exact h
  | none =>
    rw [andThen_none hr]
    exact hk _ h

theorem Outcome.andThen_assoc (r : Outcome σ ω ε) (k l : σ → Outcome σ ω ε) :
    (r.andThen k).andThen l = r.andThen fun s => (k s).andThen l := by
  cases hr : r.fault with
  | some e => rw [andThen_some hr, andThen_some hr, andThen_some hr]
  | none =>
    rw [andThen_none hr, andThen_none hr]
    cases hk : (k r.state).fault with
    | some e => simp [Outcome.andThen, hk]
    | none => simp [Outcome.andThen, hk, List.append_assoc]

/-! ## Pre- and postconditions -/

/-- Behind the history `past`, an outcome that goes on establishes `Q` of the longer history and of the state it left, and one
that stopped at a fault establishes `E` of them. -/
structure Outcome.Sat (Q E : List ω → σ → Prop) (past : List ω) (r : Outcome σ ω ε) : Prop where
  goes : r.fault = none → Q (past ++ r.out) r.state
  stops : r.fault ≠ none → E (past ++ r.out) r.state

/-- An outcome that did nothing and goes on. -/
theorem Outcome.Sat.start {Q E : List ω → σ → Prop} {past : List ω} {s : σ} (h : Q past s) :
    Outcome.Sat (ε := ε) Q E past ⟨s, [], none⟩ :=
  ⟨fun _ => (by rwa [List.append_nil]), fun hf => absurd rfl hf⟩

/-- An outcome that did nothing and stopped. -/
theorem Outcome.Sat.stop {Q E : List ω → σ → Prop} {past : List ω} {s : σ} {f : Fault ε} (h : E past s) :
    Outcome.Sat Q E past ⟨s, [], some f⟩ :=
  ⟨fun hf => (by cases hf), fun _ => (by rwa [List.append_nil])⟩

/-- The rule of sequence: what the first part establishes, the rest starts from. -/
theorem Outcome.Sat.andThen {Q Q' E : List ω → σ → Prop} {past : List ω} {r : Outcome σ ω ε} {k : σ → Outcome σ ω ε}
    (h : r.Sat Q E past) (hk : ∀ past s, Q past s → (k s).Sat Q' E past) : (r.andThen k).Sat Q' E past := by
  cases hr : r.fault with
  | some f =>
    rw [Outcome.andThen_some hr]
    refine ⟨fun hn => ?_, h.stops⟩
    rw [hr] at hn
    cases hn
  | none =>
    rw [Outcome.andThen_none hr]
    have hrest := hk _ _ (h.goes hr)
    refine ⟨fun hn => ?_, fun hn => ?_⟩
    · rw [← List.append_assoc]
      exact hrest.goes hn
    · rw [← List.append_assoc]
      exact hrest.stops hn

/-! ## Agreement -/

theorem Outcome.Agrees.refl (obs : σ → ο) (a : Outcome σ ω ε) : Outcome.Agrees obs a a :=
  ⟨rfl, rfl, fun _ => rfl, rfl⟩

theorem Outcome.Agrees.symm {obs : σ → ο} {a b : Outcome σ ω ε} (h : Outcome.Agrees obs a b) :
    Outcome.Agrees obs b a :=
  ⟨h.out.symm, h.fault.symm, fun hn => (h.state (h.fault.trans hn)).symm, h.seen.symm⟩

theorem Outcome.Agrees.trans {obs : σ → ο} {a b c : Outcome σ ω ε} (h : Outcome.Agrees obs a b)
    (h' : Outcome.Agrees obs b c) : Outcome.Agrees obs a c :=
  ⟨h.out.trans h'.out, h.fault.trans h'.fault, fun hn => (h.state hn).trans (h'.state (h.fault.symm.trans hn)),
    h.seen.trans h'.seen⟩

/-- Outcomes that agree go on in outcomes that agree. -/
theorem Outcome.Agrees.andThen {obs : σ → ο} {a b : Outcome σ ω ε} {k l : σ → Outcome σ ω ε}
    (h : Outcome.Agrees obs a b) (hk : a.fault = none → Outcome.Agrees obs (k a.state) (l a.state)) :
    Outcome.Agrees obs (a.andThen k) (b.andThen l) := by
  cases ha : a.fault with
  | some e =>
    rw [Outcome.andThen_some ha, Outcome.andThen_some (h.fault.symm.trans ha)]
    exact h
  | none =>
    rw [Outcome.andThen_none ha, Outcome.andThen_none (h.fault.symm.trans ha), ← h.state ha, ← h.out]
    obtain ⟨h1, h2, h3, h4⟩ := hk ha
    exact ⟨by rw [h1], h2, h3, h4⟩

/-! ## Chunking independence -/

section Steps

variable {push : σ → α → σ × Answer (Fault ε) β} {after : σ → σ → Outcome σ ω ε}

/-- Taking a stream item by item can be interrupted anywhere. -/
theorem steps_append (s : σ) (xs ys : List α) :
    steps push after s (xs ++ ys) = (steps push after s xs).andThen fun t => steps push after t ys := by
  induction xs generalizing s with
  | nil => simp [steps, Outcome.andThen]
  | cons a as ih =>
    cases hp : push s a with
    | mk s' r =>
      cases r with
      | more => simp only [List.cons_append, steps, hp, ih]
      | done b => simp only [List.cons_append, steps, hp, ih, Outcome.andThen_assoc]
      | fail e => simp [steps, hp, Outcome.andThen]

/-- What every item and every action keeps, a stream that is taken without a fault keeps. -/
theorem steps_keeps {I : σ → Prop} (hmore : ∀ s a s', I s → push s a = (s', .more) → I s')
    (hdone : ∀ s a s' b, I s → push s a = (s', .done b) → (after s s').fault = none → I (after s s').state) {s : σ} {xs : List α}
    (hs : I s) (h : (steps push after s xs).fault = none) : I (steps push after s xs).state := by
  induction xs generalizing s with
  | nil => exact hs
  | cons a as ih =>
    cases hp : push s a with
    | mk s' r =>
      simp only [steps, hp] at h ⊢
      cases r with
      | more => exact ih (hmore _ _ _ hs hp) h
      | done b =>
        cases hf : (after s s').fault with
        | none =>
          simp only [Outcome.andThen_none hf] at h ⊢
          exact ih (hdone _ _ _ _ hs hp hf) h
        | some e =>
          simp only [Outcome.andThen_some hf, hf] at h
          cases h
      | fail e => simp at h

end Steps

section Lawful

variable {F : Feeder σ α ω ε} {push : σ → α → σ × Answer (Fault ε) β} {Inv : σ → Prop} {obs : σ → ο}

/-- What one offer does to the item-by-item reading of a stream, by its three answers: the whole offer was taken and the
consumer asks for more; it is done, and the caller acts; or it fails. -/
theorem Feeder.Lawful.steps_offer (L : F.Lawful push Inv obs) {s s' : σ} {xs : List α}
    {r : Except (Fault ε) (Nat × Option β)} (hs : Inv s) (h : offer push s xs = (s', r)) :
    match r with
    | .ok (_, none) => steps push F.after s xs = ⟨s', [], none⟩ ∧ Inv s' ∧ F.after s s' = ⟨s', [], none⟩
    | .ok (n, some _) =>
      steps push F.after s xs = (F.after s s').andThen (fun t => steps push F.after t (xs.drop n)) ∧
        Inv (F.after s s').state ∧ (F.after s s').fault = none
    | .error e => steps push F.after s xs = ⟨s', [], some e⟩ := by
  induction xs generalizing s s' r with
  | nil =>
    simp only [offer, Prod.mk.injEq] at h
    obtain ⟨rfl, rfl⟩ := h
    exact ⟨rfl, hs, L.after_self hs⟩
  | cons a as ih =>
    cases hp : push s a with
    | mk s1 q =>
      cases q with
      | more =>
        rw [offer_cons_more hp] at h
        have h1 := L.more_inv hs hp
        have e := L.more_after hs hp
        have hst : steps push F.after s (a :: as) = steps push F.after s1 as := by simp [steps, hp]
        cases ho : offer push s1 as with
        | mk s2 r2 =>
          have := ih h1 ho
          rw [ho] at h
          simp only [bump, Prod.mk.injEq] at h
          obtain ⟨rfl, rfl⟩ := h
          rw [hst, e]
          cases r2 with
          | error e => exact this
          | ok p =>
            obtain ⟨m, o⟩ := p
            cases o <;> exact this
      | done b =>
        rw [offer_cons_done hp] at h
        simp only [Prod.mk.injEq] at h
        obtain ⟨rfl, rfl⟩ := h
        refine ⟨?_, L.done_inv hs hp⟩
        simp [steps, hp]
      | fail e =>
        rw [offer_cons_fail hp] at h
        simp only [Prod.mk.injEq] at h
        obtain ⟨rfl, rfl⟩ := h
        simp [steps, hp]

/-- A state reached item by item without a fault satisfies the invariant again. -/
theorem Feeder.Lawful.steps_inv (L : F.Lawful push Inv obs) {s : σ} {xs : List α} (hs : Inv s)
    (h : (steps push F.after s xs).fault = none) : Inv (steps push F.after s xs).state := by
  induction xs generalizing s with
  | nil => exact hs
  | cons a as ih =>
    cases hp : push s a with
    | mk s' r =>
      simp only [steps, hp] at h ⊢
      cases r with
      | more => exact ih (L.more_inv hs hp) h
      | done b =>
        obtain ⟨h1, h2⟩ := L.done_inv hs hp
        simp only [Outcome.andThen_none h2] at h ⊢
        exact ih h1 h
      | fail e => simp at h

/-- A fault that ends an item-by-item reading is an answer to one item. -/
theorem Feeder.Lawful.steps_fault (L : F.Lawful push Inv obs) {s : σ} {xs : List α} (hs : Inv s) {e : Fault ε}
    (h : (steps push F.after s xs).fault = some e) : ∃ t t' a, Inv t ∧ push t a = (t', .fail e) := by
  induction xs generalizing s with
  | nil => simp [steps] at h
  | cons a as ih =>
    cases hp : push s a with
    | mk s' r =>
      simp only [steps, hp] at h
      cases r with
      | more => exact ih (L.more_inv hs hp) h
      | done b =>
        obtain ⟨h1, h2⟩ := L.done_inv hs hp
        simp only [Outcome.andThen_none h2] at h
        exact ih h1 h
      | fail e' =>
        simp only [Option.some.injEq] at h
        subst h
        exact ⟨s, s', a, hs, hp⟩

/-- Feeding one piece, with enough fuel, is taking it item by item. The induction is on the fuel: every feed of a nonempty
piece consumes something. -/
theorem Feeder.Lawful.pump_agrees (L : F.Lawful push Inv obs) (fuel : Nat) :
    ∀ {s : σ} {xs : List α}, Inv s → xs.length < fuel →
      Outcome.Agrees obs (F.pump fuel s xs) (steps push F.after s xs) := by
  induction fuel with
  | zero => intro s xs _ h; omega
  | succ fuel ih =>
    intro s xs hs hlen
    cases ho : offer push s xs with
    | mk s' r =>
      have hst := L.steps_offer hs ho
      cases r with
      | error e =>
        obtain ⟨s'', hf, hobs⟩ := L.feed_error hs ho
        simp only at hst
        rw [hst, Feeder.pump, hf]
        exact ⟨rfl, rfl, fun h => (by cases h), hobs⟩
      | ok p =>
        obtain ⟨n, o⟩ := p
        have hf := L.feed_ok hs ho
        obtain ⟨hn, hall, hpos⟩ := offer_consumed ho
        rw [Feeder.pump, hf]
        cases o with
        | none =>
          simp only at hst
          obtain ⟨hst, _, ha⟩ := hst
          have hn' := hall rfl
          simp only [ha, hst, hn', Nat.le_refl, if_true, Outcome.andThen, List.append_nil]
          exact Outcome.Agrees.refl obs _
        | some b =>
          simp only at hst
          obtain ⟨hst, hinv, hnone⟩ := hst
          rw [hst]
          apply Outcome.Agrees.andThen (Outcome.Agrees.refl obs _)
          intro _
          by_cases hle : xs.length ≤ n
          · rw [if_pos hle, List.drop_of_length_le hle]
            exact Outcome.Agrees.refl obs _
          · rw [if_neg hle]
            have hne : xs ≠ [] := by
              intro h0
              simp [h0] at hle
            have := hpos hne
            apply ih hinv
            rw [List.length_drop]
            omega

/-- However a stream is cut into pieces, feeding the pieces is taking the stream item by item. -/
theorem Feeder.Lawful.pumpChunks_agrees (L : F.Lawful push Inv obs) {s : σ} (hs : Inv s) (cs : List (List α)) :
    Outcome.Agrees obs (F.pumpChunks s cs) (steps push F.after s cs.flatten) := by
  induction cs generalizing s with
  | nil => exact Outcome.Agrees.refl obs _
  | cons c cs ih =>
    rw [Feeder.pumpChunks, List.flatten_cons, steps_append]
    have hp := L.pump_agrees (c.length + 1) hs (Nat.lt_succ_self c.length)
    apply hp.andThen
    intro hn
    have hs' := L.steps_inv hs (hp.fault.symm.trans hn)
    rw [hp.state hn]
    exact ih hs'

end Lawful

end Consumer
