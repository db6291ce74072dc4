import Mzmq.Lemmas.Run
import Mzmq.Lemmas.Tables

/-!
# Feeding an established connection

A connection that has just become `Established` has an empty table and a decoder at the start of a frame
(`JustEstablished.fresh`). Feeding it the wire form of any frames, in any pieces, never errs, and does to its table what the
frames ask for, one after the other (`feeding_stream`).
-/

namespace Mzmq

open Checked Consumer

variable {τ : Type} {cap : Nat} {R : Role τ} {tgt : Target}

/-! ## What a frame does to the table -/

/-- A body begins with a complete name when it begins with the name behind its length. -/
theorem isPrefixOf_iff_named {name body : List UInt8} (hn : name.length < 256) :
    (commandBody name []).isPrefixOf body = true ↔ Named body name := by
  rw [List.isPrefixOf_iff_prefix, commandBody, List.append_nil]
  constructor
  · rintro ⟨rest, rfl⟩
    exact ⟨hn, rest, rfl⟩
  · rintro ⟨_, rest, rfl⟩
    exact ⟨rest, rfl⟩

/-- What a role does to its table when it is asked. -/
def Role.run (R : Role τ) (t : τ) : Ask → τ
  | .add key => R.add t key
  | .remove key => R.remove t key
  | .other => t

namespace Conn

/-- A command does to the table what its name asks for. -/
theorem onCommand_table (hadd : R.addName.length < 256) (hremove : R.removeName.length < 256) (c : Conn τ cap)
    (body : List UInt8) : ∃ pong, onCommand R c body =
      (c.withTable (R.run c.table (commandAsk R.addName R.removeName body)) pong, .ok ()) := by
  unfold commandAsk
  by_cases hname : ∃ name, Named body name
  · obtain ⟨name, hn⟩ := hname
    -- The names that the role knows are tested one after the other, as `commandAsk` does.
    have hsame : ∀ name' : List UInt8, name'.length < 256 → ((commandBody name' []).isPrefixOf body = true ↔ name = name') :=
      fun name' hlen => (isPrefixOf_iff_named hlen).trans ⟨hn.unique, fun h => h ▸ hn⟩
    rw [onCommand_named R c hn]
    by_cases h1 : name = R.addName
    · rw [if_pos h1, if_pos ((hsame _ hadd).mpr h1), h1]
      exact ⟨c.pendingPong, rfl⟩
    · rw [if_neg h1, if_neg (mt (hsame _ hadd).mp h1)]
      by_cases h2 : name = R.removeName
      · rw [if_pos h2, if_pos ((hsame _ hremove).mpr h2), h2]
        exact ⟨c.pendingPong, rfl⟩
      · rw [if_neg h2, if_neg (mt (hsame _ hremove).mp h2)]
        split
        · obtain ⟨ctx, hq⟩ := queuePong_ok c (body.drop (1 + name.length))
          exact ⟨_, hq⟩
        · exact ⟨c.pendingPong, rfl⟩
  · have hno : ∀ name : List UInt8, name.length < 256 → ¬(commandBody name []).isPrefixOf body = true :=
      fun name hlen h => hname ⟨name, (isPrefixOf_iff_named hlen).mp h⟩
    rw [onCommand_unnamed R c hname, if_neg (hno _ hadd), if_neg (hno _ hremove)]
    exact ⟨c.pendingPong, rfl⟩

/-- A role does to its table what `ask` says, with every frame. -/
def Asks (cap : Nat) (R : Role τ) (ask : τ → DecodedFrame → τ) : Prop :=
  ∀ (c : Conn τ cap) f, ∃ pong, onEstablished R c f = (c.withTable (ask c.table f) pong, .ok ())

end Conn

/-- The PUB role follows the commands and messages of a SUB peer. -/
theorem Connection.role_asks {V : Type → Nat → Type} [FixedVec V] {subCap prefixCap : Nat} :
    Conn.Asks cap (Connection.role : Role (SubTable V subCap prefixCap)) SubTable.ask := by
  intro c f
  unfold Conn.onEstablished SubTable.ask subAsk
  by_cases hcmd : f.isCommand = true
  · rw [if_pos hcmd, if_pos hcmd]
    obtain ⟨pong, he⟩ := Conn.onCommand_table (R := (Connection.role : Role (SubTable V subCap prefixCap)))
      (show Connection.subscribeName.length < 256 by decide) (show Connection.cancelName.length < 256 by decide) c f.body
    refine ⟨pong, ?_⟩
    rw [he]
    simp only [Connection.role]
    cases commandAsk Connection.subscribeName Connection.cancelName f.body <;> rfl
  · rw [if_neg hcmd, if_neg hcmd]
    refine ⟨c.pendingPong, ?_⟩
    simp only [Connection.role]
    cases f.body with
    | nil => rfl
    | cons b p =>
      simp only [Connection.onMessage]
      by_cases h1 : b = 0x01
      · rw [if_pos h1, if_pos h1]
        rfl
      · rw [if_neg h1, if_neg h1]
        by_cases h0 : b = 0x00
        · rw [if_pos h0, if_pos h0]
          rfl
        · rw [if_neg h0, if_neg h0]
          rfl

/-- The RADIO role follows the commands of a DISH peer. -/
theorem RadioConnection.role_asks {V : Type → Nat → Type} [FixedVec V] {groupCap groupLenCap : Nat} :
    Conn.Asks cap (RadioConnection.role : Role (GroupTable V groupCap groupLenCap)) GroupTable.ask := by
  intro c f
  unfold Conn.onEstablished GroupTable.ask groupAsk
  by_cases hcmd : f.isCommand = true
  · rw [if_pos hcmd, if_pos hcmd]
    obtain ⟨pong, he⟩ := Conn.onCommand_table (R := (RadioConnection.role : Role (GroupTable V groupCap groupLenCap)))
      (show RadioConnection.joinName.length < 256 by decide) (show RadioConnection.leaveName.length < 256 by decide) c f.body
    refine ⟨pong, ?_⟩
    rw [he]
    simp only [RadioConnection.role]
    cases commandAsk RadioConnection.joinName RadioConnection.leaveName f.body <;> rfl
  · rw [if_neg hcmd, if_neg hcmd]
    exact ⟨c.pendingPong, rfl⟩

/-! ## A connection that has just become established -/

namespace Conn

/-- No feed touches the table before the connection is established. -/
theorem feed_table (R : Role τ) (tgt : Target) (c : Conn τ cap) (hg : c.state = .greeting → c.greetingPos ≤ greetingLen)
    (input : List UInt8) :
    (c.feed R tgt input).1.state ≠ .established → (c.feed R tgt input).1.table = c.table ∧ c.state ≠ .established := by
  refine feed_keeps (fun c' => c'.state ≠ .established → c'.table = c.table ∧ c.state ≠ .established) R tgt input ?_
    (fun _ hs => ⟨rfl, hs⟩) ?_ ?_ ?_
  · intro hs _
    obtain ⟨buf, _, ⟨e, he, _⟩ | ⟨_, _, he⟩ | ⟨g, _, _, he⟩⟩ := feedGreeting_spec (hg hs) input <;> rw [he] <;>
      exact ⟨rfl, by simp [hs]⟩
  · intro hs d f _
    rcases onHello_spec (c.withDecoder d) f with ⟨_, _, _, _, he⟩ | ⟨_, _, _, _, he⟩ | ⟨_, _, he⟩ <;> rw [he] <;>
      exact ⟨rfl, by simp [hs]⟩
  · intro ha d f hs
    have hne : c.state ≠ .established := by
      intro hs
      simp [awaitsReady, hs] at ha
    rcases onReady_spec R tgt (c.withDecoder d) f with ⟨_, _, _, he⟩ | ⟨_, _, he⟩ | ⟨_, _, _, _, he⟩
    · rw [he] at hs
      exact absurd rfl hs
    · rw [he]
      exact ⟨rfl, hne⟩
    · rw [he]
      exact ⟨rfl, hne⟩
  · intro hest d f hs
    obtain ⟨t, pong, he, _⟩ := onEstablished_spec R (c.withDecoder d) f
    rw [he] at hs
    exact absurd hest hs

/-- An operation that is no feed touches neither the table, nor the state, nor the decoder. -/
theorem other_table (R : Role τ) (tgt : Target) (c : Conn τ cap) (op : Op) (hop : ∀ input, op ≠ .feed input) :
    (apply R tgt c op).1.table = c.table ∧ (apply R tgt c op).1.state = c.state ∧
      (apply R tgt c op).1.frameDecoder = c.frameDecoder := by
  cases op with
  | writeGreeting out => rcases c.writeGreeting_spec out with ⟨_, he, _⟩ | ⟨_, he⟩ <;> simp only [apply, he, and_self]
  | writeReady out => rcases c.writeReady_spec R out with ⟨_, he, _⟩ | ⟨_, _, he⟩ <;> simp only [apply, he, and_self]
  | writeWelcome out => rcases c.writeWelcome_spec out with ⟨_, he, _⟩ | ⟨_, _, he⟩ <;> simp only [apply, he, and_self]
  | feed input => exact absurd rfl (hop input)
  | writePong out =>
    obtain ⟨pong, he⟩ := c.writePong_spec out
    simp only [apply, he, and_self]
  | publishHeaders _ _ => exact ⟨rfl, rfl, rfl⟩
  | publish _ _ _ => exact ⟨rfl, rfl, rfl⟩
  | writeError _ => exact ⟨rfl, rfl, rfl⟩

/-- Before the connection is established its table is empty. -/
theorem table_of_run (L : R.Lawful) {c0 c : Conn τ cap} (h0 : c0.Fresh R)
    {h : List (Run.Event (Conn τ cap) Op OpResult)} (hr : ConnRun R tgt c0 h c) (hs : c.state ≠ .established) :
    c.table = R.emptyTable := by
  induction hr with
  | nil => rcases h0 with rfl | ⟨check, rfl⟩ <;> rfl
  | @snoc h t op hr hlive ih =>
    obtain ⟨m, check, k, _⟩ := known_of_fresh L h0 hr hlive
    rcases op.feed_or with ⟨input, rfl⟩ | hop
    · obtain ⟨ht, hst⟩ := feed_table R tgt t k.phase.greetingPos_le input hs
      exact ht.trans (ih hst)
    · obtain ⟨ht, hst, _⟩ := other_table R tgt t op hop
      rw [hst] at hs
      exact ht.trans (ih hs)

/-- A feed that completes READY leaves the decoder at the start of a frame. -/
theorem feedReadyInner_established {c c' : Conn τ cap} {u input : List UInt8} {n : Nat} (hi : c.frameDecoder.Inv)
    (hb : Behind tgt c.frameDecoder u) (hs : c.state ≠ .established) (hf : feedReadyInner R tgt c input = (c', .ok n))
    (hs' : c'.state = .established) :
    c'.frameDecoder.Inv ∧ c'.frameDecoder.state = .needFlags ∧ c'.table = c.table := by
  unfold feedReadyInner at hf
  rcases feedFrame_spec hi hb input (onReady R tgt) with ⟨d, m, he, _⟩ | ⟨d, m, f, hi', hd, _, _, _, _, he⟩ | ⟨d, e, he, _⟩
  · rw [he] at hf
    cases hf
    exact absurd hs' hs
  · rw [he] at hf
    rcases onReady_spec R tgt (c.withDecoder d) f with ⟨_, _, _, ho⟩ | ⟨_, _, ho⟩ | ⟨_, _, _, _, ho⟩
    · rw [ho] at hf
      cases hf
      exact ⟨hi', hd, rfl⟩
    · rw [ho] at hf
      cases hf
    · rw [ho] at hf
      cases hf
  · rw [he] at hf
    cases hf

/-- A connection that has just become established has a decoder at the start of a frame, and an empty table. -/
theorem JustEstablished.fresh (L : R.Lawful) {c : Conn τ cap} (hc : c.JustEstablished R tgt) :
    c.state = .established ∧ c.frameDecoder.Inv ∧ c.frameDecoder.state = .needFlags ∧ c.table = R.emptyTable := by
  obtain ⟨c0, h, c1, input, n, h0, hr, hlive, hs, hf, hs'⟩ := hc
  obtain ⟨m, check, k, hi⟩ := known_of_fresh L h0 hr hlive
  have htable := table_of_run L h0 hr hs
  have ph := k.phase
  have hready : ∀ u, Behind tgt c1.frameDecoder u → feedReadyInner R tgt c1 input = (c, .ok n) →
      c.state = .established ∧ c.frameDecoder.Inv ∧ c.frameDecoder.state = .needFlags ∧ c.table = R.emptyTable := by
    intro u hb hf
    obtain ⟨h1, h2, h3⟩ := feedReadyInner_established hi hb hs hf hs'
    exact ⟨hs', h1, h2, h3.trans htable⟩
  unfold feed at hf
  cases hst : c1.state with
  | greeting =>
    simp only [hst] at hf
    exfalso
    obtain ⟨buf, _, ⟨e, he, _⟩ | ⟨_, _, he⟩ | ⟨g, _, _, he⟩⟩ := feedGreeting_spec (k.phase.greetingPos_le hst) input
    · rw [he] at hf
      cases hf
    · rw [he] at hf
      cases hf
      exact hs hs'
    · rw [he] at hf
      cases hf
      simp only [greeted] at hs'
      split at hs'
      · cases hm : c1.mechanism <;> rw [hm] at hs' <;> cases hs'
      · exact hs hs'
  | ready =>
    simp only [hst, feedReady] at hf
    rw [Phase, hst] at ph
    obtain ⟨_, _, _, g, u, _, _, hb, _⟩ := ph
    split at hf
    · cases hf
    · exact hready u hb hf
  | plainHello =>
    simp only [hst, feedPlainHello] at hf
    rw [Phase, hst] at ph
    obtain ⟨_, _, _, _, _, g, u, _, _, hb⟩ := ph
    exfalso
    rcases feedFrame_spec hi hb input onHello with ⟨d, m, he, _⟩ | ⟨d, m, f, _, _, _, _, _, _, he⟩ | ⟨d, e, he, _⟩
    · rw [he] at hf
      cases hf
      exact hs hs'
    · rw [he] at hf
      rcases onHello_spec (c1.withDecoder d) f with ⟨_, _, _, _, ho⟩ | ⟨_, _, _, _, ho⟩ | ⟨_, _, ho⟩ <;> rw [ho] at hf <;>
        cases hf
      cases hs'
    · rw [he] at hf
      cases hf
  | plainReady =>
    simp only [hst, feedPlainReady] at hf
    rw [Phase, hst] at ph
    obtain ⟨_, _, u, hb⟩ := ph
    split at hf
    · cases hf
    · exact hready u hb hf
  | established => exact absurd hst hs
  | failed =>
    simp only [hst] at hf
    cases hf

/-! ## Feeding a stream of frames -/

/-- An established connection that has read `u` of the next frame. -/
structure Reading (tgt : Target) (c : Conn τ cap) (u : List UInt8) : Prop where
  established : c.state = .established
  inv : c.frameDecoder.Inv
  pending : Pending tgt c.frameDecoder u

/-- One feed from a stream of frames: it reads all its input into the next frame, or completes the frame, and then does to
the table what the frame asks for. -/
theorem Reading.feed {ask : τ → DecodedFrame → τ} (ha : Asks cap R ask) {c : Conn τ cap} {u : List UInt8}
    (r : c.Reading tgt u) (xs more : List UInt8) {fs : List DecodedFrame} (hs : IsStream tgt cap (u ++ xs ++ more) fs) :
    (∃ c', c.feed R tgt xs = (c', .ok xs.length) ∧ c'.Reading tgt (u ++ xs) ∧ c'.table = c.table) ∨
    ∃ c' n f fs', c.feed R tgt xs = (c', .ok n) ∧ n ≤ xs.length ∧ 0 < n ∧ fs = f :: fs' ∧
      IsStream tgt cap (xs.drop n ++ more) fs' ∧ c'.Reading tgt [] ∧ c'.table = ask c.table f := by
  rw [feed_established R tgt xs r.established]
  rcases FrameDecoder.feed_spec tgt r.inv r.pending xs with ⟨d, ho, h1, h2, _⟩ | ⟨d, n, f, ho, h1, h2, hpos, hn, hw, _⟩ |
    ⟨d, e, _, _, _, n, _, _, hbad⟩
  · refine .inl ⟨c.withDecoder d, by simp only [feedFrame, ho], ⟨r.established, h1, h2⟩, rfl⟩
  · have hsplit : u ++ xs ++ more = u ++ xs.take n ++ (xs.drop n ++ more) := by
      rw [List.append_assoc u (xs.take n), ← List.append_assoc (xs.take n), List.take_append_drop, List.append_assoc]
    rw [hsplit] at hs
    obtain ⟨fs', rfl, hs'⟩ := FrameDecoder.isStream_first hs hw
    obtain ⟨pong, he⟩ := ha (c.withDecoder d) f
    refine .inr ⟨(c.withDecoder d).withTable (ask c.table f) pong, n, f, fs', ?_, hn, hpos, rfl, hs', ?_, rfl⟩
    · simp only [feedFrame, ho, he]
      rfl
    · exact ⟨r.established, h1, FrameDecoder.pending_needFlags h2⟩
  · have hpre : u ++ xs.take n <+: u ++ xs ++ more :=
      ((List.prefix_append_right_inj u).mpr (List.take_prefix n xs)).trans (List.prefix_append _ _)
    have hgood := FrameDecoder.breaks_bad hbad
    rw [FrameDecoder.isStream_good hs hpre] at hgood
    cases hgood

/-- Feeding a piece of a stream of frames never errs. The induction is on the fuel, along the frames. -/
theorem Reading.pump {ask : τ → DecodedFrame → τ} (ha : Asks cap R ask) (fuel : Nat) : ∀ {c : Conn τ cap} {u : List UInt8}
    (xs more : List UInt8) {fs : List DecodedFrame}, c.Reading tgt u → IsStream tgt cap (u ++ xs ++ more) fs →
    xs.length < fuel → ∃ gs gs' u' c', fs = gs ++ gs' ∧ (feeding R tgt).pump fuel c xs = ⟨c', [], none⟩ ∧
      c'.Reading tgt u' ∧ IsStream tgt cap (u' ++ more) gs' ∧ c'.table = gs.foldl ask c.table := by
  induction fuel with
  | zero => intro c u xs more fs _ _ h; omega
  | succ fuel ih =>
    intro c u xs more fs r hs hlen
    rcases r.feed ha xs more hs with ⟨c', hf, r', ht⟩ | ⟨c', n, f, fs', hf, hn, hpos, rfl, hs', r', ht⟩
    · refine ⟨[], fs, u ++ xs, c', rfl, ?_, r', hs, ht⟩
      simp only [Feeder.pump, feeding, hf, Outcome.andThen_start, Nat.le_refl, if_true]
    · by_cases hle : xs.length ≤ n
      · rw [List.drop_of_length_le hle] at hs'
        refine ⟨[f], fs', [], c', rfl, ?_, r', hs', ht⟩
        simp only [Feeder.pump, feeding, hf, Outcome.andThen_start, if_pos hle]
      · obtain ⟨gs, gs', u', c'', rfl, hp, r'', hs'', ht'⟩ := ih (xs.drop n) more r' hs'
          (by rw [List.length_drop]; omega)
        refine ⟨f :: gs, gs', u', c'', rfl, ?_, r'', hs'', ?_⟩
        · rw [← hp]
          simp only [Feeder.pump, feeding, hf, Outcome.andThen_start, if_neg hle]
        · rw [ht', ht, List.foldl_cons]

/-- Feeding a stream of frames never errs, in whatever pieces, and does to the table what the frames ask for. -/
theorem Reading.pumpChunks {ask : τ → DecodedFrame → τ} (ha : Asks cap R ask) (cs : List (List UInt8)) :
    ∀ {c : Conn τ cap} {u : List UInt8} {fs : List DecodedFrame}, c.Reading tgt u →
    IsStream tgt cap (u ++ cs.flatten) fs → ∃ c', (feeding R tgt).pumpChunks c cs = ⟨c', [], none⟩ ∧
      c'.state = .established ∧ c'.table = fs.foldl ask c.table := by
  induction cs with
  | nil =>
    intro c u fs r hs
    rw [List.flatten_nil, List.append_nil] at hs
    rw [FrameDecoder.isStream_pending r.inv r.pending hs]
    exact ⟨c, rfl, r.established, rfl⟩
  | cons x cs ih =>
    intro c u fs r hs
    rw [List.flatten_cons, ← List.append_assoc] at hs
    obtain ⟨gs, gs', u', c1, rfl, hp, r1, hs1, ht1⟩ := Reading.pump ha (x.length + 1) x cs.flatten r hs (Nat.lt_succ_self _)
    obtain ⟨c2, hp2, hst, ht2⟩ := ih r1 hs1
    refine ⟨c2, ?_, hst, by rw [ht2, ht1, List.foldl_append]⟩
    rw [Feeder.pumpChunks, hp, Outcome.andThen_start, hp2]

/-- A connection that has just become established, fed the wire form of some frames in any pieces. -/
theorem JustEstablished.feeding_stream (L : R.Lawful) {ask : τ → DecodedFrame → τ} (ha : Asks cap R ask) {c : Conn τ cap}
    (hc : c.JustEstablished R tgt) {cs : List (List UInt8)} {fs : List DecodedFrame}
    (hs : IsStream tgt cap cs.flatten fs) : ∃ c', (feeding R tgt).pumpChunks c cs = ⟨c', [], none⟩ ∧
      c'.state = .established ∧ c'.table = fs.foldl ask R.emptyTable := by
  obtain ⟨h1, h2, h3, h4⟩ := hc.fresh L
  have r : c.Reading tgt [] := ⟨h1, h2, FrameDecoder.pending_needFlags h3⟩
  rw [← h4]
  exact Reading.pumpChunks ha cs r hs

end Conn
end Mzmq
