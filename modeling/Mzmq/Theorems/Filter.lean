import Mzmq.Lemmas.Publish
import Mzmq.Lemmas.Feeding
import Mzmq.Peer

/-!
# The filters

What goes to a peer, from its first frame behind the handshake on: a PUB connection publishes under the topics that some
prefix in the peer's net counts matches, and a RADIO connection to the groups that the peer is in. What does not fit the
table is not published, and nothing else is lost.
-/

namespace Mzmq

open Checked Consumer

variable {τ : Type} {cap : Nat} {R : Role τ}

namespace Conn

/-- An established connection publishes exactly what its table matches. -/
theorem publishHeaders_some_iff {c : Conn τ cap} (hs : c.state = .established) (key payload : List UInt8) :
    (∃ hdrs, publishHeaders R c key payload = .ok (some hdrs)) ↔ R.matchesKey c.table key = true := by
  cases hm : R.matchesKey c.table key with
  | false =>
    rw [publishHeaders_none hs hm]
    exact iff_of_false (fun ⟨_, h⟩ => by cases h) Bool.false_ne_true
  | true =>
    obtain ⟨th, ph, hok, _⟩ := publishHeaders_ok hs hm payload
    rw [hok]
    exact iff_of_true ⟨_, rfl⟩ rfl

end Conn

/-! ## Subscriptions -/

theorem subAsk_command (more : Bool) (body : List UInt8) : subAsk ⟨more, true, body⟩ =
    commandAsk Connection.subscribeName Connection.cancelName body := rfl

/-- A SUBSCRIBE or CANCEL command asks what its 3.0 message asks. -/
theorem Dialect.subAsk_eq {f f' : DecodedFrame} (h : Dialect f f') : subAsk f' = subAsk f := by
  cases h with
  | same => rfl
  | subscribe more more' p =>
    have hpre : (commandBody Connection.subscribeName []).isPrefixOf (commandBody Connection.subscribeName p) = true := by
      rw [List.isPrefixOf_iff_prefix, commandBody, commandBody, List.append_nil, List.cons_prefix_cons]
      exact ⟨rfl, List.prefix_append _ _⟩
    rw [subAsk_command, commandAsk, if_pos hpre]
    rfl
  | cancel more more' p =>
    have hno : (commandBody Connection.subscribeName []).isPrefixOf (commandBody Connection.cancelName p) = false := rfl
    have hpre : (commandBody Connection.cancelName []).isPrefixOf (commandBody Connection.cancelName p) = true := by
      rw [List.isPrefixOf_iff_prefix, commandBody, commandBody, List.append_nil, List.cons_prefix_cons]
      exact ⟨rfl, List.prefix_append _ _⟩
    rw [subAsk_command, commandAsk, hno, if_neg (by decide), if_pos hpre]
    rfl

/-- Streams that differ in the dialect do the same to a table. -/
theorem SubTable.askAll_dialect {V : Type → Nat → Type} [FixedVec V] {n m : Nat} {fs fs' : List DecodedFrame}
    (h : List.Forall₂ Dialect fs fs') :
    ∀ t : SubTable V n m, t.askAll fs' = t.askAll fs := by
  induction h with
  | nil => intro t; rfl
  | cons hd _ ih =>
    intro t
    have he := hd.subAsk_eq
    unfold SubTable.askAll at ih ⊢
    rw [List.foldl_cons, List.foldl_cons, ih, SubTable.ask, SubTable.ask, he]

/-- A PUB connection filters by the net counts of the peer's subscriptions: from the moment it is established, in whatever
pieces the frames come, and in either dialect. -/
theorem subscription_filter (V : Type → Nat → Type) [FixedVec V] (tgt : Target) (subCap prefixCap frameCap : Nat)
    (c : Connection V subCap prefixCap frameCap)
    (hc : c.JustEstablished Connection.role tgt) (cs : List (List UInt8)) (fs : List DecodedFrame)
    (hs : IsStream tgt frameCap cs.flatten fs) :
    ∃ c', (Conn.feeding Connection.role tgt).pumpChunks c cs = ⟨c', [], none⟩ ∧
      (∀ topic payload hdrs, Connection.publishHeaders c' topic payload = .ok (some hdrs) →
        ∃ p, 0 < (netCounts fs).count p ∧ p <+: topic) ∧
      ((∀ gs, gs <+: fs → (netCounts gs).card ≤ subCap) → (∀ f ∈ fs, ∀ p, subAsk f = .add p → p.length ≤ prefixCap) →
        ∀ topic payload, (∃ hdrs, Connection.publishHeaders c' topic payload = .ok (some hdrs)) ↔
          ∃ p, 0 < (netCounts fs).count p ∧ p <+: topic) ∧
      ∀ cs' fs', IsStream tgt frameCap cs'.flatten fs' → List.Forall₂ Dialect fs fs' →
        ∃ c'', (Conn.feeding Connection.role tgt).pumpChunks c cs' = ⟨c'', [], none⟩ ∧ c''.table = c'.table := by
  obtain ⟨c', hp, hst, ht⟩ := hc.feeding_stream Connection.role_lawful Connection.role_asks hs
  have htable : c'.table = (SubTable.new : SubTable V subCap prefixCap).askAll fs := ht
  have hmatches : ∀ topic payload, (∃ hdrs, Connection.publishHeaders c' topic payload = .ok (some hdrs)) ↔
      ∃ p ∈ ((SubTable.new : SubTable V subCap prefixCap).askAll fs).keys, p <+: topic := by
    intro topic payload
    rw [← htable]
    exact (Conn.publishHeaders_some_iff hst topic payload).trans (SubTable.matchesTopic_iff c'.table topic)
  refine ⟨c', hp, ?_, ?_, ?_⟩
  · intro topic payload hdrs hsome
    obtain ⟨p, hmem, hpre⟩ := (hmatches topic payload).mp ⟨hdrs, hsome⟩
    exact ⟨p, Multiset.count_pos.mpr (Multiset.mem_of_le (SubTable.askAll_le fs) hmem), hpre⟩
  · intro hcard hlen topic payload
    rw [hmatches topic payload, SubTable.askAll_eq fs hcard hlen]
    simp only [Multiset.count_pos]
  · intro cs' fs' hs' hd
    obtain ⟨c'', hp', _, ht'⟩ := hc.feeding_stream Connection.role_lawful Connection.role_asks hs'
    refine ⟨c'', hp', ?_⟩
    rw [htable, ← SubTable.askAll_dialect hd]
    exact ht'

/-- A PUB connection behind the handshake of a SUB peer. -/
def afterSubReady : Connection BVec 2 8 32 :=
  (Connection.feed ⟨.w64, false⟩ (Run.exec (Conn.apply Connection.role ⟨.w64, false⟩) Conn.OpResult.halts Connection.new
    Peer.opening).2 Peer.subReady).1

theorem afterSubReady_justEstablished : afterSubReady.JustEstablished Connection.role ⟨.w64, false⟩ := by
  refine ⟨Connection.new, _, _, Peer.subReady, Peer.subReady.length, .inl rfl, Run.runs_exec _ Peer.opening, ?_,
    by decide +kernel, Prod.ext rfl (by decide +kernel), by decide +kernel⟩
  have hlive : ((Run.exec (Conn.apply Connection.role ⟨.w64, false⟩) Conn.OpResult.halts
      (Connection.new : Connection BVec 2 8 32) Peer.opening).1.all fun ev => !ev.res.halts) = true := by decide +kernel
  intro ev hev
  simpa using List.all_eq_true.mp hlive ev hev

/-- One subscription to `fo`, in two pieces: `foo` goes out, and `bar` does not. -/
theorem subscription_filter_foo :
    let pieces := [(Peer.subSubscribe [0x66, 0x6F]).take 5, (Peer.subSubscribe [0x66, 0x6F]).drop 5]
    ∃ c', (Conn.feeding Connection.role ⟨.w64, false⟩).pumpChunks afterSubReady pieces = ⟨c', [], none⟩ ∧
      (∃ hdrs, Connection.publishHeaders c' [0x66, 0x6F, 0x6F] [0x31] = .ok (some hdrs)) ∧
      ¬∃ hdrs, Connection.publishHeaders c' [0x62, 0x61, 0x72] [0x31] = .ok (some hdrs) := by
  intro pieces
  let f : DecodedFrame := ⟨false, true, commandBody Connection.subscribeName [0x66, 0x6F]⟩
  have hwire : IsWire ⟨.w64, false⟩ (Peer.subSubscribe [0x66, 0x6F]) f :=
    ⟨0x04, [0x0C], by decide, by decide, by decide, by decide, by decide, by decide⟩
  have hpieces : pieces.flatten = Peer.subSubscribe [0x66, 0x6F] ++ [] := by decide
  have hs : IsStream ⟨.w64, false⟩ 32 pieces.flatten [f] := hpieces ▸ .cons hwire (by decide) .nil
  obtain ⟨c', hp, _, hfilter, _⟩ :=
    subscription_filter BVec ⟨.w64, false⟩ 2 8 32 afterSubReady afterSubReady_justEstablished pieces [f] hs
  have hcard : ∀ gs ∈ List.inits [f], (netCounts gs).card ≤ 2 := by decide
  have hiff := hfilter (fun gs hg => hcard gs ((List.mem_inits _ _).mpr hg)) (by
    intro g hg p hp
    rw [List.mem_singleton.mp hg] at hp
    cases hp
    decide)
  refine ⟨c', hp, (hiff _ _).mpr ⟨[0x66, 0x6F], by decide, by decide⟩, ?_⟩
  rw [hiff]
  rintro ⟨p, hcount, hpre⟩
  have hno : ∀ p ∈ netCounts [f], ¬p <+: [0x62, 0x61, 0x72] := by decide
  exact hno p (Multiset.count_pos.mp hcount) hpre

/-! ## Groups -/

/-- A RADIO connection filters by the groups that the peer is in: from the moment it is established, in whatever pieces the
frames come. -/
theorem group_filter (V : Type → Nat → Type) [FixedVec V] (tgt : Target) (groupCap groupLenCap frameCap : Nat)
    (c : RadioConnection V groupCap groupLenCap frameCap)
    (hc : c.JustEstablished RadioConnection.role tgt) (cs : List (List UInt8)) (fs : List DecodedFrame)
    (hs : IsStream tgt frameCap cs.flatten fs) :
    ∃ c', (Conn.feeding RadioConnection.role tgt).pumpChunks c cs = ⟨c', [], none⟩ ∧
      (∀ group body hdrs, RadioConnection.publishHeaders c' group body = .ok (some hdrs) → group ∈ joined fs) ∧
      ((∀ gs, gs <+: fs → (joined gs).card ≤ groupCap) → (∀ f ∈ fs, ∀ g, groupAsk f = .add g → g.length ≤ groupLenCap) →
        ∀ group body, (∃ hdrs, RadioConnection.publishHeaders c' group body = .ok (some hdrs)) ↔ group ∈ joined fs) := by
  obtain ⟨c', hp, hst, ht⟩ := hc.feeding_stream RadioConnection.role_lawful RadioConnection.role_asks hs
  have htable : c'.table = (GroupTable.new : GroupTable V groupCap groupLenCap).askAll fs := ht
  have hmatches : ∀ group body, (∃ hdrs, RadioConnection.publishHeaders c' group body = .ok (some hdrs)) ↔
      group ∈ ((GroupTable.new : GroupTable V groupCap groupLenCap).askAll fs).keys := by
    intro group body
    rw [← htable]
    exact (Conn.publishHeaders_some_iff hst group body).trans (GroupTable.matchesGroup_iff c'.table group)
  refine ⟨c', hp, ?_, ?_⟩
  · intro group body hdrs hsome
    exact (GroupTable.askAll_within fs).mem group ((hmatches group body).mp ⟨hdrs, hsome⟩)
  · intro hcard hlen group body
    rw [hmatches group body]
    exact (GroupTable.askAll_stores fs hcard hlen).mem group

/-- A RADIO connection behind the handshake of a DISH peer. -/
def afterDishReady : RadioConnection BVec 1 8 32 :=
  (RadioConnection.feed ⟨.w64, false⟩ (Run.exec (Conn.apply RadioConnection.role ⟨.w64, false⟩) Conn.OpResult.halts
    RadioConnection.new Peer.opening).2 Peer.dishReady).1

theorem afterDishReady_justEstablished : afterDishReady.JustEstablished RadioConnection.role ⟨.w64, false⟩ := by
  refine ⟨RadioConnection.new, _, _, Peer.dishReady, Peer.dishReady.length, .inl rfl, Run.runs_exec _ Peer.opening, ?_,
    by decide +kernel, Prod.ext rfl (by decide +kernel), by decide +kernel⟩
  have hlive : ((Run.exec (Conn.apply RadioConnection.role ⟨.w64, false⟩) Conn.OpResult.halts
      (RadioConnection.new : RadioConnection BVec 1 8 32) Peer.opening).1.all fun ev => !ev.res.halts) = true := by
    decide +kernel
  intro ev hev
  simpa using List.all_eq_true.mp hlive ev hev

/-- A group that is joined twice, in a table with one entry. -/
theorem group_filter_joined_twice :
    let pieces := [Peer.dishJoin [0x67] ++ Peer.dishJoin [0x67]]
    ∃ c', (Conn.feeding RadioConnection.role ⟨.w64, false⟩).pumpChunks afterDishReady pieces = ⟨c', [], none⟩ ∧
      (∃ hdrs, RadioConnection.publishHeaders c' [0x67] [0x31] = .ok (some hdrs)) ∧
      ¬∃ hdrs, RadioConnection.publishHeaders c' [0x68] [0x31] = .ok (some hdrs) := by
  intro pieces
  let f : DecodedFrame := ⟨false, true, commandBody RadioConnection.joinName [0x67]⟩
  have hwire : IsWire ⟨.w64, false⟩ (Peer.dishJoin [0x67]) f :=
    ⟨0x04, [0x06], by decide, by decide, by decide, by decide, by decide, by decide⟩
  have hpieces : pieces.flatten = Peer.dishJoin [0x67] ++ (Peer.dishJoin [0x67] ++ []) := by decide
  have hs : IsStream ⟨.w64, false⟩ 32 pieces.flatten [f, f] :=
    hpieces ▸ .cons hwire (by decide) (.cons hwire (by decide) .nil)
  obtain ⟨c', hp, _, hfilter⟩ :=
    group_filter BVec ⟨.w64, false⟩ 1 8 32 afterDishReady afterDishReady_justEstablished pieces [f, f] hs
  have hcard : ∀ gs ∈ List.inits [f, f], (joined gs).card ≤ 1 := by decide
  have hiff := hfilter (fun gs hg => hcard gs ((List.mem_inits _ _).mpr hg)) (by
    intro g hg p hp
    have hgf : g = f := by simpa using hg
    rw [hgf] at hp
    cases hp
    decide)
  refine ⟨c', hp, (hiff _ _).mpr (by decide), ?_⟩
  rw [hiff]
  decide

end Mzmq
