import Mzmq.Lemmas.Command
import Mzmq.Lemmas.Ready

/-!
# The READY parser implements its grammar

Where no position can overflow, the READY parsers accept exactly the commands of the grammar whose first Socket-Type is one
that they know, and each of their errors stands for one way in which a body is something else. The split of the metadata into
properties is unique, so that the loop comes to the Socket-Type that the grammar names.
-/

namespace Mzmq

open Checked

/-! ## Properties -/

/-- A property is the first of one stream only. -/
theorem Property.enc_inj {p q : Property} {r s : List UInt8} (h : p.enc ++ r = q.enc ++ s) : p = q ∧ r = s := by
  obtain ⟨pn, pv, hpn, hpv⟩ := p
  obtain ⟨qn, qv, hqn, hqv⟩ := q
  simp only [enc, List.cons_append, List.append_assoc, List.cons.injEq] at h
  obtain ⟨hn, h⟩ := h
  have hnlen : pn.length = qn.length := by
    have := congrArg UInt8.toNat hn
    rwa [UInt8.toNat_ofNat_of_lt' hpn, UInt8.toNat_ofNat_of_lt' hqn] at this
  obtain ⟨hname, htail⟩ := List.append_inj h hnlen
  obtain ⟨hlen, hvalue⟩ := List.append_inj htail (by rw [beBytes_length, beBytes_length])
  have hvlen : pv.length = qv.length := by
    have := congrArg beNat hlen
    rwa [beNat_beBytes (by omega), beNat_beBytes (by omega)] at this
  obtain ⟨hv, hrest⟩ := List.append_inj hvalue hvlen
  subst hname hv
  exact ⟨rfl, hrest⟩

theorem encProperties_cons (q : Property) (ps : List Property) : encProperties (q :: ps) = q.enc ++ encProperties ps :=
  rfl

theorem Property.enc_length (p : Property) : p.enc.length = p.name.length + p.value.length + 5 := by
  simp only [enc, List.length_cons, List.length_append, beBytes_length]
  omega

/-- The name of a Socket-Type has the length of the name it is compared with. -/
theorem isSocketType_iff (name : List UInt8) : isSocketType name = true ↔ eqIgnoreAsciiCase name socketTypeName = true := by
  unfold isSocketType
  rw [Bool.and_eq_true, and_iff_right_iff_imp]
  intro h
  unfold eqIgnoreAsciiCase at h
  rw [beq_iff_eq] at h ⊢
  have := congrArg List.length h
  rwa [List.length_map, List.length_map] at this

/-! ## The grammar, property by property -/

section Grammar

variable {q : Property} {metadata v : List UInt8}

theorem firstSocketType_cons : FirstSocketType (q.enc ++ metadata) v ↔
    q.IsSocketType ∧ q.value = v ∨ ¬q.IsSocketType ∧ FirstSocketType metadata v := by
  constructor
  · rintro ⟨ps, p, rest, h, hps, hp, hv⟩
    cases ps with
    | nil =>
      obtain ⟨rfl, _⟩ := Property.enc_inj h
      exact .inl ⟨hp, hv⟩
    | cons p0 ps =>
      rw [encProperties_cons, List.append_assoc] at h
      obtain ⟨rfl, rfl⟩ := Property.enc_inj h
      exact .inr ⟨hps _ List.mem_cons_self, ps, p, rest, rfl, fun q hq => hps q (List.mem_cons_of_mem _ hq), hp, hv⟩
  · rintro (⟨hq, hv⟩ | ⟨hq, ps, p, rest, rfl, hps, hp, hv⟩)
    · exact ⟨[], q, metadata, rfl, by simp, hq, hv⟩
    · refine ⟨q :: ps, p, rest, ?_, ?_, hp, hv⟩
      · rw [encProperties_cons, List.append_assoc]
      · intro q' hq'
        rcases List.mem_cons.mp hq' with rfl | hq'
        · exact hq
        · exact hps q' hq'

theorem noSocketType_cons : NoSocketType (q.enc ++ metadata) ↔ ¬q.IsSocketType ∧ NoSocketType metadata := by
  constructor
  · rintro ⟨ps, h, hps⟩
    cases ps with
    | nil => simp [encProperties, Property.enc] at h
    | cons p0 ps =>
      rw [encProperties_cons] at h
      obtain ⟨rfl, rfl⟩ := Property.enc_inj h
      exact ⟨hps _ List.mem_cons_self, ps, rfl, fun q hq => hps q (List.mem_cons_of_mem _ hq)⟩
  · rintro ⟨hq, ps, rfl, hps⟩
    refine ⟨q :: ps, rfl, ?_⟩
    intro q' hq'
    rcases List.mem_cons.mp hq' with rfl | hq'
    · exact hq
    · exact hps q' hq'

theorem not_firstSocketType_nil : ¬FirstSocketType [] v := by
  rintro ⟨ps, p, rest, h, _⟩
  have h := h.symm
  simp [Property.enc] at h

theorem noSocketType_nil : NoSocketType [] := ⟨[], rfl, by simp⟩

/-- Metadata that begins with no complete property. -/
theorem not_properties (hne : metadata ≠ []) (h : ¬∃ q rest, metadata = Property.enc q ++ rest) :
    (¬∃ v, FirstSocketType metadata v) ∧ ¬NoSocketType metadata := by
  constructor
  · rintro ⟨v, ps, p, rest, rfl, _⟩
    cases ps with
    | nil => exact h ⟨p, rest, rfl⟩
    | cons p0 ps =>
      refine h ⟨p0, encProperties ps ++ (p.enc ++ rest), ?_⟩
      rw [encProperties_cons, List.append_assoc]
  · rintro ⟨ps, rfl, _⟩
    cases ps with
    | nil => exact hne rfl
    | cons p0 ps => exact h ⟨p0, encProperties ps, rfl⟩

end Grammar

/-! ## One turn of the loop -/

section Loop

variable {body : List UInt8} {pos : Nat}

/-- A property that starts at `pos` is what the loop reads there. -/
theorem property_of_enc {q : Property} {rest : List UInt8} (h : body.drop pos = q.enc ++ rest) :
    ∃ start, property body pos = some (q.name, start, q.value.length) ∧ start + q.value.length ≤ body.length ∧
      (body.drop start).take q.value.length = q.value ∧ start + q.value.length = pos + q.enc.length := by
  have hlen := congrArg List.length h
  rw [List.length_drop, List.length_append, q.enc_length] at hlen
  have hname := q.name_lt
  have hhead : body.getD pos 0 = UInt8.ofNat q.name.length := by
    have : (body.drop pos)[0]? = some (UInt8.ofNat q.name.length) := by rw [h]; rfl
    rw [List.getElem?_drop, Nat.add_zero] at this
    rw [List.getD_eq_getElem?_getD, this]
    rfl
  have hbyte : (body.getD pos 0).toNat = q.name.length := by
    rw [hhead, UInt8.toNat_ofNat_of_lt' hname]
  -- What stands behind the length byte, behind the name and behind the four bytes.
  have h1 : body.drop (pos + 1) = q.name ++ (beBytes 4 q.value.length ++ (q.value ++ rest)) := by
    rw [← List.drop_drop, h]
    simp only [Property.enc, List.cons_append, List.append_assoc, List.drop_succ_cons, List.drop_zero]
  have h2 : body.drop (pos + 1 + q.name.length) = beBytes 4 q.value.length ++ (q.value ++ rest) := by
    rw [← List.drop_drop, h1, List.drop_left]
  have h3 : body.drop (pos + 1 + q.name.length + 4) = q.value ++ rest := by
    rw [← List.drop_drop, h2, List.drop_left' (beBytes_length 4 _)]
  refine ⟨pos + 1 + q.name.length + 4, ?_, by omega, ?_, by rw [q.enc_length]; omega⟩
  · unfold property
    simp only [hbyte]
    rw [if_pos (by omega), Nat.add_sub_cancel_left, h1, h2, List.take_left, List.take_left' (beBytes_length 4 _),
      beNat_beBytes q.value_lt]
  · rw [h3, List.take_left]

/-- What the loop reads at `pos` is a property that starts there. -/
theorem enc_of_property {name : List UInt8} {start len : Nat} (hpos : pos < body.length)
    (hp : property body pos = some (name, start, len)) (hfit : start + len ≤ body.length) :
    ∃ q : Property, ∃ rest, body.drop pos = q.enc ++ rest := by
  have hname := (body.getD pos 0).toNat_lt
  obtain ⟨_, _, hlen⟩ := property_eq_some hp
  unfold property at hp
  simp only at hp
  split at hp
  case isFalse => cases hp
  rename_i hle
  have hhead : body.drop pos = body.getD pos 0 :: body.drop (pos + 1) := by
    rw [List.drop_eq_getElem_cons hpos, List.getD_eq_getElem?_getD, List.getElem?_eq_getElem hpos, Option.getD_some]
  generalize hn : (body.getD pos 0).toNat = n at *
  rw [Nat.add_sub_cancel_left] at hp
  simp only [Option.some.injEq, Prod.mk.injEq] at hp
  obtain ⟨rfl, rfl, rfl⟩ := hp
  have hbits : ((body.drop (pos + 1 + n)).take 4).length = 4 := by
    rw [List.length_take, List.length_drop]
    omega
  have hnlen : ((body.drop (pos + 1)).take n).length = n := by
    rw [List.length_take, List.length_drop]
    omega
  have hvlen : ((body.drop (pos + 1 + n + 4)).take (beNat ((body.drop (pos + 1 + n)).take 4))).length =
      beNat ((body.drop (pos + 1 + n)).take 4) := by
    rw [List.length_take, List.length_drop]
    omega
  refine ⟨⟨(body.drop (pos + 1)).take n, (body.drop (pos + 1 + n + 4)).take (beNat ((body.drop (pos + 1 + n)).take 4)),
    by omega, by omega⟩, (body.drop (pos + 1 + n + 4)).drop (beNat ((body.drop (pos + 1 + n)).take 4)), ?_⟩
  have hbe := beBytes_beNat ((body.drop (pos + 1 + n)).take 4)
  rw [hbits] at hbe
  simp only [Property.enc, hnlen, hvlen, hbe]
  have h3 := List.take_append_drop 4 (body.drop (pos + 1 + n))
  have h4 := List.take_append_drop n (body.drop (pos + 1))
  rw [List.drop_drop] at h3 h4
  rw [List.cons_append, List.append_assoc, List.append_assoc, List.take_append_drop, h3, h4, hhead, ← hn,
    UInt8.ofNat_toNat]

/-- One turn of the loop reads a property, or there is none in front of it. -/
theorem readProperty_spec (tgt : Target) (hwide : body.length + 2 ^ 32 ≤ tgt.size) (hpos : pos < body.length) :
    (∃ q : Property, ∃ rest, body.drop pos = q.enc ++ rest ∧
      readProperty tgt body pos = .ok (q.name, q.value, pos + q.enc.length)) ∨
    (¬∃ q : Property, ∃ rest, body.drop pos = q.enc ++ rest) ∧
      readProperty tgt body pos = .error (.err .malformedMetadata) := by
  have hread := readProperty_eq tgt (show body.length + 255 < tgt.size by omega) hpos
  cases hp : property body pos with
  | none =>
    refine .inr ⟨?_, by rw [hread, hp]⟩
    rintro ⟨q, rest, h⟩
    obtain ⟨start, hsome, _⟩ := property_of_enc h
    rw [hp] at hsome
    cases hsome
  | some p =>
    obtain ⟨name, start, len⟩ := p
    by_cases hfit : start + len ≤ body.length
    · obtain ⟨q, rest, h⟩ := enc_of_property hpos hp hfit
      obtain ⟨start', hsome, _, hval, hend⟩ := property_of_enc h
      rw [hp] at hsome
      cases hsome
      refine .inl ⟨q, rest, h, ?_⟩
      rw [hread, hp]
      simp only
      rw [if_pos hfit, hval, hend]
    · refine .inr ⟨?_, ?_⟩
      · rintro ⟨q, rest, h⟩
        obtain ⟨start', hsome, hle, _⟩ := property_of_enc h
        rw [hp] at hsome
        cases hsome
        exact hfit hle
      · obtain ⟨_, hstart, hlen⟩ := property_eq_some hp
        rw [hread, hp]
        simp only [if_neg hfit, if_pos (show start + len < tgt.size by omega)]

/-! ## The loop -/

/-- How the loop ends, from a position inside the body: with the value of the first Socket-Type, without one behind a
complete list of properties, or at bytes that are no property. -/
structure ReadsMetadata (metadata : List UInt8) (r : Res NullError (List UInt8)) : Prop where
  ok : ∀ v, r = .ok v ↔ FirstSocketType metadata v
  wrongSocketType : r = .error (.err .wrongSocketType) ↔ NoSocketType metadata
  malformedMetadata : r = .error (.err .malformedMetadata) ↔ (¬∃ v, FirstSocketType metadata v) ∧ ¬NoSocketType metadata

/-- The loop implements the grammar of the metadata. The induction is on the fuel: every turn moves at least five bytes on. -/
theorem metadataLoop_grammar (tgt : Target) (hwide : body.length + 2 ^ 32 ≤ tgt.size) (fuel : Nat) :
    ∀ pos, pos ≤ body.length → body.length < pos + fuel → ReadsMetadata (body.drop pos) (metadataLoop tgt body fuel pos) := by
  induction fuel with
  | zero => intro pos h1 h2; omega
  | succ fuel ih =>
    intro pos hpos hfuel
    by_cases hlt : pos < body.length
    · have hne : body.drop pos ≠ [] := by
        intro h
        have := congrArg List.length h
        rw [List.length_drop, List.length_nil] at this
        omega
      rcases readProperty_spec tgt hwide hlt with ⟨q, rest, h, hread⟩ | ⟨hno, hread⟩
      · have hlen := congrArg List.length h
        rw [List.length_drop, List.length_append] at hlen
        have hrest : body.drop (pos + q.enc.length) = rest := by rw [← List.drop_drop, h, List.drop_left]
        by_cases hname : isSocketType q.name = true
        · have hq : q.IsSocketType := (isSocketType_iff q.name).mp hname
          have hloop : metadataLoop tgt body (fuel + 1) pos = .ok q.value := by
            simp only [metadataLoop, if_pos hlt, hread, hname, if_true]
          have hfirst : ∀ v, FirstSocketType (q.enc ++ rest) v ↔ q.value = v := by
            intro v
            rw [firstSocketType_cons]
            simp only [hq, true_and, not_true_eq_false, false_and, or_false]
          rw [hloop, h]
          refine ⟨fun v => by rw [hfirst, Except.ok.injEq], ⟨(by intro e; cases e), ?_⟩, ⟨(by intro e; cases e), ?_⟩⟩
          · intro hn
            exact absurd hq (noSocketType_cons.mp hn).1
          · rintro ⟨hn, _⟩
            exact absurd ⟨q.value, (hfirst q.value).mpr rfl⟩ hn
        · have hq : ¬q.IsSocketType := fun hq => hname ((isSocketType_iff q.name).mpr hq)
          have hloop : metadataLoop tgt body (fuel + 1) pos = metadataLoop tgt body fuel (pos + q.enc.length) := by
            simp only [metadataLoop, if_pos hlt, hread, Bool.eq_false_iff.mpr hname, Bool.false_eq_true, if_false]
          have henc := q.enc_length
          have hih := ih (pos + q.enc.length) (by omega) (by omega)
          rw [hrest, ← hloop] at hih
          have hfirst : ∀ v, FirstSocketType (q.enc ++ rest) v ↔ FirstSocketType rest v := by
            intro v
            rw [firstSocketType_cons]
            simp only [hq, false_and, not_false_eq_true, true_and, false_or]
          have hnone : NoSocketType (q.enc ++ rest) ↔ NoSocketType rest := by
            rw [noSocketType_cons]
            simp only [hq, not_false_eq_true, true_and]
          rw [h]
          refine ⟨fun v => by rw [hfirst, hih.ok], by rw [hnone, hih.wrongSocketType], ?_⟩
          rw [hnone, hih.malformedMetadata]
          simp only [hfirst]
      · have hloop : metadataLoop tgt body (fuel + 1) pos = .error (.err .malformedMetadata) := by
          simp only [metadataLoop, if_pos hlt, hread]
        have hnot := not_properties hne hno
        rw [hloop]
        refine ⟨fun v => ⟨(by intro e; cases e), fun hv => absurd ⟨v, hv⟩ hnot.1⟩, ⟨(by intro e; cases e), ?_⟩, ?_⟩
        · intro hn
          exact absurd hn hnot.2
        · exact ⟨fun _ => hnot, fun _ => rfl⟩
    · -- Behind the last property.
      have hend : body.drop pos = [] := List.drop_eq_nil_of_le (Nat.le_of_not_lt hlt)
      have hloop : metadataLoop tgt body (fuel + 1) pos = .error (.err .wrongSocketType) := by
        simp only [metadataLoop, if_neg hlt]
      rw [hloop, hend]
      refine ⟨fun v => ⟨(by intro e; cases e), fun hv => absurd hv not_firstSocketType_nil⟩, ?_, ⟨(by intro e; cases e), ?_⟩⟩
      · exact ⟨fun _ => noSocketType_nil, fun _ => rfl⟩
      · rintro ⟨_, hn⟩
        exact absurd noSocketType_nil hn

end Loop

/-! ## The command -/

section Command

variable {body name : List UInt8}

theorem named_ready (metadata : List UInt8) : Named (5 :: (readyName ++ metadata)) readyName :=
  ⟨by decide, metadata, rfl⟩

theorem ReadyWith.named {P : List UInt8 → Prop} (h : ReadyWith P body) : Named body readyName := by
  obtain ⟨metadata, rfl, _⟩ := h
  exact named_ready metadata

theorem readyWith_iff {P : List UInt8 → Prop} {metadata : List UInt8} :
    ReadyWith P (5 :: (readyName ++ metadata)) ↔ P metadata := by
  constructor
  · rintro ⟨metadata', h, hP⟩
    rw [List.cons.injEq, List.append_cancel_left_eq] at h
    rwa [h.2]
  · exact fun hP => ⟨metadata, rfl, hP⟩

/-- The socket types `types`, as the function that looks a value up. -/
structure KnowsTypes (types : List (List UInt8 × PeerSocketType)) (socketTypeOf : List UInt8 → Res NullError PeerSocketType) :
    Prop where
  ok : ∀ v t, socketTypeOf v = .ok t ↔ (v, t) ∈ types
  other : ∀ v, (∃ t, socketTypeOf v = .ok t) ∨ socketTypeOf v = .error (.err .wrongSocketType)

theorem knowsTypes_sub : KnowsTypes [(subName, .sub), (xsubName, .xsub)] socketTypeOfSub := by
  have hne : xsubName ≠ subName := by decide
  constructor
  · intro v t
    unfold socketTypeOfSub
    by_cases h : v = subName
    · subst h
      rw [if_pos rfl]
      cases t <;> simp [hne.symm]
    · rw [if_neg h]
      by_cases h' : v = xsubName
      · subst h'
        rw [if_pos rfl]
        cases t <;> simp [hne]
      · rw [if_neg h']
        simp [h, h']
  · intro v
    unfold socketTypeOfSub
    split
    · exact .inl ⟨_, rfl⟩
    · split
      · exact .inl ⟨_, rfl⟩
      · exact .inr rfl

theorem knowsTypes_dish : KnowsTypes [(dishName, .dish)] socketTypeOfDish := by
  constructor
  · intro v t
    unfold socketTypeOfDish
    by_cases h : v = dishName
    · subst h
      rw [if_pos rfl]
      cases t <;> simp
    · rw [if_neg h]
      simp [h]
  · intro v
    unfold socketTypeOfDish
    split
    · exact .inl ⟨_, rfl⟩
    · exact .inr rfl

variable {types : List (List UInt8 × PeerSocketType)} {socketTypeOf : List UInt8 → Res NullError PeerSocketType}

/-- A body that is no READY has none of the outcomes of READY. -/
theorem not_ready (types : List (List UInt8 × PeerSocketType)) (h : ¬Named body readyName) :
    (∀ t, ¬ReadyOf types body t) ∧ ¬OtherSocketType types body := by
  constructor
  · rintro t ⟨v, _, hr⟩
    exact h hr.named
  · rintro (hr | ⟨v, _, hr⟩)
    · exact h hr.named
    · exact h hr.named

/-- The metadata of READY decides what its parser returns. -/
theorem parsesReady_ready (K : KnowsTypes types socketTypeOf) {metadata : List UInt8} {r : Res NullError (List UInt8)}
    (h : ReadsMetadata metadata r) : ParsesReady types true (5 :: (readyName ++ metadata)) (r >>= socketTypeOf) := by
  have hnamed := fun name' (h' : Named (5 :: (readyName ++ metadata)) name') => (named_ready metadata).unique h'
  have herror : ¬Named (5 :: (readyName ++ metadata)) errorName := fun h' => absurd (hnamed _ h') (by decide)
  have hother : ¬OtherCommand (5 :: (readyName ++ metadata)) := by
    rintro ⟨name', h', hne, _⟩
    exact hne (hnamed _ h').symm
  have hof : ∀ t, ReadyOf types (5 :: (readyName ++ metadata)) t ↔ ∃ v, (v, t) ∈ types ∧ r = .ok v := by
    intro t
    simp only [ReadyOf, readyWith_iff, h.ok]
  have hwrong : OtherSocketType types (5 :: (readyName ++ metadata)) ↔
      r = .error (.err .wrongSocketType) ∨ ∃ v, (∀ t, (v, t) ∉ types) ∧ r = .ok v := by
    simp only [OtherSocketType, readyWith_iff, h.ok, h.wrongSocketType]
  by_cases hfirst : ∃ v, FirstSocketType metadata v
  · obtain ⟨v, hv⟩ := hfirst
    obtain rfl := (h.ok v).mpr hv
    have hbind : (Except.ok v >>= socketTypeOf) = socketTypeOf v := rfl
    simp only [Except.ok.injEq, reduceCtorEq, false_or, exists_eq_right'] at hof hwrong
    rw [hbind]
    rcases K.other v with ⟨t, ht⟩ | hno
    · have hmem := (K.ok v t).mp ht
      have hnot : ¬OtherSocketType types (5 :: (readyName ++ metadata)) := by
        rw [hwrong]
        exact fun hnot => hnot t hmem
      have hsome : ReadyOf types (5 :: (readyName ++ metadata)) t := (hof t).mpr hmem
      rw [ht]
      refine ⟨?_, ?_, ?_, ?_, ?_, ?_⟩
      · intro t'
        rw [hof, ← K.ok, ht]
        simp
      · simp [hnot]
      · simp [herror]
      · simp [hother]
      · simp
      · refine ⟨(by intro e; cases e), ?_⟩
        rintro ⟨_, hall, _⟩
        exact absurd hsome (hall t)
    · have hnone : ∀ t, (v, t) ∉ types := by
        intro t ht
        rw [← K.ok, hno] at ht
        cases ht
      rw [hno]
      refine ⟨?_, ?_, ?_, ?_, ?_, ?_⟩
      · intro t'
        rw [hof]
        simp [hnone]
      · simp [hwrong, hnone]
      · simp [herror]
      · simp [hother]
      · simp
      · refine ⟨(by intro e; cases e), ?_⟩
        rintro ⟨_, _, hall, _⟩
        exact absurd (hwrong.mpr hnone) hall
  · have hno : ∀ v, r ≠ .ok v := fun v hv => hfirst ⟨v, (h.ok v).mp hv⟩
    have hof' : ∀ t, ¬ReadyOf types (5 :: (readyName ++ metadata)) t := by
      intro t ht
      obtain ⟨v, _, hv⟩ := (hof t).mp ht
      exact hno v hv
    by_cases hnone : NoSocketType metadata
    · obtain rfl := h.wrongSocketType.mpr hnone
      have hw : OtherSocketType types (5 :: (readyName ++ metadata)) := hwrong.mpr (.inl rfl)
      refine ⟨?_, ?_, ?_, ?_, ?_, ?_⟩ <;> simp [bind, Except.bind, hof', hw, herror, hother]
    · obtain rfl := h.malformedMetadata.mpr ⟨hfirst, hnone⟩
      have hw : ¬OtherSocketType types (5 :: (readyName ++ metadata)) := by
        rw [hwrong]
        rintro (hw | ⟨v, _, hv⟩)
        · cases hw
        · cases hv
      refine ⟨?_, ?_, ?_, ?_, ?_, ?_⟩ <;> simp [bind, Except.bind, hof', hw, herror, hother]

/-- The parser of READY, for the socket types that it knows. -/
theorem parsesReady (K : KnowsTypes types socketTypeOf) (tgt : Target) (isCommand : Bool)
    (hwide : body.length + 2 ^ 32 ≤ tgt.size) :
    ParsesReady types isCommand body (parseReadyCommand tgt isCommand body >>= socketTypeOf) := by
  cases isCommand with
  | false =>
    have hr : parseReadyCommand tgt false body = .error (.err .notACommand) := rfl
    rw [hr]
    refine ⟨?_, ?_, ?_, ?_, ?_, ?_⟩ <;> simp [bind, Except.bind]
  | true =>
    by_cases hname : ∃ name, Named body name
    · obtain ⟨name, hn⟩ := hname
      rw [parseReadyCommand_named tgt hn]
      by_cases herror : name = errorName
      · subst herror
        have hready : ¬Named body readyName := fun h => absurd (hn.unique h) (by decide)
        have hother : ¬OtherCommand body := by
          rintro ⟨name', h', _, hne⟩
          exact hne (hn.unique h').symm
        obtain ⟨hof, hw⟩ := not_ready types hready
        rw [if_pos rfl]
        refine ⟨?_, ?_, ?_, ?_, ?_, ?_⟩ <;> simp [bind, Except.bind, hof, hw, hn, hother]
      · rw [if_neg herror]
        by_cases hready : name = readyName
        · subst hready
          obtain ⟨_, metadata, rfl⟩ := hn
          rw [if_neg (by simp)]
          exact parsesReady_ready K (metadataLoop_grammar tgt hwide _ 6 (by simp [readyName]) (by omega))
        · have hnot : ¬Named body readyName := fun h => hready (hn.unique h)
          have hnoerror : ¬Named body errorName := fun h => herror (hn.unique h)
          have hother : OtherCommand body := ⟨name, hn, hready, herror⟩
          obtain ⟨hof, hw⟩ := not_ready types hnot
          rw [if_pos hready]
          refine ⟨?_, ?_, ?_, ?_, ?_, ?_⟩ <;> simp [bind, Except.bind, hof, hw, hnoerror, hother]
    · have hnoerror : ¬Named body errorName := fun h => hname ⟨_, h⟩
      have hother : ¬OtherCommand body := by
        rintro ⟨name, h, _⟩
        exact hname ⟨name, h⟩
      obtain ⟨hof, hw⟩ := not_ready types (fun h => hname ⟨_, h⟩)
      rw [parseReadyCommand_unnamed tgt hname]
      refine ⟨?_, ?_, ?_, ?_, ?_, ?_⟩ <;> simp [bind, Except.bind, hof, hw, hnoerror, hother]

end Command

/-- The READY parsers of both drivers implement the grammar, where `usize` is wide enough for every position. -/
theorem ready_parsers_implement_grammar (tgt : Target) (isCommand : Bool) (body : List UInt8)
    (hwide : body.length + 2 ^ 32 ≤ tgt.size) :
    ParsesReady [(subName, .sub), (xsubName, .xsub)] isCommand body (parseReadyFrom tgt isCommand body) ∧
      ParsesReady [(dishName, .dish)] isCommand body (parseReadyRadioFrom tgt isCommand body) :=
  ⟨parsesReady knowsTypes_sub tgt isCommand hwide, parsesReady knowsTypes_dish tgt isCommand hwide⟩

/-- The READY of a SUB peer, with a property in front of its Socket-Type. -/
def subReadyBody : List UInt8 :=
  5 :: (readyName ++ (encProperties [⟨[0x58], [0x01, 0x02], by decide, by decide⟩,
    ⟨socketTypeName, subName, by decide, by decide⟩]))

theorem ready_parsers_implement_grammar_sub :
    parseReadyFrom ⟨.w64, true⟩ true subReadyBody = .ok .sub ∧
      ParsesReady [(subName, .sub), (xsubName, .xsub)] true subReadyBody (parseReadyFrom ⟨.w64, true⟩ true subReadyBody) ∧
      ParsesReady [(dishName, .dish)] true subReadyBody (parseReadyRadioFrom ⟨.w64, true⟩ true subReadyBody) :=
  ⟨by decide, ready_parsers_implement_grammar ⟨.w64, true⟩ true subReadyBody (by decide)⟩

end Mzmq
