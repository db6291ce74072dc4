import Mzmq.Lemmas.Command

/-!
# The HELLO parser against its layout

The body of HELLO is its name, the username and the password, each behind a length byte, and nothing else. The parser takes
every such body apart, but it does not look behind the password: it accepts just the bodies that begin with the layout.
-/

namespace Mzmq

open Checked

/-- Bytes behind their length byte. -/
def lenField (s : List UInt8) : List UInt8 := UInt8.ofNat s.length :: s

/-- The body of HELLO. -/
def helloBody (u p : List UInt8) : List UInt8 := 5 :: (helloName ++ (lenField u ++ lenField p))

/-- The result `r` of parsing the body of a command as HELLO is what the layout says. -/
structure ParsesHello (body : List UInt8) (r : Res PlainError (List UInt8 × List UInt8)) : Prop where
  ok : ∀ u p, u.length ≤ 255 → p.length ≤ 255 → (r = .ok (u, p) ↔ body = helloBody u p)
  unknownCommand : ∀ name, Named body name → name ≠ helloName → name ≠ errorName → r = .error (.err .unknownCommand)
  peerError : Named body errorName → r = .error (.err .peerError)
  malformedHello : (∀ u p, u.length ≤ 255 → p.length ≤ 255 → body ≠ helloBody u p) →
    (∀ name, Named body name → name = helloName) → r = .error (.err .malformedHello)

/-! ## Fields -/

section Fields

variable {f g r s : List UInt8}

/-- A field is the first of one string only. -/
theorem lenField_inj (hf : f.length ≤ 255) (hg : g.length ≤ 255) (h : lenField f ++ r = lenField g ++ s) :
    f = g ∧ r = s := by
  simp only [lenField, List.cons_append, List.cons.injEq] at h
  obtain ⟨hlen, h⟩ := h
  have hlen := congrArg UInt8.toNat hlen
  rw [UInt8.toNat_ofNat_of_lt' (Nat.lt_succ_of_le hf), UInt8.toNat_ofNat_of_lt' (Nat.lt_succ_of_le hg)] at hlen
  exact List.append_inj h hlen

/-- `readField` reads the field that starts at `pos`, or there is none. -/
theorem readField_spec (body : List UInt8) (pos : Nat) :
    (∃ f rest, f.length ≤ 255 ∧ body.drop pos = lenField f ++ rest ∧
      readField body pos = .ok (f, pos + (lenField f).length)) ∨
    (¬∃ f rest, f.length ≤ 255 ∧ body.drop pos = lenField f ++ rest) ∧
      readField body pos = .error (.err .malformedHello) := by
  unfold readField
  by_cases hpos : pos < body.length
  · rw [if_neg (Nat.not_le.mpr hpos), index_ok hpos]
    have hhead : body.drop pos = body[pos] :: body.drop (pos + 1) := List.drop_eq_getElem_cons hpos
    have hbyte := body[pos].toNat_lt
    generalize hb : body[pos] = b at *
    simp only [pure, bind, Except.bind, Except.pure]
    by_cases hfit : pos + 1 + b.toNat ≤ body.length
    · have hlen : ((body.drop (pos + 1)).take b.toNat).length = b.toNat := by
        rw [List.length_take, List.length_drop]
        omega
      refine .inl ⟨(body.drop (pos + 1)).take b.toNat, (body.drop (pos + 1)).drop b.toNat, by omega, ?_, ?_⟩
      · rw [lenField, List.cons_append, List.take_append_drop, hlen, UInt8.ofNat_toNat, hhead]
      · rw [if_neg (Nat.not_lt.mpr hfit), slice_ok (Nat.le_add_right _ _) hfit, Nat.add_sub_cancel_left, lenField,
          List.length_cons, hlen, Nat.add_assoc, Nat.add_comm 1]
    · refine .inr ⟨?_, by rw [if_pos (Nat.lt_of_not_le hfit)]; rfl⟩
      rintro ⟨f, rest, hf, h⟩
      rw [hhead, lenField, List.cons_append, List.cons.injEq] at h
      have htail := congrArg List.length h.2
      rw [List.length_drop, List.length_append] at htail
      have := congrArg UInt8.toNat h.1
      rw [UInt8.toNat_ofNat_of_lt' (Nat.lt_succ_of_le hf)] at this
      omega
  · refine .inr ⟨?_, by rw [if_pos (Nat.le_of_not_lt hpos)]; rfl⟩
    rintro ⟨f, rest, _, h⟩
    rw [List.drop_eq_nil_of_le (Nat.le_of_not_lt hpos)] at h
    simp [lenField] at h

end Fields

/-! ## The command -/

/-- The parser reads the two fields behind the name and looks no further. -/
theorem parseHelloFrom_hello (m : List UInt8) :
    (∃ u p rest, u.length ≤ 255 ∧ p.length ≤ 255 ∧ m = lenField u ++ (lenField p ++ rest) ∧
      parseHelloFrom true (5 :: (helloName ++ m)) = .ok (u, p)) ∨
    (¬∃ u p rest, u.length ≤ 255 ∧ p.length ≤ 255 ∧ m = lenField u ++ (lenField p ++ rest)) ∧
      parseHelloFrom true (5 :: (helloName ++ m)) = .error (.err .malformedHello) := by
  have hnamed : Named (5 :: (helloName ++ m)) helloName := ⟨by decide, m, rfl⟩
  have hm : (5 :: (helloName ++ m)).drop (1 + helloName.length) = m := rfl
  rw [parseHelloFrom_named hnamed, if_neg (by decide), if_neg (by simp)]
  rcases readField_spec (5 :: (helloName ++ m)) (1 + helloName.length) with ⟨u, rest, hu, hdrop, hread⟩ | ⟨hno, hread⟩
  · rw [hm] at hdrop
    subst hdrop
    have hrest : (5 :: (helloName ++ (lenField u ++ rest))).drop (1 + helloName.length + (lenField u).length) = rest := by
      rw [← List.drop_drop, hm, List.drop_left]
    rcases readField_spec (5 :: (helloName ++ (lenField u ++ rest))) (1 + helloName.length + (lenField u).length) with
      ⟨p, rest', hp, hdrop', hread'⟩ | ⟨hno', hread'⟩
    · rw [hrest] at hdrop'
      subst hdrop'
      exact .inl ⟨u, p, rest', hu, hp, rfl, by rw [hread]; simp only [bind, Except.bind, hread']; rfl⟩
    · rw [hrest] at hno'
      refine .inr ⟨?_, by rw [hread]; simp only [bind, Except.bind, hread']⟩
      rintro ⟨u', p, rest', hu', hp, h⟩
      obtain ⟨_, h⟩ := lenField_inj hu hu' h
      exact hno' ⟨p, rest', hp, h⟩
  · rw [hm] at hno
    refine .inr ⟨?_, by rw [hread]; rfl⟩
    rintro ⟨u, p, rest, hu, _, h⟩
    exact hno ⟨u, lenField p ++ rest, hu, h⟩

/-- Something stands behind the password. -/
def HelloAndMore (body : List UInt8) : Prop :=
  ∃ u p b rest, u.length ≤ 255 ∧ p.length ≤ 255 ∧ body = helloBody u p ++ b :: rest

theorem helloBody_append (u p rest : List UInt8) :
    helloBody u p ++ rest = 5 :: (helloName ++ (lenField u ++ (lenField p ++ rest))) := by
  simp only [helloBody, List.cons_append, List.append_assoc]

/-- The username and the password at the front of a body are the only ones. -/
theorem helloBody_inj {u p u' p' r s : List UInt8} (hu : u.length ≤ 255) (hp : p.length ≤ 255) (hu' : u'.length ≤ 255)
    (hp' : p'.length ≤ 255) (h : helloBody u p ++ r = helloBody u' p' ++ s) : u = u' ∧ p = p' ∧ r = s := by
  rw [helloBody_append, helloBody_append, List.cons.injEq, List.append_cancel_left_eq] at h
  obtain ⟨hu, hrest⟩ := lenField_inj hu hu' h.2
  obtain ⟨hp, hrest⟩ := lenField_inj hp hp' hrest
  exact ⟨hu, hp, hrest⟩

theorem named_hello (m : List UInt8) : Named (5 :: (helloName ++ m)) helloName := ⟨by decide, m, rfl⟩

/-- On a body with the name of HELLO the parser goes by the layout, when nothing stands behind the password. -/
theorem parsesHello_hello {m : List UInt8} (h : ¬HelloAndMore (5 :: (helloName ++ m))) :
    ParsesHello (5 :: (helloName ++ m)) (parseHelloFrom true (5 :: (helloName ++ m))) := by
  have honly : ∀ name, Named (5 :: (helloName ++ m)) name → name = helloName := fun _ hn => hn.unique (named_hello m)
  have herror : ¬Named (5 :: (helloName ++ m)) errorName := fun hn => absurd (honly _ hn) (by decide)
  rcases parseHelloFrom_hello m with ⟨u, p, rest, hu, hp, rfl, hparse⟩ | ⟨hno, hparse⟩
  · -- Nothing follows the password, so the two fields are all of the body.
    have hrest : rest = [] := by
      cases rest with
      | nil => rfl
      | cons b rest => exact absurd ⟨u, p, b, rest, hu, hp, (helloBody_append u p (b :: rest)).symm⟩ h
    subst hrest
    rw [← helloBody_append, List.append_nil] at hparse honly herror ⊢
    refine ⟨?_, fun name hn hne _ => absurd (honly name hn) hne, fun hn => absurd hn herror,
      fun hno _ => absurd rfl (hno u p hu hp)⟩
    intro u' p' hu' hp'
    rw [hparse, Except.ok.injEq, Prod.mk.injEq]
    constructor
    · rintro ⟨rfl, rfl⟩
      rfl
    · intro he
      obtain ⟨rfl, rfl, _⟩ := helloBody_inj hu hp hu' hp' (congrArg (· ++ []) he)
      exact ⟨rfl, rfl⟩
  · refine ⟨?_, fun name hn hne _ => absurd (honly name hn) hne, fun hn => absurd hn herror, fun _ _ => hparse⟩
    intro u p hu hp
    rw [hparse]
    refine iff_of_false (by intro hok; cases hok) ?_
    intro he
    rw [helloBody, List.cons.injEq, List.append_cancel_left_eq] at he
    exact hno ⟨u, p, [], hu, hp, by rw [List.append_nil]; exact he.2⟩

/-- On a body with another name the parser goes by the name. -/
theorem parsesHello_named {body name : List UInt8} (hn : Named body name) (hne : name ≠ helloName) :
    ParsesHello body (parseHelloFrom true body) := by
  have hparse := parseHelloFrom_named hn
  refine ⟨?_, ?_, ?_, fun _ hall => absurd (hall name hn) hne⟩
  · intro u p _ _
    refine iff_of_false ?_ ?_
    · rw [hparse, if_pos hne]
      split <;> exact fun hok => by cases hok
    · rintro rfl
      exact hne (hn.unique (named_hello _))
  · intro name' hn' _ hne'
    rw [← hn.unique hn'] at hne'
    rw [hparse, if_neg hne', if_pos hne]
  · intro hn'
    rw [hparse, if_pos (hn.unique hn')]

/-- A body without a complete name is malformed. -/
theorem parsesHello_unnamed {body : List UInt8} (h : ¬∃ name, Named body name) :
    ParsesHello body (parseHelloFrom true body) := by
  have hparse := parseHelloFrom_unnamed h
  refine ⟨?_, fun name hn => absurd ⟨name, hn⟩ h, fun hn => absurd ⟨_, hn⟩ h, fun _ _ => hparse⟩
  intro u p _ _
  rw [hparse]
  refine iff_of_false (by intro hok; cases hok) ?_
  rintro rfl
  exact h ⟨_, named_hello _⟩

/-- A body with something behind the password is accepted as if it ended there. -/
theorem parseHelloFrom_more {u p : List UInt8} (hu : u.length ≤ 255) (hp : p.length ≤ 255) (rest : List UInt8) :
    parseHelloFrom true (helloBody u p ++ rest) = .ok (u, p) := by
  rw [helloBody_append]
  rcases parseHelloFrom_hello (lenField u ++ (lenField p ++ rest)) with ⟨u', p', rest', hu', hp', h, hparse⟩ | ⟨hno, _⟩
  · obtain ⟨hu, hrest⟩ := lenField_inj hu hu' h
    obtain ⟨hp, _⟩ := lenField_inj hp hp' hrest
    rw [hparse, hu, hp]
  · exact absurd ⟨u, p, rest, hu, hp, rfl⟩ hno

/-- The HELLO parser goes by its layout exactly on the bodies that do not go on behind the password. -/
theorem hello_parser_layout_iff (body : List UInt8) :
    ParsesHello body (parseHelloFrom true body) ↔ ¬HelloAndMore body := by
  constructor
  · rintro h ⟨u, p, b, rest, hu, hp, rfl⟩
    have he := (h.ok u p hu hp).mp (parseHelloFrom_more hu hp (b :: rest))
    have := congrArg List.length he
    rw [List.length_append, List.length_cons] at this
    omega
  · intro h
    by_cases hname : ∃ name, Named body name
    · obtain ⟨name, hn⟩ := hname
      by_cases hhello : name = helloName
      · subst hhello
        obtain ⟨_, m, rfl⟩ := hn
        exact parsesHello_hello h
      · exact parsesHello_named hn hhello
    · exact parsesHello_unnamed hname

/-- HELLO with empty credentials and one byte too many is accepted. -/
theorem hello_parser_trailing_byte :
    let body := helloBody [] [] ++ [0xFF]
    parseHelloFrom true body = .ok ([], []) ∧ ¬ParsesHello body (parseHelloFrom true body) := by
  have hok : parseHelloFrom true (helloBody [] [] ++ [0xFF]) = .ok ([], []) := by rfl
  refine ⟨hok, ?_⟩
  intro h
  exact absurd ((h.ok [] [] (by decide) (by decide)).mp hok) (by decide)

end Mzmq
