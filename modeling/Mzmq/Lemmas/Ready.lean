import Mzmq.Null

/-!
# Parsing the metadata of READY

`readProperty` on bodies that leave room for a property name behind their end: only its last addition, of a declared value
length, can overflow, and then it panics whether additions are checked or wrap around (`readProperty_eq`). The turns of the
metadata loop are the complete properties that are not Socket-Type (`Turn`); a body in which one of them declares a value that
ends behind the 32-bit integers is an `Overrun`.
-/

namespace Mzmq

open Checked

/-- No object in memory is larger than this on a 32-bit target (`isize::MAX`), nor on a 64-bit one that is fed the same. -/
def maxBody : Nat := 2 ^ 31 - 1

/-- The header of the property at `pos`, when it is complete: the name, where the value starts and the length it declares. -/
def property (body : List UInt8) (pos : Nat) : Option (List UInt8 × Nat × Nat) :=
  let nameEnd := pos + 1 + (body.getD pos 0).toNat
  if nameEnd + 4 ≤ body.length then
    some ((body.drop (pos + 1)).take (nameEnd - (pos + 1)), nameEnd + 4, beNat ((body.drop nameEnd).take 4))
  else none

/-- Four bytes stand for a 32-bit number. -/
theorem beNat_four_lt (bs : List UInt8) : beNat (bs.take 4) < 2 ^ 32 := by
  have hlt := beNat_lt (bs.take 4)
  have h4 : (bs.take 4).length ≤ 4 := List.length_take_le _ _
  have := Nat.pow_le_pow_right (n := 256) (by decide) h4
  omega

/-- The end of a property name and of the four length bytes behind it, where the property starts inside the body. -/
theorem property_eq_some {body name : List UInt8} {pos start len : Nat} (h : property body pos = some (name, start, len)) :
    pos + 5 ≤ start ∧ start ≤ body.length ∧ len < 2 ^ 32 := by
  unfold property at h
  simp only at h
  split at h
  · rename_i hle
    simp only [Option.some.injEq, Prod.mk.injEq] at h
    obtain ⟨_, rfl, rfl⟩ := h
    have := beNat_four_lt (body.drop (pos + 1 + (body.getD pos 0).toNat))
    omega
  · cases h

/-- Behind a body that fits in memory there is room for a property name. -/
theorem maxBody_room (tgt : Target) {body : List UInt8} (hb : body.length ≤ maxBody) : body.length + 255 < tgt.size := by
  have := tgt.size_ge
  unfold maxBody at hb
  omega

/-- One turn of the metadata loop. -/
theorem readProperty_eq (tgt : Target) {body : List UInt8} {pos : Nat} (hb : body.length + 255 < tgt.size)
    (hpos : pos < body.length) :
    readProperty tgt body pos =
      match property body pos with
      | none => .error (.err .malformedMetadata)
      | some (name, start, len) =>
        if start + len ≤ body.length then .ok (name, (body.drop start).take len, start + len)
        else if start + len < tgt.size then .error (.err .malformedMetadata)
        else .error .panic := by
  have hsize := tgt.size_ge
  have hbyte := (body[pos]).toNat_lt
  have hget : body.getD pos 0 = body[pos] := by
    simp [List.getD, List.getElem?_eq_getElem hpos]
  unfold readProperty property
  simp only [index_ok hpos, hget, bind, Except.bind]
  generalize (body[pos]).toNat = n at hbyte
  simp only [Target.add_ok (show pos + 1 < tgt.size by omega), Target.add_ok (show pos + 1 + n < tgt.size by omega)]
  by_cases h1 : pos + 1 + n > body.length
  · rw [if_pos h1, if_neg (by omega)]
    rfl
  · rw [if_neg h1]
    simp only [pure, Except.pure, slice_ok (show pos + 1 ≤ pos + 1 + n by omega) (Nat.le_of_not_lt h1),
      Target.add_ok (show pos + 1 + n + 4 < tgt.size by omega)]
    by_cases h2 : pos + 1 + n + 4 > body.length
    · rw [if_pos h2, if_neg (by omega)]
      rfl
    · rw [if_neg h2, if_pos (Nat.le_of_not_lt h2)]
      simp only [slice_ok (show pos + 1 + n ≤ pos + 1 + n + 4 by omega) (Nat.le_of_not_lt h2), Nat.add_sub_cancel_left]
      have hlen : beNat ((body.drop (pos + 1 + n)).take 4) < 2 ^ 32 := beNat_four_lt _
      generalize beNat ((body.drop (pos + 1 + n)).take 4) = len at hlen
      generalize pos + 1 + n + 4 = start at h2
      by_cases h3 : start + len ≤ body.length
      · rw [if_pos h3, Target.add_ok (by omega)]
        simp only [slice_ok (Nat.le_add_right start len) h3, if_neg (Nat.not_lt.mpr h3), Nat.add_sub_cancel_left]
      · rw [if_neg h3]
        by_cases h4 : start + len < tgt.size
        · rw [if_pos h4, Target.add_ok h4]
          simp only [if_pos (Nat.lt_of_not_le h3)]
          rfl
        · rw [if_neg h4, Target.add, if_neg h4]
          cases tgt.overflowChecks with
          | true => rfl
          | false =>
            -- The sum has wrapped around to a position before the value: the bounds check passes, and the slice panics.
            have hwrap : (start + len) % tgt.size = start + len - tgt.size := by
              rw [Nat.mod_eq_sub_mod (by omega), Nat.mod_eq_of_lt (by omega)]
            simp only [Bool.false_eq_true, if_false, hwrap, if_neg (show ¬start + len - tgt.size > body.length by omega),
              slice, if_neg (show ¬(start ≤ start + len - tgt.size ∧ start + len - tgt.size ≤ body.length) by omega)]

/-! ## The metadata loop -/

/-- The loop comes to `pos`: behind complete properties none of which is Socket-Type. -/
inductive Turn (body : List UInt8) (start : Nat) : Nat → Prop where
  | first : Turn body start start
  | next {pos : Nat} {name : List UInt8} {val len : Nat} : Turn body start pos → pos < body.length →
      property body pos = some (name, val, len) → isSocketType name = false → val + len ≤ body.length →
      Turn body start (val + len)

/-- The loop comes to a property that declares a value which ends behind the 32-bit integers. -/
def OverrunFrom (body : List UInt8) (start : Nat) : Prop :=
  ∃ pos name val len, Turn body start pos ∧ pos < body.length ∧ property body pos = some (name, val, len) ∧
    2 ^ 32 ≤ val + len

/-- A READY command whose metadata overruns. -/
def Overrun (isCommand : Bool) (body : List UInt8) : Prop :=
  isCommand = true ∧ (∃ rest, body = 5 :: (readyName ++ rest)) ∧ OverrunFrom body 6

theorem Turn.step {body : List UInt8} {pos pos' : Nat} {name : List UInt8} {val len : Nat} (hpos : pos < body.length)
    (hp : property body pos = some (name, val, len)) (hn : isSocketType name = false) (hl : val + len ≤ body.length)
    (h : Turn body (val + len) pos') : Turn body pos pos' := by
  induction h with
  | first => exact .next .first hpos hp hn hl
  | next _ h1 h2 h3 h4 ih => exact .next ih h1 h2 h3 h4

/-- The first turn of a way through the metadata. -/
theorem Turn.head {body : List UInt8} {pos pos' : Nat} (h : Turn body pos pos') :
    pos' = pos ∨ ∃ name val len, pos < body.length ∧ property body pos = some (name, val, len) ∧
      isSocketType name = false ∧ val + len ≤ body.length ∧ Turn body (val + len) pos' := by
  induction h with
  | first => exact .inl rfl
  | @next p name val len _ h1 h2 h3 h4 ih =>
    rcases ih with rfl | ⟨name', val', len', g1, g2, g3, g4, g5⟩
    · exact .inr ⟨name, val, len, h1, h2, h3, h4, .first⟩
    · exact .inr ⟨name', val', len', g1, g2, g3, g4, .next g5 h1 h2 h3 h4⟩

/-- The metadata overruns in the first property, or behind it. -/
theorem overrunFrom_iff {body : List UInt8} {pos : Nat} :
    OverrunFrom body pos ↔ ∃ name val len, pos < body.length ∧ property body pos = some (name, val, len) ∧
      (2 ^ 32 ≤ val + len ∨ isSocketType name = false ∧ val + len ≤ body.length ∧ OverrunFrom body (val + len)) := by
  constructor
  · rintro ⟨p, name, val, len, ht, h1, h2, h3⟩
    rcases ht.head with rfl | ⟨name', val', len', g1, g2, g3, g4, g5⟩
    · exact ⟨name, val, len, h1, h2, .inl h3⟩
    · exact ⟨name', val', len', g1, g2, .inr ⟨g3, g4, p, name, val, len, g5, h1, h2, h3⟩⟩
  · rintro ⟨name, val, len, h1, h2, h3 | ⟨h3, h4, p, name', val', len', ht, g1, g2, g3⟩⟩
    · exact ⟨pos, name, val, len, .first, h1, h2, h3⟩
    · exact ⟨p, name', val', len', ht.step h1 h2 h3 h4, g1, g2, g3⟩

/-- What the first property says of an overrun. -/
theorem overrunFrom_some {body : List UInt8} {pos : Nat} {name : List UInt8} {val len : Nat} (hpos : pos < body.length)
    (hp : property body pos = some (name, val, len)) :
    OverrunFrom body pos ↔
      2 ^ 32 ≤ val + len ∨ isSocketType name = false ∧ val + len ≤ body.length ∧ OverrunFrom body (val + len) := by
  rw [overrunFrom_iff]
  constructor
  · rintro ⟨name', val', len', _, h, hover⟩
    rw [hp] at h
    cases h
    exact hover
  · intro hover
    exact ⟨name, val, len, hpos, hp, hover⟩

/-- The loop neither runs out of fuel nor goes on for ever, and what it gives where no property overruns is the same on
every target. Where one overruns it panics on a 32-bit target, and reports malformed metadata on a 64-bit one. The induction
is on the fuel: every turn moves at least five bytes on. -/
theorem metadataLoop_spec {body : List UInt8} (hb : body.length ≤ maxBody) (fuel : Nat) :
    ∀ pos, pos ≤ body.length → body.length < pos + fuel →
      (OverrunFrom body pos ∧ ∀ tgt : Target, metadataLoop tgt body fuel pos =
        .error (if tgt.width = .w32 then .panic else .err .malformedMetadata)) ∨
      (¬OverrunFrom body pos ∧ ((∃ val, ∀ tgt : Target, metadataLoop tgt body fuel pos = .ok val) ∨
        ∃ e, ∀ tgt : Target, metadataLoop tgt body fuel pos = .error (.err e))) := by
  induction fuel with
  | zero => intro pos h1 h2; omega
  | succ fuel ih =>
    intro pos hpos hfuel
    by_cases hlt : pos < body.length
    · have hread := fun tgt : Target => readProperty_eq tgt (maxBody_room tgt hb) hlt
      cases hp : property body pos with
      | none =>
        refine .inr ⟨?_, .inr ⟨.malformedMetadata, ?_⟩⟩
        · rw [overrunFrom_iff]
          rintro ⟨name, val, len, _, h, _⟩
          rw [hp] at h
          cases h
        · intro tgt
          simp only [metadataLoop, if_pos hlt, hread tgt, hp]
      | some p =>
        obtain ⟨name, val, len⟩ := p
        obtain ⟨h5, hval, hlen⟩ := property_eq_some hp
        by_cases hfit : val + len ≤ body.length
        · have hsmall : ¬2 ^ 32 ≤ val + len := by
            unfold maxBody at hb
            omega
          by_cases hname : isSocketType name = true
          · -- The Socket-Type property ends the loop.
            refine .inr ⟨?_, .inl ⟨(body.drop val).take len, ?_⟩⟩
            · rw [overrunFrom_some hlt hp]
              rintro (h | ⟨h, _⟩)
              · exact hsmall h
              · rw [hname] at h
                cases h
            · intro tgt
              simp only [metadataLoop, if_pos hlt, hread tgt, hp, if_pos hfit, hname, if_true]
          · -- Any other property is skipped.
            have hname' : isSocketType name = false := Bool.eq_false_iff.mpr hname
            have hloop : ∀ tgt : Target, metadataLoop tgt body (fuel + 1) pos = metadataLoop tgt body fuel (val + len) := by
              intro tgt
              simp only [metadataLoop, if_pos hlt, hread tgt, hp, if_pos hfit, hname', Bool.false_eq_true, if_false]
            have hiff : OverrunFrom body pos ↔ OverrunFrom body (val + len) := by
              rw [overrunFrom_some hlt hp, or_iff_right hsmall, and_iff_right hname', and_iff_right hfit]
            rw [hiff]
            simp only [hloop]
            exact ih (val + len) hfit (by omega)
        · -- The declared value ends behind the body.
          by_cases hover : 2 ^ 32 ≤ val + len
          · refine .inl ⟨(overrunFrom_some hlt hp).mpr (.inl hover), ?_⟩
            intro tgt
            by_cases hw : tgt.width = .w32
            · have hsz : ¬val + len < tgt.size := by rw [Target.size_w32 hw]; omega
              simp only [metadataLoop, if_pos hlt, hread tgt, hp, if_neg hfit, if_neg hsz, if_pos hw]
            · have hsz : val + len < tgt.size := by
                rw [Target.size_w64 hw]
                unfold maxBody at hb
                omega
              simp only [metadataLoop, if_pos hlt, hread tgt, hp, if_neg hfit, if_pos hsz, if_neg hw]
          · refine .inr ⟨?_, .inr ⟨.malformedMetadata, ?_⟩⟩
            · rw [overrunFrom_some hlt hp]
              rintro (h | ⟨_, h, _⟩)
              · exact hover h
              · exact hfit h
            · intro tgt
              have hsz : val + len < tgt.size := by
                have := tgt.size_ge
                omega
              simp only [metadataLoop, if_pos hlt, hread tgt, hp, if_neg hfit, if_pos hsz]
    · -- Behind the last property.
      refine .inr ⟨?_, .inr ⟨.wrongSocketType, ?_⟩⟩
      · rw [overrunFrom_iff]
        rintro ⟨_, _, _, h, _⟩
        exact hlt h
      · intro tgt
        simp only [metadataLoop, if_neg hlt]

/-- A READY command is parsed alike on every target, unless its metadata overruns; then the parser panics on a 32-bit
target, and reports malformed metadata on a 64-bit one. -/
theorem parseReadyCommand_spec (isCommand : Bool) {body : List UInt8} (hb : body.length ≤ maxBody) :
    (Overrun isCommand body ∧ ∀ tgt : Target, parseReadyCommand tgt isCommand body =
      .error (if tgt.width = .w32 then .panic else .err .malformedMetadata)) ∨
    (¬Overrun isCommand body ∧ ((∃ val, ∀ tgt : Target, parseReadyCommand tgt isCommand body = .ok val) ∨
      ∃ e, ∀ tgt : Target, parseReadyCommand tgt isCommand body = .error (.err e))) := by
  unfold parseReadyCommand
  by_cases hcmd : isCommand = false
  · refine .inr ⟨?_, .inr ⟨.notACommand, fun _ => by rw [if_pos hcmd]⟩⟩
    rintro ⟨h, _⟩
    rw [hcmd] at h
    cases h
  · simp only [if_neg hcmd]
    cases body with
    | nil =>
      refine .inr ⟨?_, .inr ⟨.malformedMetadata, fun _ => rfl⟩⟩
      rintro ⟨_, ⟨_, h⟩, _⟩
      cases h
    | cons nameLen tail =>
      simp only
      by_cases hlen : (nameLen :: tail).length < 1 + nameLen.toNat
      · refine .inr ⟨?_, .inr ⟨.malformedMetadata, fun _ => by rw [if_pos hlen]⟩⟩
        rintro ⟨_, ⟨rest, h⟩, _⟩
        cases h
        simp [readyName] at hlen
        omega
      · have hslice : slice (ε := NullError) (nameLen :: tail) 1 (1 + nameLen.toNat) = .ok (tail.take nameLen.toNat) := by
          rw [slice_ok (by omega) (by omega), List.drop_one, List.tail_cons, Nat.add_sub_cancel_left]
        simp only [if_neg hlen, hslice]
        by_cases hready : tail.take nameLen.toNat = readyName
        · -- The metadata starts behind the name.
          have hn : nameLen = 5 := by
            have h5 := congrArg List.length hready
            rw [List.length_take, List.length_cons] at *
            apply UInt8.toNat_inj.mp
            simp [readyName] at h5 ⊢
            omega
          have hbody : ∃ rest, nameLen :: tail = 5 :: (readyName ++ rest) :=
            ⟨tail.drop nameLen.toNat, by rw [← hready, List.take_append_drop, hn]⟩
          have hne : ¬readyName = errorName := by decide
          simp only [hready, if_neg hne, ne_eq, not_true_eq_false, if_false]
          have h6 : 1 + nameLen.toNat = 6 := by rw [hn]; rfl
          rw [h6] at hlen ⊢
          have hcmd' : isCommand = true := by
            cases isCommand with
            | false => exact absurd rfl hcmd
            | true => rfl
          rcases metadataLoop_spec hb ((nameLen :: tail).length + 1) 6 (Nat.le_of_not_lt hlen) (by omega) with
            ⟨h1, h2⟩ | ⟨h1, h2⟩
          · exact .inl ⟨⟨hcmd', hbody, h1⟩, h2⟩
          · exact .inr ⟨fun h => h1 h.2.2, h2⟩
        · have hno : ¬Overrun isCommand (nameLen :: tail) := by
            rintro ⟨_, ⟨rest, h⟩, _⟩
            cases h
            exact hready (by simp [readyName])
          by_cases herror : tail.take nameLen.toNat = errorName
          · exact .inr ⟨hno, .inr ⟨.peerError, fun _ => by rw [if_pos herror]⟩⟩
          · exact .inr ⟨hno, .inr ⟨.unknownCommand, fun _ => by rw [if_neg herror, if_pos hready]⟩⟩

end Mzmq
