import Mzmq.Lemmas.Ready
import Mzmq.Connection
import Mzmq.RadioConnection

/-!
# What the two roles share

The results about connections hold of any role whose READY frame fits the 32 bytes that callers reserve for it and whose
READY parser does not depend on the target but where the metadata overruns (`Role.Lawful`). Both roles are such.
-/

namespace Mzmq

open Checked

/-- What is asked of a role. -/
structure Role.Lawful {τ : Type} (R : Role τ) : Prop where
  fits : R.readyFrame.length ≤ 32
  command : ∀ (tgt : Target) (body : List UInt8), R.parseReady tgt false body = .error (.err .notACommand)
  parses : ∀ (isCommand : Bool) (body : List UInt8), body.length ≤ maxBody →
    (Overrun isCommand body ∧ ∀ tgt : Target, R.parseReady tgt isCommand body =
      .error (if tgt.width = .w32 then .panic else .err .malformedMetadata)) ∨
    (¬Overrun isCommand body ∧ ((∃ t, ∀ tgt : Target, R.parseReady tgt isCommand body = .ok t) ∨
      ∃ e, ∀ tgt : Target, R.parseReady tgt isCommand body = .error (.err e)))

/-- What the READY parser accepts is a command. -/
theorem Role.Lawful.isCommand {τ : Type} {R : Role τ} (L : R.Lawful) {tgt : Target} {isCommand : Bool} {body : List UInt8}
    {t : PeerSocketType} (h : R.parseReady tgt isCommand body = .ok t) : isCommand = true := by
  cases isCommand with
  | true => rfl
  | false =>
    rw [L.command] at h
    cases h

/-- The READY parser does not run out of fuel. -/
theorem Role.Lawful.parse_ne_hang {τ : Type} {R : Role τ} (L : R.Lawful) (tgt : Target) (isCommand : Bool)
    {body : List UInt8} (hb : body.length ≤ maxBody) : R.parseReady tgt isCommand body ≠ .error .hang := by
  intro h
  rcases L.parses isCommand body hb with ⟨_, hp⟩ | ⟨_, ⟨t, hp⟩ | ⟨e, hp⟩⟩
  · rw [hp tgt] at h
    split at h <;> cases h
  · rw [hp tgt] at h
    cases h
  · rw [hp tgt] at h
    cases h

/-- A parser that looks at the Socket-Type value of a READY command parses like `parseReadyCommand`. -/
theorem parses_of_value (select : List UInt8 → Res NullError PeerSocketType)
    (hsel : ∀ val, (∃ t, select val = .ok t) ∨ ∃ e, select val = .error (.err e)) (isCommand : Bool) {body : List UInt8}
    (hb : body.length ≤ maxBody) :
    (Overrun isCommand body ∧ ∀ tgt : Target, (parseReadyCommand tgt isCommand body >>= select) =
      .error (if tgt.width = .w32 then .panic else .err .malformedMetadata)) ∨
    (¬Overrun isCommand body ∧ ((∃ t, ∀ tgt : Target, (parseReadyCommand tgt isCommand body >>= select) = .ok t) ∨
      ∃ e, ∀ tgt : Target, (parseReadyCommand tgt isCommand body >>= select) = .error (.err e))) := by
  rcases parseReadyCommand_spec isCommand hb with ⟨h1, h2⟩ | ⟨h1, ⟨val, h2⟩ | ⟨e, h2⟩⟩
  · exact .inl ⟨h1, fun tgt => by rw [h2 tgt]; rfl⟩
  · rcases hsel val with ⟨t, ht⟩ | ⟨e, he⟩
    · exact .inr ⟨h1, .inl ⟨t, fun tgt => by rw [h2 tgt]; exact ht⟩⟩
    · exact .inr ⟨h1, .inr ⟨e, fun tgt => by rw [h2 tgt]; exact he⟩⟩
  · exact .inr ⟨h1, .inr ⟨e, fun tgt => by rw [h2 tgt]; rfl⟩⟩

/-- The PUB role. -/
theorem Connection.role_lawful {V : Type → Nat → Type} [FixedVec V] {subCap prefixCap : Nat} :
    (Connection.role : Role (SubTable V subCap prefixCap)).Lawful where
  fits := show readyFrame.length ≤ 32 by decide
  command := fun _ _ => rfl
  parses := by
    intro isCommand body hb
    refine parses_of_value socketTypeOfSub ?_ isCommand hb
    intro val
    unfold socketTypeOfSub
    split
    · exact .inl ⟨_, rfl⟩
    · split
      · exact .inl ⟨_, rfl⟩
      · exact .inr ⟨_, rfl⟩

/-- The RADIO role. -/
theorem RadioConnection.role_lawful {V : Type → Nat → Type} [FixedVec V] {groupCap groupLenCap : Nat} :
    (RadioConnection.role : Role (GroupTable V groupCap groupLenCap)).Lawful where
  fits := show radioReadyFrame.length ≤ 32 by decide
  command := fun _ _ => rfl
  parses := by
    intro isCommand body hb
    refine parses_of_value socketTypeOfDish ?_ isCommand hb
    intro val
    unfold socketTypeOfDish
    split
    · exact .inl ⟨_, rfl⟩
    · exact .inr ⟨_, rfl⟩

end Mzmq
