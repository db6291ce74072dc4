import Mzmq.Frame
import Mzmq.Metadata
import Mzmq.Plain

/-!
# Commands by their names

A body begins with one complete name, or with none: the parsers of READY and of HELLO first look at that. What the raw
parsers of READY take for the body is what one size byte counts (`parseRaw_cons`).
-/

namespace Mzmq

open Checked

variable {body name : List UInt8}

theorem Named.unique {name' : List UInt8} (h : Named body name) (h' : Named body name') : name = name' := by
  obtain ⟨hlen, rest, rfl⟩ := h
  obtain ⟨hlen', rest', h⟩ := h'
  rw [List.cons.injEq] at h
  have := congrArg UInt8.toNat h.1
  rw [UInt8.toNat_ofNat_of_lt' hlen, UInt8.toNat_ofNat_of_lt' hlen'] at this
  exact (List.append_inj h.2 this).1

/-- A body that is as long as its first byte says begins with a complete name. -/
theorem named_take {b : UInt8} {bs : List UInt8} (h : b.toNat ≤ bs.length) : Named (b :: bs) (bs.take b.toNat) := by
  have hlen : (bs.take b.toNat).length = b.toNat := by rw [List.length_take, Nat.min_eq_left h]
  have hb := b.toNat_lt
  refine ⟨by omega, bs.drop b.toNat, ?_⟩
  rw [List.take_append_drop, hlen, UInt8.ofNat_toNat]

/-- The bounds of the name of a body that begins with one. -/
theorem Named.fits (name rest : List UInt8) :
    ¬(UInt8.ofNat name.length :: (name ++ rest)).length < 1 + name.length := by
  rw [List.length_cons, List.length_append]
  omega

/-- The slice that the parsers take for the name. -/
theorem Named.slice_eq {ε : Type} (name rest : List UInt8) :
    slice (ε := ε) (UInt8.ofNat name.length :: (name ++ rest)) 1 (1 + name.length) = .ok name := by
  rw [slice_ok (Nat.le_add_right 1 _) (Nat.le_of_not_lt (fits name rest)), Nat.add_sub_cancel_left, List.drop_one,
    List.tail_cons, List.take_left]

/-- A command by its name: only that of READY has metadata that is read. -/
theorem parseReadyCommand_named (tgt : Target) (h : Named body name) :
    parseReadyCommand tgt true body =
      if name = errorName then .error (.err .peerError)
      else if name ≠ readyName then .error (.err .unknownCommand)
      else metadataLoop tgt body (body.length + 1) (1 + name.length) := by
  obtain ⟨hlen, rest, rfl⟩ := h
  unfold parseReadyCommand
  simp only [Bool.true_eq_false, if_false, UInt8.toNat_ofNat_of_lt' hlen]
  rw [if_neg (Named.fits name rest), Named.slice_eq name rest]

/-- A command by its name: only that of HELLO has fields that are read. -/
theorem parseHelloFrom_named (h : Named body name) :
    parseHelloFrom true body =
      if name = errorName then .error (.err .peerError)
      else if name ≠ helloName then .error (.err .unknownCommand)
      else (do
        let (username, pos) ← readField body (1 + name.length)
        let (password, _) ← readField body pos
        return (username, password)) := by
  obtain ⟨hlen, rest, rfl⟩ := h
  unfold parseHelloFrom
  simp only [Bool.true_eq_false, if_false, UInt8.toNat_ofNat_of_lt' hlen]
  rw [if_neg (Named.fits name rest), Named.slice_eq name rest]

/-- A body without a complete name is shorter than its first byte says. -/
theorem short_of_unnamed {b : UInt8} {bs : List UInt8} (h : ¬∃ name, Named (b :: bs) name) :
    (b :: bs).length < 1 + b.toNat := by
  rw [List.length_cons]
  by_contra hge
  exact h ⟨_, named_take (by omega)⟩

/-- A body without a complete name is no READY. -/
theorem parseReadyCommand_unnamed (tgt : Target) (h : ¬∃ name, Named body name) :
    parseReadyCommand tgt true body = .error (.err .malformedMetadata) := by
  unfold parseReadyCommand
  rw [if_neg (by decide)]
  cases body with
  | nil => rfl
  | cons b bs => simp only [if_pos (short_of_unnamed h)]

/-- A body without a complete name is no HELLO. -/
theorem parseHelloFrom_unnamed (h : ¬∃ name, Named body name) :
    parseHelloFrom true body = .error (.err .malformedHello) := by
  unfold parseHelloFrom
  rw [if_neg (by decide)]
  cases body with
  | nil => rfl
  | cons b bs => simp only [if_pos (short_of_unnamed h)]

/-! ## Raw bytes -/

section Raw

variable (parse : Bool → List UInt8 → Res NullError PeerSocketType)

/-- The raw parsers take what the second byte counts for the body. -/
theorem parseRaw_cons (flags size : UInt8) {rest : List UInt8} (hne : rest ≠ []) :
    parseRaw parse (flags :: size :: rest) =
      if rest.length < size.toNat then .error (.err .malformedMetadata)
      else parse (flagCommand flags) (rest.take size.toNat) := by
  have hpos := List.length_pos_of_ne_nil hne
  have hlen : (flags :: size :: rest).length = rest.length + 2 := rfl
  unfold parseRaw
  rw [if_neg (by omega), index_ok (by omega), index_ok (by omega)]
  simp only [bind, Except.bind, List.getElem_cons_zero, List.getElem_cons_succ]
  by_cases h : rest.length < size.toNat
  · rw [if_pos (by omega), if_pos h]
    rfl
  · rw [if_neg (by omega), if_neg h, slice_ok (Nat.le_add_right 2 _) (by omega), Nat.add_sub_cancel_left]
    rfl

end Raw

end Mzmq
