import Mzmq.Lib.Consumer
import Mzmq.Frame

/-!
# The decoder is a byte consumer

`FrameDecoder.feed` copies size bytes in a loop and body bytes in blocks, and may suspend anywhere. From every state that a
decoder can be in (`FrameDecoder.Inv`) it does what feeding the bytes one at a time does (`feed_eq_offer`), so that the
lemmas on consumers apply; in particular no slice or copy is ever out of bounds (`push_fail`).
-/

namespace Mzmq
namespace FrameDecoder

open Checked Consumer

variable {cap : Nat} {tgt : Target}

/-- The states a decoder can be in: no frame in progress, a header with too few size bytes, a body in progress that fits, or
poisoned. -/
def Inv (d : FrameDecoder cap) : Prop :=
  match d.state with
  | .needFlags => d.bufPos = 0
  | .needSize _ _ long _ sizePos => d.bufPos = 0 ∧ sizePos < sizeNeeded long
  | .needBody _ _ remaining => 0 < remaining ∧ d.bufPos + remaining ≤ cap
  | .poisoned => True

theorem inv_new : (new : FrameDecoder cap).Inv := rfl

/-- Feed one byte. -/
def push (tgt : Target) (d : FrameDecoder cap) (b : UInt8) :
    FrameDecoder cap × Answer (Fault DecodeError) DecodedFrame :=
  match d.feed tgt [b] with
  | (d', .ok (_, none)) => (d', .more)
  | (d', .ok (_, some f)) => (d', .done f)
  | (d', .error e) => (d', .fail e)

/-! ## The stages of the loop -/

/-- What a turn in the `NeedSize` stage does once the size bytes at hand are copied. -/
def sizeTail (tgt : Target) (fuel : Nat) (d : FrameDecoder cap) (more isCommand long : Bool) :
    Res DecodeError (List.Vector UInt8 8 × Nat × List UInt8 × Nat) →
      FrameDecoder cap × Res DecodeError (Nat × Option DecodedFrame)
  | .error f => (d, .error f)
  | .ok (sizeBuf, sizePos, rest, pos) =>
    if sizePos < sizeNeeded long then
      ({ d with state := .needSize more isCommand long sizeBuf sizePos }, .ok (pos, none))
    else if cap < bodyLen tgt long sizeBuf.toList then
      ({ d with state := .poisoned }, .error (.err .bodyTooLarge))
    else if bodyLen tgt long sizeBuf.toList = 0 then
      ({ d with state := .needFlags, bufPos := 0 }, .ok (pos, some ⟨more, isCommand, []⟩))
    else
      feedLoop tgt fuel { d with state := .needBody more isCommand (bodyLen tgt long sizeBuf.toList), bufPos := 0 } rest pos

/-- A turn in the `NeedFlags` stage. -/
theorem feedLoop_needFlags {d : FrameDecoder cap} (h : d.state = .needFlags) (fuel : Nat) (b : UInt8) (rest : List UInt8)
    (pos : Nat) :
    feedLoop tgt (fuel + 1) d (b :: rest) pos =
      if flagReserved b || (flagCommand b && flagMore b) then
        ({ d with state := .poisoned }, .error (.err .reservedFlagBits))
      else
        feedLoop tgt fuel
          { d with state := .needSize (flagMore b) (flagCommand b) (flagLong b) (List.Vector.replicate 8 0) 0 } rest
          (pos + 1) := by
  simp only [feedLoop, h]
  cases flagReserved b <;> cases flagCommand b && flagMore b <;> simp

/-- A turn in the `NeedSize` stage, also when the input has ended. -/
theorem feedLoop_needSize {d : FrameDecoder cap} {more isCommand long : Bool} {sizeBuf : List.Vector UInt8 8}
    {sizePos : Nat} (h : d.state = .needSize more isCommand long sizeBuf sizePos) (hs : sizePos < sizeNeeded long)
    (fuel : Nat) (rest : List UInt8) (pos : Nat) :
    feedLoop tgt (fuel + 1) d rest pos =
      sizeTail tgt fuel d more isCommand long (fillSize (sizeNeeded long) sizeBuf sizePos rest pos) := by
  cases rest with
  | nil =>
    simp only [feedLoop, fillSize, sizeTail, hs, if_true, ← h]
  | cons b rest =>
    simp only [feedLoop, h]
    cases fillSize (sizeNeeded long) sizeBuf sizePos (b :: rest) pos with
    | error f => rfl
    | ok p => rfl

/-- A turn in the `NeedBody` stage, also when the input has ended. -/
theorem feedLoop_needBody (tgt : Target) {d : FrameDecoder cap} {more isCommand : Bool} {remaining : Nat}
    (h : d.state = .needBody more isCommand remaining) (hr : 0 < remaining) (hb : d.bufPos + remaining ≤ cap)
    (fuel : Nat) (rest : List UInt8) (pos : Nat) :
    ∃ buf, copyInto (ε := DecodeError) d.buf d.bufPos (rest.take remaining) = .ok buf ∧
      feedLoop tgt (fuel + 1) d rest pos =
        if remaining ≤ rest.length then
          ({ state := .needFlags, buf := buf, bufPos := 0 },
            .ok (pos + remaining, some ⟨more, isCommand, buf.toList.take (d.bufPos + remaining)⟩))
        else
          ({ state := .needBody more isCommand (remaining - rest.length), buf := buf, bufPos := d.bufPos + rest.length },
            .ok (pos + rest.length, none)) := by
  have hlen : d.bufPos + (rest.take remaining).length ≤ cap := by
    rw [List.length_take]
    omega
  obtain ⟨buf, hc, hl⟩ := copyInto_ok (ε := DecodeError) d.buf d.bufPos (rest.take remaining) hlen
  refine ⟨buf, hc, ?_⟩
  cases rest with
  | nil =>
    have hbuf : buf = d.buf := by
      apply List.Vector.eq
      rw [hl, List.take_nil, splice_nil]
    rw [if_neg (by simp only [List.length_nil]; omega), hbuf]
    simp only [feedLoop, List.length_nil, Nat.sub_zero, Nat.add_zero, ← h]
  | cons b rest =>
    have hmin : (b :: rest).take (min (b :: rest).length remaining) = (b :: rest).take remaining := by
      rw [← List.take_take, List.take_of_length_le (List.length_take_le' _ _)]
    simp only [feedLoop, h, hmin, hc]
    by_cases hle : remaining ≤ (b :: rest).length
    · have hm : min (b :: rest).length remaining = remaining := Nat.min_eq_right hle
      have hsl : slice (ε := DecodeError) buf.toList 0 (d.bufPos + remaining) =
          .ok (buf.toList.take (d.bufPos + remaining)) := by
        rw [slice_ok (Nat.zero_le _) (by rw [buf.toList_length]; omega), List.drop_zero, Nat.sub_zero]
      simp only [hm, Nat.sub_self, if_true, hle, hsl]
    · have hm : min (b :: rest).length remaining = (b :: rest).length := by omega
      have hne : remaining - (b :: rest).length ≠ 0 := by omega
      simp only [hm, hne, if_false, hle]

/-! ## Positions and fuel -/

/-- `fillSize` counts on from the position it is given. -/
theorem fillSize_pos (needed : Nat) (sizeBuf : List.Vector UInt8 8) (sizePos : Nat) (rest : List UInt8) (pos : Nat) :
    fillSize needed sizeBuf sizePos rest (pos + 1) =
      (fillSize needed sizeBuf sizePos rest pos).map fun p => (p.1, p.2.1, p.2.2.1, p.2.2.2 + 1) := by
  induction rest generalizing sizeBuf sizePos pos with
  | nil => rfl
  | cons b rest ih =>
    unfold fillSize
    split
    · cases copyInto (ε := DecodeError) sizeBuf sizePos [b] with
      | error f => rfl
      | ok buf => exact ih buf (sizePos + 1) (pos + 1)
    · rfl

/-- `fillSize` never writes outside the eight size bytes. -/
theorem fillSize_ok {needed : Nat} (hn : needed ≤ 8) (sizeBuf : List.Vector UInt8 8) (sizePos : Nat) (rest : List UInt8)
    (pos : Nat) : ∃ p, fillSize needed sizeBuf sizePos rest pos = .ok p := by
  induction rest generalizing sizeBuf sizePos pos with
  | nil => exact ⟨_, rfl⟩
  | cons b rest ih =>
    unfold fillSize
    split
    · obtain ⟨buf, hc, _⟩ := copyInto_ok (ε := DecodeError) sizeBuf sizePos [b]
        (by simp only [List.length_singleton]; omega)
      rw [hc]
      exact ih buf (sizePos + 1) (pos + 1)
    · exact ⟨_, rfl⟩

/-- `fillSize` has nothing to do when there are enough size bytes. -/
theorem fillSize_full {needed sizePos : Nat} (h : ¬sizePos < needed) (sizeBuf : List.Vector UInt8 8)
    (rest : List UInt8) (pos : Nat) : fillSize needed sizeBuf sizePos rest pos = .ok (sizeBuf, sizePos, rest, pos) := by
  cases rest with
  | nil => rfl
  | cons b rest => simp [fillSize, h]

theorem sizeNeeded_le (long : Bool) : sizeNeeded long ≤ 8 := by
  cases long <;> simp [sizeNeeded]

/-- The loop counts on from the position it is given. -/
theorem feedLoop_pos (fuel : Nat) (d : FrameDecoder cap) (rest : List UInt8) (pos : Nat) :
    feedLoop tgt fuel d rest (pos + 1) = bump (feedLoop tgt fuel d rest pos) := by
  induction fuel generalizing d rest pos with
  | zero => rfl
  | succ fuel ih =>
    cases rest with
    | nil => rfl
    | cons b rest =>
      cases hs : d.state with
      | poisoned => simp only [feedLoop, hs, bump, Except.map]
      | needFlags =>
        rw [feedLoop_needFlags hs, feedLoop_needFlags hs]
        split
        · rfl
        · exact ih _ _ _
      | needSize more isCommand long sizeBuf sizePos =>
        simp only [feedLoop, hs, fillSize_pos]
        cases fillSize (sizeNeeded long) sizeBuf sizePos (b :: rest) pos with
        | error f => rfl
        | ok p =>
          simp only [Except.map]
          split
          · rfl
          · split
            · rfl
            · split
              · rfl
              · exact ih _ _ _
      | needBody more isCommand remaining =>
        simp only [feedLoop, hs]
        cases copyInto (ε := DecodeError) d.buf d.bufPos ((b :: rest).take (min (b :: rest).length remaining)) with
        | error f => rfl
        | ok buf =>
          simp only
          split
          · cases slice (ε := DecodeError) buf.toList 0 (d.bufPos + min (b :: rest).length remaining) with
            | error f => rfl
            | ok body =>
              simp only [bump, Except.map, Prod.mk.injEq, Except.ok.injEq, true_and, and_true]
              omega
          · simp only [bump, Except.map, Prod.mk.injEq, Except.ok.injEq, true_and, and_true]
            omega

/-- One turn is enough in the `NeedBody` stage. -/
theorem feedLoop_fuel_body {d : FrameDecoder cap} {more isCommand : Bool} {remaining : Nat}
    (h : d.state = .needBody more isCommand remaining) (fuel : Nat) (rest : List UInt8) (pos : Nat) :
    feedLoop tgt (fuel + 1) d rest pos = feedLoop tgt 1 d rest pos := by
  cases rest with
  | nil => rfl
  | cons b rest => simp only [feedLoop, h]

/-- Two turns are enough in the `NeedSize` stage. -/
theorem feedLoop_fuel_size {d : FrameDecoder cap} {more isCommand long : Bool} {sizeBuf : List.Vector UInt8 8}
    {sizePos : Nat} (h : d.state = .needSize more isCommand long sizeBuf sizePos) (fuel : Nat) (rest : List UInt8)
    (pos : Nat) :
    feedLoop tgt (fuel + 2) d rest pos = feedLoop tgt 2 d rest pos := by
  cases rest with
  | nil => rfl
  | cons b rest =>
    simp only [feedLoop.eq_3, h]
    cases fillSize (sizeNeeded long) sizeBuf sizePos (b :: rest) pos with
    | error f => rfl
    | ok p =>
      simp only
      split
      · rfl
      · split
        · rfl
        · split
          · rfl
          · exact feedLoop_fuel_body rfl fuel _ _

/-! ## One byte -/

theorem push_poisoned {d : FrameDecoder cap} (h : d.state = .poisoned) (b : UInt8) :
    d.push tgt b = (d, .fail (.err .reservedFlagBits)) := by
  simp [push, feed, feedLoop, h]

theorem push_needFlags {d : FrameDecoder cap} (h : d.state = .needFlags) (b : UInt8) :
    d.push tgt b =
      if flagReserved b || (flagCommand b && flagMore b) then
        ({ d with state := .poisoned }, .fail (.err .reservedFlagBits))
      else
        ({ d with state := .needSize (flagMore b) (flagCommand b) (flagLong b) (List.Vector.replicate 8 0) 0 }, .more) := by
  rw [push, feed, feedLoop_needFlags h]
  by_cases hb : (flagReserved b || (flagCommand b && flagMore b)) = true
  · rw [if_pos hb, if_pos hb]
  · rw [if_neg hb, if_neg hb, feedLoop]

/-- One size byte, once it is copied. -/
theorem push_needSize {d : FrameDecoder cap} {more isCommand long : Bool} {sizeBuf sizeBuf' : List.Vector UInt8 8}
    {sizePos : Nat} (h : d.state = .needSize more isCommand long sizeBuf sizePos) (hs : sizePos < sizeNeeded long)
    {b : UInt8} (hc : copyInto (ε := DecodeError) sizeBuf sizePos [b] = .ok sizeBuf') :
    d.push tgt b =
      if sizePos + 1 < sizeNeeded long then
        ({ d with state := .needSize more isCommand long sizeBuf' (sizePos + 1) }, .more)
      else if cap < bodyLen tgt long sizeBuf'.toList then
        ({ d with state := .poisoned }, .fail (.err .bodyTooLarge))
      else if bodyLen tgt long sizeBuf'.toList = 0 then
        ({ d with state := .needFlags, bufPos := 0 }, .done ⟨more, isCommand, []⟩)
      else ({ d with state := .needBody more isCommand (bodyLen tgt long sizeBuf'.toList), bufPos := 0 }, .more) := by
  rw [push, feed, feedLoop_needSize h hs]
  simp only [fillSize, hs, if_true, hc, sizeTail]
  by_cases h1 : sizePos + 1 < sizeNeeded long
  · simp only [h1, if_true]
  · by_cases h2 : cap < bodyLen tgt long sizeBuf'.toList
    · simp only [h1, h2, if_true, if_false]
    · by_cases h3 : bodyLen tgt long sizeBuf'.toList = 0
      · simp only [if_neg h1, if_neg h2, if_pos h3, Nat.zero_add]
      · simp only [if_neg h1, if_neg h2, if_neg h3, feedLoop]

/-- One body byte, once it is copied. -/
theorem push_needBody {d : FrameDecoder cap} {more isCommand : Bool} {remaining : Nat}
    (h : d.state = .needBody more isCommand remaining) (hr : 0 < remaining) (hb : d.bufPos + remaining ≤ cap) {b : UInt8}
    {buf : List.Vector UInt8 cap} (hc : copyInto (ε := DecodeError) d.buf d.bufPos [b] = .ok buf) :
    d.push tgt b =
      if remaining = 1 then
        ({ state := .needFlags, buf := buf, bufPos := 0 }, .done ⟨more, isCommand, buf.toList.take (d.bufPos + 1)⟩)
      else ({ state := .needBody more isCommand (remaining - 1), buf := buf, bufPos := d.bufPos + 1 }, .more) := by
  obtain ⟨buf', hc', he⟩ := feedLoop_needBody tgt h hr hb 2 [b] 0
  have ht : [b].take remaining = [b] := List.take_of_length_le (by rw [List.length_singleton]; omega)
  rw [ht, hc] at hc'
  cases hc'
  rw [push, feed, he]
  by_cases h1 : remaining = 1
  · simp [h1]
  · have : ¬remaining ≤ 1 := by omega
    simp [h1, this]

/-- A copied size byte fits: a header has at most eight of them. -/
theorem copy_size {long : Bool} (sizeBuf : List.Vector UInt8 8) {sizePos : Nat} (hs : sizePos < sizeNeeded long)
    (b : UInt8) : ∃ sizeBuf', copyInto (ε := DecodeError) sizeBuf sizePos [b] = .ok sizeBuf' ∧
      sizeBuf'.toList = splice sizeBuf.toList sizePos [b] := by
  apply copyInto_ok
  have := sizeNeeded_le long
  simp only [List.length_singleton]
  omega

/-- A copied body byte fits. -/
theorem copy_body {d : FrameDecoder cap} {remaining : Nat} (hr : 0 < remaining) (hb : d.bufPos + remaining ≤ cap)
    (b : UInt8) : ∃ buf, copyInto (ε := DecodeError) d.buf d.bufPos [b] = .ok buf ∧
      buf.toList = splice d.buf.toList d.bufPos [b] := by
  apply copyInto_ok
  simp only [List.length_singleton]
  omega

/-- A byte keeps the invariant, whatever the decoder answers. -/
theorem inv_push (tgt : Target) {d : FrameDecoder cap} (h : d.Inv) (b : UInt8) : (d.push tgt b).1.Inv := by
  cases hs : d.state with
  | poisoned =>
    rw [push_poisoned hs]
    exact h
  | needFlags =>
    rw [push_needFlags hs]
    rw [Inv, hs] at h
    split
    · trivial
    · refine ⟨h, ?_⟩
      cases flagLong b <;> simp [sizeNeeded]
  | needSize more isCommand long sizeBuf sizePos =>
    rw [Inv, hs] at h
    obtain ⟨hp, hlt⟩ := h
    obtain ⟨sizeBuf', hc, _⟩ := copy_size sizeBuf hlt b
    rw [push_needSize hs hlt hc]
    split
    · exact ⟨hp, by assumption⟩
    · split
      · trivial
      · split
        · rfl
        · simp only [Inv]
          omega
  | needBody more isCommand remaining =>
    rw [Inv, hs] at h
    obtain ⟨hr, hb⟩ := h
    obtain ⟨buf, hc, _⟩ := copy_body hr hb b
    rw [push_needBody hs hr hb hc]
    split
    · rfl
    · simp only [Inv]
      omega

/-- A byte is refused with an error, never with a panic, and the decoder is poisoned. -/
theorem push_fail {d d' : FrameDecoder cap} (h : d.Inv) {b : UInt8} {e : Fault DecodeError}
    (hp : d.push tgt b = (d', .fail e)) : ∃ e', e = .err e' ∧ d'.state = .poisoned := by
  cases hs : d.state with
  | poisoned =>
    rw [push_poisoned hs] at hp
    cases hp
    exact ⟨_, rfl, hs⟩
  | needFlags =>
    rw [push_needFlags hs] at hp
    split at hp <;> cases hp
    exact ⟨_, rfl, rfl⟩
  | needSize more isCommand long sizeBuf sizePos =>
    rw [Inv, hs] at h
    obtain ⟨sizeBuf', hc, _⟩ := copy_size sizeBuf h.2 b
    rw [push_needSize hs h.2 hc] at hp
    split at hp
    · cases hp
    · split at hp
      · cases hp
        exact ⟨_, rfl, rfl⟩
      · split at hp <;> cases hp
  | needBody more isCommand remaining =>
    rw [Inv, hs] at h
    obtain ⟨buf, hc, _⟩ := copy_body h.1 h.2 b
    rw [push_needBody hs h.1 h.2 hc] at hp
    split at hp <;> cases hp

/-! ## The consumer law -/

/-- Feeding a first byte and the rest of the input: the decoder takes the byte; if it asks for more it goes on with the
rest, otherwise it leaves the rest alone. The four cases are the four stages. -/
theorem feed_cons (tgt : Target) {d : FrameDecoder cap} (h : d.Inv) (b : UInt8) (rest : List UInt8) :
    d.feed tgt (b :: rest) =
      match d.push tgt b with
      | (d', .more) => bump (d'.feed tgt rest)
      | (d', .done f) => (d', .ok (1, some f))
      | (d', .fail e) => (d', .error e) := by
  cases hs : d.state with
  | poisoned =>
    rw [push_poisoned hs]
    simp [feed, feedLoop, hs]
  | needFlags =>
    rw [push_needFlags hs, feed, feedLoop_needFlags hs]
    by_cases hb : (flagReserved b || (flagCommand b && flagMore b)) = true
    · simp only [if_pos hb]
    · simp only [if_neg hb]
      rw [feedLoop_pos, feed, ← feedLoop_fuel_size rfl 1]
  | needSize more isCommand long sizeBuf sizePos =>
    rw [Inv, hs] at h
    obtain ⟨hp, hlt⟩ := h
    obtain ⟨sizeBuf', hc, _⟩ := copy_size sizeBuf hlt b
    rw [push_needSize hs hlt hc, feed, feedLoop_needSize hs hlt]
    have hfill : fillSize (sizeNeeded long) sizeBuf sizePos (b :: rest) 0 =
        fillSize (sizeNeeded long) sizeBuf' (sizePos + 1) rest 1 := by
      simp only [fillSize, hlt, if_true, hc, Nat.zero_add]
    rw [hfill]
    by_cases h1 : sizePos + 1 < sizeNeeded long
    · -- Size bytes are still missing: the inner loop goes on where it stopped.
      rw [if_pos h1]
      simp only
      rw [feed, ← feedLoop_pos,
        feedLoop_needSize (d := { d with state := .needSize more isCommand long sizeBuf' (sizePos + 1) }) rfl h1]
      obtain ⟨p, hp⟩ := fillSize_ok (sizeNeeded_le long) sizeBuf' (sizePos + 1) rest (0 + 1)
      rw [hp]
      rfl
    · -- The size is complete: the answer is settled, or the body is what comes next.
      rw [if_neg h1, fillSize_full h1]
      simp only [sizeTail, if_neg h1]
      by_cases h2 : cap < bodyLen tgt long sizeBuf'.toList
      · simp only [h2, if_true]
      · by_cases h3 : bodyLen tgt long sizeBuf'.toList = 0
        · simp only [if_neg h2, if_pos h3]
        · simp only [if_neg h2, if_neg h3]
          rw [feed, ← feedLoop_pos, feedLoop_fuel_body rfl, feedLoop_fuel_body rfl 2]
  | needBody more isCommand remaining =>
    rw [Inv, hs] at h
    obtain ⟨hr, hb⟩ := h
    obtain ⟨buf, hc, hl⟩ := copy_body hr hb b
    obtain ⟨buf2, hc2, he⟩ := feedLoop_needBody tgt hs hr hb 2 (b :: rest) 0
    rw [push_needBody hs hr hb hc, feed, he]
    by_cases h1 : remaining = 1
    · -- The byte completes the body.
      subst h1
      have hbuf : buf2 = buf := by
        rw [List.take_one, List.head?_cons, Option.toList_some, hc] at hc2
        exact (Except.ok.inj hc2).symm
      simp [hbuf]
    · -- The block copy is the copy of the byte and of the rest of the block.
      obtain ⟨n, rfl⟩ : ∃ n, remaining = n + 1 := ⟨remaining - 1, by omega⟩
      rw [if_neg h1]
      simp only [Nat.add_sub_cancel]
      obtain ⟨buf3, hc3, he3⟩ := feedLoop_needBody tgt
        (d := { state := .needBody more isCommand n, buf := buf, bufPos := d.bufPos + 1 }) rfl (by omega)
        (by simp only; omega) 2 rest 0
      obtain ⟨buf', hx, hy⟩ := copyInto_copyInto (ε := DecodeError) d.buf d.bufPos [b]
        (rest.take n) (by simp only [List.length_append, List.length_singleton, List.length_take]; omega)
      have hbuf : buf3 = buf2 := by
        rw [hc] at hx
        cases hx
        simp only [List.length_singleton, List.singleton_append] at hy
        rw [List.take_succ_cons] at hc2
        rw [hc2, hc3] at hy
        exact Except.ok.inj hy
      rw [feed, he3, hbuf]
      simp only [List.length_cons, Nat.add_le_add_iff_right, Nat.zero_add]
      by_cases h2 : n ≤ rest.length
      · simp only [h2, if_true, bump, Except.map, Nat.add_assoc, Nat.add_comm 1 n]
      · simp only [h2, if_false, bump, Except.map, Nat.add_assoc, Nat.add_comm 1, Nat.add_sub_add_right]

/-- Feeding is offering the bytes one at a time. -/
theorem feed_eq_offer {d : FrameDecoder cap} (h : d.Inv) (input : List UInt8) :
    d.feed tgt input = offer (push tgt) d input := by
  induction input generalizing d with
  | nil => rfl
  | cons b rest ih =>
    have hi := inv_push tgt h b
    rw [feed_cons tgt h]
    cases hp : d.push tgt b with
    | mk d' r =>
      rw [hp] at hi
      cases r with
      | more => rw [offer_cons_more hp, ← ih hi]
      | done f => rw [offer_cons_done hp]
      | fail e => rw [offer_cons_fail hp]

end FrameDecoder
end Mzmq
