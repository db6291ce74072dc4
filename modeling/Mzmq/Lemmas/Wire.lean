import Mzmq.Wire
import Mzmq.Lemmas.Decoder

/-!
# What the decoder reads

The decoder against the frame grammar. One byte takes the bytes read so far to a longer part of a frame, to the complete
wire form of the frame it delivers, or to a header that cannot be (`push_spec`); by induction so does a whole feed
(`feed_spec`), which leaves a poisoned decoder alone (`feed_poisoned`). No part of a frame in progress is a complete frame
already (`not_pending_of_isWire`).
-/

namespace Mzmq

open Checked Consumer

variable {cap : Nat} {tgt : Target}

namespace FrameDecoder

theorem pending_needFlags {d : FrameDecoder cap} (h : d.state = .needFlags) : Pending tgt d [] := by
  rw [Pending, h]

theorem pending_new : Pending tgt (new : FrameDecoder cap) [] := pending_needFlags rfl

/-- A header whose size bytes are not all there is not bad yet. -/
theorem badHeader_short {flags : UInt8} {rest : List UInt8} (hok : flagsOk flags = true)
    (h : rest.length < sizeNeeded (flagLong flags)) : badHeader tgt cap (flags :: rest) = false := by
  simp [badHeader, hok, Nat.not_le.mpr h]

/-- A complete header is bad when the size it declares is too large. -/
theorem badHeader_full (tgt : Target) (cap : Nat) {flags : UInt8} {size : List UInt8} (rest : List UInt8)
    (hok : flagsOk flags = true) (h : size.length = sizeNeeded (flagLong flags)) :
    badHeader tgt cap (flags :: (size ++ rest)) = decide (cap < bodyLen tgt (flagLong flags) size) := by
  have hle : size.length ≤ (size ++ rest).length := by
    rw [List.length_append]
    omega
  rw [badHeader, ← h, List.take_left, decide_eq_true hle, hok, Bool.not_true, Bool.false_or, Bool.true_and]

/-- A header that breaks the rules is bad. -/
theorem breaks_bad {v : List UInt8} {e : DecodeError} (h : Breaks tgt cap v e) : badHeader tgt cap v = true := by
  cases h with
  | flags hf => rw [badHeader, hf, Bool.not_false, Bool.true_or]
  | @size flags size hok hl hlt =>
    have := badHeader_full tgt cap [] hok hl
    rwa [List.append_nil, decide_eq_true hlt] at this

/-- Behind good flags, it is the size that breaks the rules. -/
theorem breaks_size {v s : List UInt8} {e : DecodeError} (h : Breaks tgt cap v e) (hp : v <+: s)
    (hok : flagsOk (s.headD 0) = true) : e = .bodyTooLarge := by
  obtain ⟨w, rfl⟩ := hp
  cases h with
  | flags hf =>
    rw [List.singleton_append, List.headD_cons, hf] at hok
    cases hok
  | size => rfl

/-- The header of a frame that fits is not bad. -/
theorem badHeader_of_isWire {wire : List UInt8} {f : DecodedFrame} (hw : IsWire tgt wire f) (hc : f.body.length ≤ cap)
    (rest : List UInt8) : badHeader tgt cap (wire ++ rest) = false := by
  obtain ⟨flags, size, hok, hl, rfl, _, _, hb⟩ := hw
  rw [List.cons_append, List.append_assoc, badHeader_full tgt cap _ hok hl, ← hb]
  simp [hc]

/-- The header of a frame in progress is not bad. -/
theorem badHeader_of_pending {d : FrameDecoder cap} {u : List UInt8} (hi : d.Inv) (hp : Pending tgt d u) :
    badHeader tgt cap u = false := by
  cases hs : d.state with
  | poisoned =>
    rw [Pending, hs] at hp
    exact hp.elim
  | needFlags =>
    rw [Pending, hs] at hp
    rw [hp, badHeader]
  | needSize more isCommand long sizeBuf sizePos =>
    rw [Inv, hs] at hi
    rw [Pending, hs] at hp
    obtain ⟨flags, hok, _, _, rfl, rfl⟩ := hp
    refine badHeader_short hok ?_
    rw [List.length_take]
    omega
  | needBody more isCommand remaining =>
    rw [Inv, hs] at hi
    rw [Pending, hs] at hp
    obtain ⟨flags, size, hok, hsl, _, _, rfl, hbl⟩ := hp
    rw [badHeader_full tgt cap _ hok hsl, hbl]
    simp [hi.2]

/-- Copying one byte behind the first bytes of a buffer. -/
theorem take_splice_snoc {buf : List UInt8} {pos : Nat} {b : UInt8} (h : pos ≤ buf.length) :
    (splice buf pos [b]).take (pos + 1) = buf.take pos ++ [b] := splice_take buf [b] h

/-- A stream that goes on from a bad header is bad. -/
theorem badHeader_mono {u v : List UInt8} (h : u <+: v) (hu : badHeader tgt cap u = true) :
    badHeader tgt cap v = true := by
  obtain ⟨w, rfl⟩ := h
  cases u with
  | nil => simp [badHeader] at hu
  | cons flags rest =>
    by_cases hok : flagsOk flags = true
    · by_cases hl : sizeNeeded (flagLong flags) ≤ rest.length
      · have hle : sizeNeeded (flagLong flags) ≤ (rest ++ w).length := by
          rw [List.length_append]
          omega
        simp only [badHeader, hok, hl, Bool.not_true, decide_true, Bool.true_and, Bool.false_or] at hu
        simp only [badHeader, List.cons_append, hle, List.take_append_of_le_length hl, hu, decide_true,
          Bool.and_self, Bool.or_true]
      · rw [badHeader_short hok (Nat.not_le.mp hl)] at hu
        cases hu
    · simp [badHeader, hok]

/-- The grammar is prefix-free: a frame is not the beginning of another one. -/
theorem isWire_unique {wire wire' : List UInt8} {f f' : DecodedFrame} (h : IsWire tgt wire f) (h' : IsWire tgt wire' f')
    (hp : wire <+: wire') : wire = wire' ∧ f = f' := by
  obtain ⟨flags, size, _, hl, rfl, hm, hc, hb⟩ := h
  obtain ⟨flags', size', _, hl', rfl, hm', hc', hb'⟩ := h'
  rw [List.cons_prefix_cons] at hp
  obtain ⟨rfl, hp⟩ := hp
  have hsz : size = size' := by
    have h1 : size <+: size' ++ f'.body := (List.prefix_append _ _).trans hp
    exact (List.prefix_of_prefix_length_le h1 (List.prefix_append _ _) (by omega)).eq_of_length (by omega)
  subst hsz
  have hbody : f.body = f'.body := ((List.prefix_append_right_inj size).mp hp).eq_of_length (by omega)
  refine ⟨by rw [hbody], ?_⟩
  cases f
  cases f'
  simp_all

/-- Two frames at the beginning of one stream are the same. -/
theorem isWire_first {wire wire' s : List UInt8} {f f' : DecodedFrame} (h : IsWire tgt wire f) (h' : IsWire tgt wire' f')
    (hp : wire <+: s) (hp' : wire' <+: s) : wire = wire' ∧ f = f' := by
  rcases Nat.le_total wire.length wire'.length with hle | hle
  · exact isWire_unique h h' (List.prefix_of_prefix_length_le hp hp' hle)
  · have := isWire_unique h' h (List.prefix_of_prefix_length_le hp' hp hle)
    exact ⟨this.1.symm, this.2.symm⟩

/-- The size is read from the size bytes alone. -/
theorem bodyLen_take {long : Bool} {size : List UInt8} (h : size.length = 8) :
    bodyLen tgt long (size.take (sizeNeeded long)) = bodyLen tgt long size := by
  cases long with
  | true => rw [sizeNeeded, if_pos rfl, List.take_of_length_le (Nat.le_of_eq h)]
  | false => cases size <;> simp [bodyLen, sizeNeeded]

/-- What one byte does to a frame in progress. -/
theorem push_spec {d : FrameDecoder cap} {u : List UInt8} (hi : d.Inv) (hp : Pending tgt d u) (b : UInt8) :
    match d.push tgt b with
    | (d', .more) => Pending tgt d' (u ++ [b]) ∧ badHeader tgt cap (u ++ [b]) = false
    | (d', .done f) => d'.state = .needFlags ∧ IsWire tgt (u ++ [b]) f ∧ f.body.length ≤ cap
    | (d', .fail e) => d'.state = .poisoned ∧ ∃ e', e = .err e' ∧ Breaks tgt cap (u ++ [b]) e' := by
  cases hs : d.state with
  | poisoned =>
    rw [Pending, hs] at hp
    exact hp.elim
  | needFlags =>
    rw [Pending, hs] at hp
    subst hp
    rw [push_needFlags hs]
    by_cases hb : (flagReserved b || (flagCommand b && flagMore b)) = true
    · rw [if_pos hb]
      exact ⟨rfl, _, rfl, .flags (by rw [flagsOk, hb, Bool.not_true])⟩
    · have hok : flagsOk b = true := by
        rw [Bool.not_eq_true] at hb
        rw [flagsOk, hb, Bool.not_false]
      rw [if_neg hb]
      refine ⟨⟨b, hok, rfl, rfl, rfl, by simp⟩, badHeader_short hok ?_⟩
      cases flagLong b <;> simp [sizeNeeded]
  | needSize more isCommand long sizeBuf sizePos =>
    rw [Inv, hs] at hi
    rw [Pending, hs] at hp
    obtain ⟨hpos, hlt⟩ := hi
    obtain ⟨flags, hok, rfl, rfl, rfl, rfl⟩ := hp
    obtain ⟨sizeBuf', hc, hl⟩ := copy_size sizeBuf hlt b
    have h8 : sizeBuf.toList.length = 8 := sizeBuf.toList_length
    have h8' : sizeBuf'.toList.length = 8 := sizeBuf'.toList_length
    have hn := sizeNeeded_le (flagLong flags)
    -- The size bytes read so far, with the new one.
    have hu : flags :: sizeBuf.toList.take sizePos ++ [b] = flags :: sizeBuf'.toList.take (sizePos + 1) := by
      rw [hl, take_splice_snoc (by omega), List.cons_append]
    rw [push_needSize hs hlt hc, hu]
    by_cases h1 : sizePos + 1 < sizeNeeded (flagLong flags)
    · rw [if_pos h1]
      refine ⟨⟨flags, hok, rfl, rfl, rfl, rfl⟩, badHeader_short hok ?_⟩
      rw [List.length_take]
      omega
    · rw [if_neg h1]
      have hfull : sizePos + 1 = sizeNeeded (flagLong flags) := by omega
      have hlen : (sizeBuf'.toList.take (sizePos + 1)).length = sizeNeeded (flagLong flags) := by
        rw [List.length_take]
        omega
      have hbl : bodyLen tgt (flagLong flags) (sizeBuf'.toList.take (sizePos + 1)) =
          bodyLen tgt (flagLong flags) sizeBuf'.toList := by
        rw [hfull]
        exact bodyLen_take h8'
      have hbad : badHeader tgt cap (flags :: sizeBuf'.toList.take (sizePos + 1)) =
          decide (cap < bodyLen tgt (flagLong flags) sizeBuf'.toList) := by
        have := badHeader_full tgt cap [] hok hlen
        rwa [List.append_nil, hbl] at this
      by_cases h2 : cap < bodyLen tgt (flagLong flags) sizeBuf'.toList
      · rw [if_pos h2]
        exact ⟨rfl, _, rfl, .size hok hlen (by rwa [hbl])⟩
      · rw [if_neg h2]
        by_cases h3 : bodyLen tgt (flagLong flags) sizeBuf'.toList = 0
        · rw [if_pos h3]
          refine ⟨rfl, ⟨flags, sizeBuf'.toList.take (sizePos + 1), hok, hlen, by simp, rfl, rfl, ?_⟩, Nat.zero_le _⟩
          rw [hbl, h3]
          rfl
        · rw [if_neg h3]
          refine ⟨⟨flags, sizeBuf'.toList.take (sizePos + 1), hok, hlen, rfl, rfl, by simp, ?_⟩, ?_⟩
          · rw [hbl]
            simp
          · simp [hbad, h2]
  | needBody more isCommand remaining =>
    rw [Inv, hs] at hi
    rw [Pending, hs] at hp
    obtain ⟨hr, hbp⟩ := hi
    obtain ⟨flags, size, hok, hsl, rfl, rfl, rfl, hbl⟩ := hp
    obtain ⟨buf, hc, hl⟩ := copy_body hr hbp b
    have hcap : d.buf.toList.length = cap := d.buf.toList_length
    -- The body bytes read so far, with the new one.
    have hu : flags :: (size ++ d.buf.toList.take d.bufPos) ++ [b] =
        flags :: (size ++ buf.toList.take (d.bufPos + 1)) := by
      rw [hl, take_splice_snoc (by omega), List.cons_append, List.append_assoc]
    rw [push_needBody hs hr hbp hc, hu]
    by_cases h1 : remaining = 1
    · rw [if_pos h1]
      have hlen : (buf.toList.take (d.bufPos + 1)).length = d.bufPos + 1 := by
        rw [List.length_take, buf.toList_length]
        omega
      refine ⟨rfl, ⟨flags, size, hok, hsl, rfl, rfl, rfl, ?_⟩, ?_⟩
      · simp only [hlen, hbl]
        omega
      · simp only [hlen]
        omega
    · rw [if_neg h1]
      refine ⟨⟨flags, size, hok, hsl, rfl, rfl, rfl, ?_⟩, ?_⟩
      · simp only [hbl]
        omega
      · rw [badHeader_full tgt cap _ hok hsl, hbl]
        simp
        omega

/-- What a feed does to a frame in progress: it reads all its input into the frame, it stops at the end of the frame, or it
comes upon a header that cannot be. -/
theorem feed_spec (tgt : Target) {d : FrameDecoder cap} {u : List UInt8} (hi : d.Inv) (hp : Pending tgt d u) (input : List UInt8) :
    (∃ d', d.feed tgt input = (d', .ok (input.length, none)) ∧ d'.Inv ∧ Pending tgt d' (u ++ input) ∧
      (input ≠ [] → badHeader tgt cap (u ++ input) = false)) ∨
    (∃ d' n f, d.feed tgt input = (d', .ok (n, some f)) ∧ d'.Inv ∧ d'.state = .needFlags ∧ 0 < n ∧ n ≤ input.length ∧
      IsWire tgt (u ++ input.take n) f ∧ f.body.length ≤ cap) ∨
    (∃ d' e, d.feed tgt input = (d', .error (.err e)) ∧ d'.Inv ∧ d'.state = .poisoned ∧
      ∃ n, 0 < n ∧ n ≤ input.length ∧ Breaks tgt cap (u ++ input.take n) e) := by
  rw [feed_eq_offer hi]
  induction input generalizing d u with
  | nil => exact .inl ⟨d, rfl, hi, by simpa using hp, by simp⟩
  | cons b rest ih =>
    have hb := push_spec hi hp b
    have hi' := inv_push tgt hi b
    cases hq : d.push tgt b with
    | mk d1 r =>
      rw [hq] at hb hi'
      cases r with
      | more =>
        rw [offer_cons_more hq]
        have hassoc : ∀ xs, u ++ [b] ++ xs = u ++ b :: xs := by simp
        rcases ih hi' hb.1 with ⟨d', ho, h1, h2, h3⟩ | ⟨d', n, f, ho, h1, h2, h3, h4, h5, h6⟩ |
          ⟨d', e, ho, h1, h2, n, _, h3, h4⟩
        · refine .inl ⟨d', by simp [ho, bump, Except.map], h1, by simpa using h2, ?_⟩
          intro _
          cases rest with
          | nil => exact hb.2
          | cons x xs => simpa using h3 (by simp)
        · refine .inr (.inl ⟨d', n + 1, f, by simp [ho, bump, Except.map], h1, h2, by omega, ?_, ?_, h6⟩)
          · simp only [List.length_cons]
            omega
          · rw [List.take_succ_cons, ← hassoc]
            exact h5
        · refine .inr (.inr ⟨d', e, by simp [ho, bump, Except.map], h1, h2, n + 1, by omega, ?_, ?_⟩)
          · simp only [List.length_cons]
            omega
          · rw [List.take_succ_cons, ← hassoc]
            exact h4
      | done f =>
        rw [offer_cons_done hq]
        exact .inr (.inl ⟨d1, 1, f, rfl, hi', hb.1, Nat.one_pos, by simp, by simpa using hb.2.1, hb.2.2⟩)
      | fail e =>
        rw [offer_cons_fail hq]
        obtain ⟨h1, e', rfl, h2⟩ := hb
        exact .inr (.inr ⟨d1, e', rfl, hi', h1, 1, by decide, by simp, by simpa using h2⟩)

/-- A poisoned decoder takes nothing and stays as it is. -/
theorem feed_poisoned {d : FrameDecoder cap} (h : d.state = .poisoned) (input : List UInt8) :
    d.feed tgt input =
      if input = [] then (d, .ok (0, none)) else (d, .error (.err .reservedFlagBits)) := by
  cases input with
  | nil => rfl
  | cons b rest => simp [feed, feedLoop, h]

/-- No part of a frame in progress begins with a complete frame. -/
theorem not_pending_of_isWire {d : FrameDecoder cap} {wire u : List UInt8} {f : DecodedFrame} (hi : d.Inv)
    (hw : IsWire tgt wire f) (hu : wire <+: u) : ¬Pending tgt d u := by
  intro hp
  obtain ⟨flags, size, hok, hl, rfl, _, _, hb⟩ := hw
  cases hs : d.state with
  | poisoned =>
    rw [Pending, hs] at hp
    exact hp
  | needFlags =>
    rw [Pending, hs] at hp
    simp [hp] at hu
  | needSize more isCommand long sizeBuf sizePos =>
    rw [Pending, hs] at hp
    rw [Inv, hs] at hi
    obtain ⟨flags', _, _, _, rfl, rfl⟩ := hp
    rw [List.cons_prefix_cons] at hu
    obtain ⟨rfl, hu⟩ := hu
    have := hu.length_le
    rw [List.length_append, List.length_take] at this
    omega
  | needBody more isCommand remaining =>
    rw [Pending, hs] at hp
    rw [Inv, hs] at hi
    obtain ⟨flags', size', _, hl', _, _, rfl, hb'⟩ := hp
    rw [List.cons_prefix_cons] at hu
    obtain ⟨rfl, hu⟩ := hu
    -- Both headers are the same, and the body in progress is shorter than the size they declare.
    have hsz : size = size' := by
      have h1 : size <+: size' ++ d.buf.toList.take d.bufPos := (List.prefix_append _ _).trans hu
      have h2 := List.prefix_of_prefix_length_le h1 (List.prefix_append _ _) (by omega)
      exact h2.eq_of_length (by omega)
    subst hsz
    have := hu.length_le
    simp only [List.length_append, List.length_take] at this
    omega

/-- A decoder delivers the frame whose wire form its input completes, and leaves what stands behind it. -/
theorem feed_of_isWire {d : FrameDecoder cap} {u input : List UInt8} {n : Nat} {f : DecodedFrame} (hi : d.Inv)
    (hp : Pending tgt d u) (hn : n ≤ input.length) (hw : IsWire tgt (u ++ input.take n) f) (hc : f.body.length ≤ cap) :
    ∃ d', d.feed tgt input = (d', .ok (n, some f)) ∧ d'.Inv ∧ d'.state = .needFlags := by
  have hpre : ∀ k, u ++ input.take k <+: u ++ input := by
    intro k
    exact (List.prefix_append_right_inj u).mpr (List.take_prefix k input)
  have hlen : ∀ {k}, k ≤ input.length → (u ++ input.take k).length = u.length + k := by
    intro k hk
    rw [List.length_append, List.length_take, Nat.min_eq_left hk]
  rcases feed_spec tgt hi hp input with ⟨d', _, h1, h2, _⟩ | ⟨d', n', f', ho, h1, h2, _, hn', h3, _⟩ |
    ⟨d', e, _, _, _, k, _, hk, h3⟩
  · exact absurd h2 (not_pending_of_isWire h1 hw (hpre n))
  · obtain ⟨he, rfl⟩ := isWire_first hw h3 (hpre n) (hpre n')
    have hnn : n = n' := by
      have := congrArg List.length he
      rw [hlen hn, hlen hn'] at this
      omega
    rw [hnn]
    exact ⟨d', ho, h1, h2⟩
  · have hbad := badHeader_mono (hpre k) (breaks_bad h3)
    have := badHeader_of_isWire hw hc (input.drop n)
    rw [List.append_assoc, List.take_append_drop, hbad] at this
    cases this

/-- A decoder at the start of a frame delivers the frame whose wire form it is fed, and leaves what stands behind it. -/
theorem feed_wire {d : FrameDecoder cap} {wire : List UInt8} {f : DecodedFrame} (hi : d.Inv) (hd : d.state = .needFlags)
    (hw : IsWire tgt wire f) (hc : f.body.length ≤ cap) (rest : List UInt8) :
    ∃ d', d.feed tgt (wire ++ rest) = (d', .ok (wire.length, some f)) ∧ d'.Inv ∧ d'.state = .needFlags :=
  feed_of_isWire hi (pending_needFlags hd) (by simp) (by simpa using hw) hc

/-! ## Feeding again what is left -/

theorem feedAll_error {tgt : Target} {d d' : FrameDecoder cap} {xs : List UInt8} {e : Fault DecodeError}
    (h : d.feed tgt xs = (d', .error e)) (fuel : Nat) : feedAll tgt (fuel + 1) d xs = (d', [.error e]) := by
  simp only [feedAll, h]

theorem feedAll_last {tgt : Target} {d d' : FrameDecoder cap} {xs : List UInt8} {n : Nat} {o : Option DecodedFrame}
    (h : d.feed tgt xs = (d', .ok (n, o))) (hn : xs.length ≤ n) (fuel : Nat) :
    feedAll tgt (fuel + 1) d xs = (d', [.ok (n, o)]) := by
  simp only [feedAll, h, if_pos hn]

theorem feedAll_next {tgt : Target} {d d' : FrameDecoder cap} {xs : List UInt8} {n : Nat} {o : Option DecodedFrame}
    (h : d.feed tgt xs = (d', .ok (n, o))) (hn : ¬xs.length ≤ n) (fuel : Nat) :
    feedAll tgt (fuel + 1) d xs =
      ((feedAll tgt fuel d' (xs.drop n)).1, .ok (n, o) :: (feedAll tgt fuel d' (xs.drop n)).2) := by
  simp only [feedAll, h, if_neg hn]

/-! ## Streams of frames -/

/-- The first frame of a stream. -/
theorem isStream_first {wire rest : List UInt8} {f : DecodedFrame} {fs : List DecodedFrame}
    (h : IsStream tgt cap (wire ++ rest) fs) (hw : IsWire tgt wire f) :
    ∃ fs', fs = f :: fs' ∧ IsStream tgt cap rest fs' := by
  generalize hs : wire ++ rest = s at h
  cases h with
  | nil =>
    obtain ⟨flags, size, _, _, rfl, _⟩ := hw
    cases hs
  | @cons wire' s' f' fs' hw' _ hs' =>
    obtain ⟨rfl, rfl⟩ := isWire_first hw hw' (hs ▸ List.prefix_append wire rest) (List.prefix_append wire' s')
    exact ⟨fs', rfl, List.append_cancel_left hs ▸ hs'⟩

/-- No stream of frames begins with a bad header. -/
theorem isStream_good {v s : List UInt8} {fs : List DecodedFrame} (h : IsStream tgt cap s fs) (hv : v <+: s) :
    badHeader tgt cap v = false := by
  rw [Bool.eq_false_iff]
  intro hbad
  cases h with
  | nil =>
    rw [List.prefix_nil.mp hv] at hbad
    cases hbad
  | cons hw hc _ =>
    have := badHeader_mono hv hbad
    rw [badHeader_of_isWire hw hc] at this
    cases this

/-- A part of a frame in progress is no frame, so the stream is at its end. -/
theorem isStream_pending {d : FrameDecoder cap} {u : List UInt8} {fs : List DecodedFrame} (hi : d.Inv)
    (hp : Pending tgt d u) (h : IsStream tgt cap u fs) : fs = [] := by
  cases h with
  | nil => rfl
  | cons hw _ _ => exact absurd hp (not_pending_of_isWire hi hw (List.prefix_append _ _))

/-- A stream of frames, and then another. -/
theorem isStream_append {v s : List UInt8} {fs gs : List DecodedFrame} (h : IsStream tgt cap v fs)
    (h' : IsStream tgt cap s gs) : IsStream tgt cap (v ++ s) (fs ++ gs) := by
  induction h with
  | nil => exact h'
  | cons hw hc _ ih =>
    rw [List.append_assoc]
    exact .cons hw hc ih

/-- What stands behind a stream of frames in a longer one is a stream of frames. -/
theorem isStream_rest {v s : List UInt8} {fs gs : List DecodedFrame} (h : IsStream tgt cap v fs)
    (h' : IsStream tgt cap (v ++ s) gs) : ∃ gs', gs = fs ++ gs' ∧ IsStream tgt cap s gs' := by
  induction h generalizing gs with
  | nil => exact ⟨gs, rfl, h'⟩
  | cons hw _ _ ih =>
    rw [List.append_assoc] at h'
    obtain ⟨gs', rfl, hs⟩ := isStream_first h' hw
    obtain ⟨gs'', rfl, hs'⟩ := ih hs
    exact ⟨gs'', rfl, hs'⟩

/-- A stream of frames behind which no frame begins is the longest. -/
theorem longest_of_last {wires rest : List UInt8} {fs : List DecodedFrame} (h : IsStream tgt cap wires fs)
    (hlast : ∀ wire f, IsWire tgt wire f → f.body.length ≤ cap → ¬wire <+: rest) :
    LongestStream tgt cap (wires ++ rest) wires fs := by
  refine ⟨List.prefix_append _ _, h, ?_⟩
  intro wires' fs' hp h'
  by_contra hlt
  obtain ⟨x, rfl⟩ := List.prefix_of_prefix_length_le (List.prefix_append wires rest) hp (by omega)
  obtain ⟨gs, _, hx⟩ := isStream_rest h h'
  rw [List.prefix_append_right_inj] at hp
  cases hx with
  | nil => simp at hlt
  | cons hw hc _ => exact hlast _ _ hw hc ((List.prefix_append _ _).trans hp)

end FrameDecoder
end Mzmq
