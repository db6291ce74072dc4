import Mzmq.Lemmas.Wire

/-!
# Frame sizes and the pointer width

The decoder casts a 64-bit size to `usize` before it compares it with its capacity. On a 32-bit target the cast drops the
upper half, so a declared size of 2^32 or more may come out small enough to be accepted. What a decoder answers is the same
on both widths exactly when the stream holds no such header where a frame begins (`Truncates`).
-/

namespace Mzmq

open Checked

/-- A stream in which such a header stands behind the frames `fs`. -/
def LongBehind (tgt : Target) (cap : Nat) (P : Nat → Prop) (fs : List DecodedFrame) (s : List UInt8) : Prop :=
  ∃ wires rest, s = wires ++ rest ∧ IsStream tgt cap wires fs ∧ LongHeader P rest

/-- A size of 2^32 or more that fits the capacity when its upper half is dropped. -/
def Truncated (cap n : Nat) : Prop := 2 ^ 32 ≤ n ∧ n % 2 ^ 32 ≤ cap

/-- A stream with a header behind some frames whose size is truncated on a 32-bit target. -/
def Truncates (tgt : Target) (cap : Nat) (s : List UInt8) : Prop := ∃ fs, LongBehind tgt cap (Truncated cap) fs s

/-- A header behind some frames whose size exceeds the capacity is rejected: the frames before it are delivered, and no
other. -/
def RejectsOversize (tgt : Target) (cap : Nat) (s : List UInt8) (fed : List FrameDecoder.Fed) : Prop :=
  ∀ fs, LongBehind tgt cap (cap < ·) fs s → delivered fed = fs ∧ .error (.err .bodyTooLarge) ∈ fed

/-! ## Headers -/

variable {cap : Nat} {t32 t64 : Target} {P : Nat → Prop}

theorem LongHeader.append {s : List UInt8} (h : LongHeader P s) (more : List UInt8) : LongHeader P (s ++ more) := by
  obtain ⟨flags, size, rest, rfl, h⟩ := h
  exact ⟨flags, size, rest ++ more, by simp, h⟩

theorem LongHeader.mono {s s' : List UInt8} (h : LongHeader P s) (hp : s <+: s') : LongHeader P s' := by
  obtain ⟨more, rfl⟩ := hp
  exact h.append more

/-- Whether a long header is bad depends on its size. -/
theorem badHeader_long (tgt : Target) (cap : Nat) {s : List UInt8} (h : LongHeader P s) :
    ∃ n, P n ∧ n < 2 ^ 64 ∧ badHeader tgt cap s = decide (cap < tgt.cast n) := by
  obtain ⟨flags, size, rest, rfl, hok, hlong, hlen, hP⟩ := h
  refine ⟨beNat size, hP, ?_, ?_⟩
  · have := beNat_lt size
    rwa [hlen] at this
  · rw [FrameDecoder.badHeader_full tgt cap rest hok (by rw [hlong]; exact hlen), FrameDecoder.bodyLen, hlong, if_pos rfl]

/-- On a 64-bit target, a size beyond the capacity is bad. -/
theorem badHeader_oversize (h64 : t64.width = .w64) (hP : ∀ n, P n → cap < n) {s : List UInt8} (h : LongHeader P s) :
    badHeader t64 cap s = true := by
  obtain ⟨n, hn, hlt, hbad⟩ := badHeader_long t64 cap h
  have hcast : t64.cast n = n := by
    apply Target.cast_of_lt
    rw [Target.size_w64 (by simp [h64])]
    exact hlt
  rw [hbad, hcast, decide_eq_true (hP n hn)]

/-- On a 32-bit target, a truncated size is not bad. -/
theorem badHeader_truncated (h32 : t32.width = .w32) {s : List UInt8} (h : LongHeader (Truncated cap) s) :
    badHeader t32 cap s = false := by
  obtain ⟨n, hn, _, hbad⟩ := badHeader_long t32 cap h
  rw [hbad, Target.cast, Target.size_w32 h32]
  exact decide_eq_false (Nat.not_lt.mpr hn.2)

/-- A header that is bad in a part of a stream is complete in that part. -/
theorem LongHeader.of_badHeader {tgt : Target} {v s : List UInt8} (h : LongHeader P s) (hp : v <+: s)
    (hbad : badHeader tgt cap v = true) : LongHeader P v := by
  obtain ⟨flags, size, rest, rfl, hok, hlong, hlen, hP⟩ := h
  cases v with
  | nil => cases hbad
  | cons flags' v =>
    rw [List.cons_prefix_cons] at hp
    obtain ⟨rfl, hp⟩ := hp
    have hle : 8 ≤ v.length := by
      by_contra hlt
      rw [FrameDecoder.badHeader_short hok (by rw [hlong]; exact Nat.not_le.mp hlt)] at hbad
      cases hbad
    obtain ⟨rest', rfl⟩ := List.prefix_of_prefix_length_le (List.prefix_append size rest) hp (by omega)
    exact ⟨flags', size, rest', rfl, hok, hlong, hlen, hP⟩

/-- The first frame of a stream with an oversized header further on. -/
theorem longBehind_wire (h64 : t64.width = .w64) (hP : ∀ n, P n → cap < n) {wire rest : List UInt8} {f : DecodedFrame}
    (hw : IsWire t64 wire f) (hc : f.body.length ≤ cap) (fs : List DecodedFrame) :
    LongBehind t64 cap P fs (wire ++ rest) ↔ ∃ fs', fs = f :: fs' ∧ LongBehind t64 cap P fs' rest := by
  constructor
  · rintro ⟨wires, tail, he, hs, hh⟩
    cases hs with
    | nil =>
      rw [List.nil_append] at he
      rw [← he] at hh
      have := badHeader_oversize h64 hP hh
      rw [FrameDecoder.badHeader_of_isWire hw hc] at this
      cases this
    | @cons wire' s f' fs' hw' _ hs' =>
      rw [List.append_assoc] at he
      obtain ⟨rfl, rfl⟩ :=
        FrameDecoder.isWire_first hw hw' (he ▸ List.prefix_append wire rest) (List.prefix_append wire' (s ++ tail))
      exact ⟨fs', rfl, s, tail, List.append_cancel_left he, hs', hh⟩
  · rintro ⟨fs', rfl, wires, tail, rfl, hs, hh⟩
    exact ⟨wire ++ wires, tail, (List.append_assoc _ _ _).symm, .cons hw hc hs, hh⟩

/-- The first frames of a stream with an oversized header further on. -/
theorem longBehind_stream (h64 : t64.width = .w64) (hP : ∀ n, P n → cap < n) {wires : List UInt8} {gs : List DecodedFrame}
    (hs : IsStream t64 cap wires gs) (rest : List UInt8) (fs : List DecodedFrame) :
    LongBehind t64 cap P fs (wires ++ rest) ↔ ∃ fs', fs = gs ++ fs' ∧ LongBehind t64 cap P fs' rest := by
  induction hs generalizing fs with
  | nil => simp
  | @cons wire s f gs hw hc _ ih =>
    rw [List.append_assoc, longBehind_wire h64 hP hw hc]
    constructor
    · rintro ⟨fs', rfl, h⟩
      obtain ⟨gs', rfl, h'⟩ := (ih fs').mp h
      exact ⟨gs', rfl, h'⟩
    · rintro ⟨fs', rfl, h⟩
      exact ⟨gs ++ fs', rfl, (ih _).mpr ⟨fs', rfl, h⟩⟩

/-- Behind a bad header there is no frame: the oversized header is the bad one. -/
theorem longBehind_of_badHeader {v s : List UInt8} (hp : v <+: s) (hbad : badHeader t64 cap v = true)
    {fs : List DecodedFrame} (h : LongBehind t64 cap P fs s) : fs = [] ∧ LongHeader P v := by
  obtain ⟨wires, rest, rfl, hs, hh⟩ := h
  cases hs with
  | nil =>
    rw [List.nil_append] at hp
    exact ⟨rfl, hh.of_badHeader hp hbad⟩
  | cons hw hc _ =>
    have := FrameDecoder.badHeader_mono hp hbad
    rw [List.append_assoc, FrameDecoder.badHeader_of_isWire hw hc] at this
    cases this

/-- No oversized header is hidden in a frame in progress. -/
theorem not_longBehind_of_pending (h64 : t64.width = .w64) (hP : ∀ n, P n → cap < n) {d : FrameDecoder cap}
    {u : List UInt8} (hi : d.Inv) (hp : Pending t64 d u) (fs : List DecodedFrame) : ¬LongBehind t64 cap P fs u := by
  rintro ⟨wires, rest, rfl, hs, hh⟩
  cases hs with
  | nil =>
    have := badHeader_oversize h64 hP hh
    rw [List.nil_append] at hp
    rw [FrameDecoder.badHeader_of_pending hi hp] at this
    cases this
  | cons hw _ _ =>
    refine FrameDecoder.not_pending_of_isWire hi hw ?_ hp
    rw [List.append_assoc]
    exact List.prefix_append _ _

/-! ## One feed on both widths -/

namespace FrameDecoder

open Consumer

/-- A byte is answered alike on both widths, unless it completes a truncated size. -/
theorem push_widths (hcap : cap < 2 ^ 32) (h32 : t32.width = .w32) (h64 : t64.width = .w64) {d : FrameDecoder cap}
    {u : List UInt8} (hi : d.Inv) (hp : Pending t64 d u) {b : UInt8} (ht : ¬LongHeader (Truncated cap) (u ++ [b])) :
    d.push t32 b = d.push t64 b := by
  cases hs : d.state with
  | poisoned => rw [push_poisoned hs, push_poisoned hs]
  | needFlags => rw [push_needFlags hs, push_needFlags hs]
  | needBody more isCommand remaining =>
    rw [Inv, hs] at hi
    obtain ⟨buf, hc, _⟩ := copy_body hi.1 hi.2 b
    rw [push_needBody hs hi.1 hi.2 hc, push_needBody hs hi.1 hi.2 hc]
  | needSize more isCommand long sizeBuf sizePos =>
    rw [Inv, hs] at hi
    rw [Pending, hs] at hp
    obtain ⟨flags, hok, _, _, rfl, rfl⟩ := hp
    obtain ⟨sizeBuf', hc, hl⟩ := copy_size sizeBuf hi.2 b
    rw [push_needSize hs hi.2 hc, push_needSize hs hi.2 hc]
    by_cases hmore : sizePos + 1 < sizeNeeded (flagLong flags)
    · rw [if_pos hmore, if_pos hmore]
    rw [if_neg hmore, if_neg hmore]
    cases hlong : flagLong flags with
    | false => simp only [bodyLen, Bool.false_eq_true, if_false]
    | true =>
      simp only [bodyLen, if_true, Target.cast, Target.size_w32 h32, Target.size_w64 (t := t64) (by simp [h64])]
      have h8 : sizeBuf'.toList.length = 8 := sizeBuf'.toList_length
      have hlt := beNat_lt sizeBuf'.toList
      rw [h8] at hlt
      have hmod : beNat sizeBuf'.toList % 2 ^ 64 = beNat sizeBuf'.toList := Nat.mod_eq_of_lt hlt
      rw [hmod]
      rcases Nat.lt_or_ge (beNat sizeBuf'.toList) (2 ^ 32) with hsmall | hlarge
      · rw [Nat.mod_eq_of_lt hsmall]
      · -- The size is beyond the capacity on the one width, so it has to be on the other.
        have hfull : flags :: sizeBuf.toList.take sizePos ++ [b] = flags :: (sizeBuf'.toList ++ []) := by
          have h7 : sizeBuf.toList.length = 8 := sizeBuf.toList_length
          have hpos : sizePos + 1 = 8 := by
            rw [hlong] at hmore
            have := hi.2
            rw [hlong] at this
            simp only [sizeNeeded, if_true] at hmore this
            omega
          have := @take_splice_snoc sizeBuf.toList sizePos b (by omega)
          rw [← hl, hpos, List.take_of_length_le (Nat.le_of_eq h8)] at this
          rw [List.append_nil, this, List.cons_append]
        have hbig : cap < beNat sizeBuf'.toList % 2 ^ 32 := by
          by_contra hle
          exact ht ⟨flags, sizeBuf'.toList, [], hfull, hok, hlong, h8, hlarge, Nat.not_lt.mp hle⟩
        rw [if_pos hbig, if_pos (show cap < beNat sizeBuf'.toList by omega)]

/-- A feed is answered alike on both widths, unless it completes a truncated size. -/
theorem feed_widths (hcap : cap < 2 ^ 32) (h32 : t32.width = .w32) (h64 : t64.width = .w64) {d : FrameDecoder cap}
    {u : List UInt8} (hi : d.Inv) (hp : Pending t64 d u) {xs : List UInt8}
    (ht : ¬LongHeader (Truncated cap) (u ++ xs)) : d.feed t32 xs = d.feed t64 xs := by
  rw [feed_eq_offer hi, feed_eq_offer hi]
  induction xs generalizing d u with
  | nil => rfl
  | cons b rest ih =>
    have hb : ¬LongHeader (Truncated cap) (u ++ [b]) := by
      intro h
      apply ht
      have := h.append rest
      rwa [List.append_assoc] at this
    have he := push_widths hcap h32 h64 hi hp hb
    have hspec := push_spec hi hp b
    have hi' := inv_push t64 hi b
    cases hq : d.push t64 b with
    | mk d' r =>
      rw [hq] at he hspec hi'
      cases r with
      | more =>
        rw [offer_cons_more he, offer_cons_more hq]
        rw [ih hi' hspec.1 (by simpa using ht)]
      | done f => rw [offer_cons_done he, offer_cons_done hq]
      | fail e => rw [offer_cons_fail he, offer_cons_fail hq]

/-- A frame in progress is the same on both widths: the size it declares fits the capacity. -/
theorem pending_widths (hcap : cap < 2 ^ 32) (h32 : t32.width = .w32) (h64 : t64.width = .w64) {d : FrameDecoder cap}
    {u : List UInt8} (hi : d.Inv) (hp : Pending t64 d u) : Pending t32 d u := by
  cases hs : d.state with
  | poisoned =>
    rw [Pending, hs] at hp
    exact hp.elim
  | needFlags =>
    rw [Pending, hs] at hp ⊢
    exact hp
  | needSize more isCommand long sizeBuf sizePos =>
    rw [Pending, hs] at hp ⊢
    exact hp
  | needBody more isCommand remaining =>
    rw [Inv, hs] at hi
    rw [Pending, hs] at hp ⊢
    obtain ⟨flags, size, hok, hsl, hm, hc, hu, hbl⟩ := hp
    refine ⟨flags, size, hok, hsl, hm, hc, hu, ?_⟩
    cases hlong : flagLong flags with
    | false =>
      rw [hlong] at hbl
      exact hbl
    | true =>
      rw [hlong] at hbl hsl
      simp only [bodyLen, if_true, Target.cast, Target.size_w32 h32, Target.size_w64 (t := t64) (by simp [h64])] at hbl ⊢
      have hlt := beNat_lt size
      simp only [sizeNeeded, if_true] at hsl
      rw [hsl] at hlt
      have hmod : beNat size % 2 ^ 64 = beNat size := Nat.mod_eq_of_lt hlt
      rw [hmod] at hbl
      rw [Nat.mod_eq_of_lt (by have := hi.2; omega), hbl]

/-- A feed that completes a truncated size errs on a 64-bit target only. -/
theorem feed_truncated (hcap : cap < 2 ^ 32) (h32 : t32.width = .w32) (h64 : t64.width = .w64) {d : FrameDecoder cap}
    {u : List UInt8} (hi : d.Inv) (hp : Pending t64 d u) {xs : List UInt8} (ht : LongHeader (Truncated cap) (u ++ xs)) :
    (∃ d' e, d.feed t64 xs = (d', .error e)) ∧ ∃ d' r, d.feed t32 xs = (d', .ok r) := by
  have hP : ∀ n, Truncated cap n → cap < n := fun n hn => Nat.lt_of_lt_of_le hcap hn.1
  have hbad64 := badHeader_oversize h64 hP ht
  constructor
  · rcases feed_spec t64 hi hp xs with ⟨_, _, _, _, hgood⟩ | ⟨_, n, f, _, _, _, _, _, hw, hc⟩ | ⟨d', e, ho, _⟩
    · have hne : xs ≠ [] := by
        rintro rfl
        rw [List.append_nil, badHeader_of_pending hi hp] at hbad64
        cases hbad64
      rw [hgood hne] at hbad64
      cases hbad64
    · have := badHeader_of_isWire hw hc (xs.drop n)
      rw [List.append_assoc, List.take_append_drop, hbad64] at this
      cases this
    · exact ⟨d', _, ho⟩
  · rcases feed_spec t32 hi (pending_widths hcap h32 h64 hi hp) xs with ⟨d', ho, _⟩ | ⟨d', n, f, ho, _⟩ |
      ⟨_, _, _, _, _, n, _, _, hbad⟩
    · exact ⟨d', _, ho⟩
    · exact ⟨d', _, ho⟩
    · have hmono := badHeader_mono ((List.prefix_append_right_inj u).mpr (List.take_prefix n xs)) (breaks_bad hbad)
      rw [badHeader_truncated h32 ht] at hmono
      cases hmono

/-! ## A piece of a stream -/

/-- What feeding a piece of a stream does: it reads some frames and a part of the next, or it reads some frames and comes
upon a bad header. The induction is on the fuel, along the frames. -/
theorem feedAll_spec (tgt : Target) (fuel : Nat) : ∀ {d : FrameDecoder cap} {u : List UInt8} (xs : List UInt8), d.Inv →
    Pending tgt d u → xs.length < fuel → ∃ wires rest fs, u ++ xs = wires ++ rest ∧ IsStream tgt cap wires fs ∧
      delivered (feedAll tgt fuel d xs).2 = fs ∧
      ((Pending tgt (feedAll tgt fuel d xs).1 rest ∧ (feedAll tgt fuel d xs).1.Inv) ∨
        (feedAll tgt fuel d xs).1.state = .poisoned ∧ badHeader tgt cap rest = true ∧
          (flagsOk (rest.headD 0) = true → .error (.err .bodyTooLarge) ∈ (feedAll tgt fuel d xs).2)) := by
  induction fuel with
  | zero => intro d u xs _ _ h; omega
  | succ fuel ih =>
    intro d u xs hi hp hlen
    rcases feed_spec tgt hi hp xs with ⟨d', ho, h1, h2, _⟩ | ⟨d', n, f, ho, h1, h2, hpos, hn, hw, hc⟩ |
      ⟨d', e, ho, h1, h2, n, _, hn, hbad⟩
    · rw [feedAll_last ho (Nat.le_refl _)]
      exact ⟨[], u ++ xs, [], rfl, .nil, rfl, .inl ⟨h2, h1⟩⟩
    · have hsplit : u ++ xs = u ++ xs.take n ++ xs.drop n := by rw [List.append_assoc, List.take_append_drop]
      by_cases hle : xs.length ≤ n
      · rw [feedAll_last ho hle]
        refine ⟨u ++ xs.take n ++ [], xs.drop n, [f], by rw [List.append_nil, hsplit], .cons hw hc .nil, rfl, .inl ⟨?_, h1⟩⟩
        rw [List.drop_of_length_le hle]
        exact pending_needFlags h2
      · rw [feedAll_next ho hle]
        obtain ⟨wires, rest, fs, hr, hs, hd, hend⟩ := ih (xs.drop n) h1 (pending_needFlags h2)
          (by rw [List.length_drop]; omega)
        refine ⟨u ++ xs.take n ++ wires, rest, f :: fs, ?_, .cons hw hc hs, ?_, ?_⟩
        · rw [List.append_assoc, ← hr, List.nil_append, hsplit]
        · rw [← hd]
          rfl
        · rcases hend with hend | ⟨h3, h4, h5⟩
          · exact .inl hend
          · exact .inr ⟨h3, h4, fun hok => List.mem_cons_of_mem _ (h5 hok)⟩
    · rw [feedAll_error ho]
      have hpre := (List.prefix_append_right_inj u).mpr (List.take_prefix n xs)
      refine ⟨[], u ++ xs, [], rfl, .nil, rfl, .inr ⟨h2, badHeader_mono hpre (breaks_bad hbad), ?_⟩⟩
      intro hok
      rw [breaks_size hbad hpre hok]
      exact List.mem_singleton_self _

/-- A piece is answered alike on both widths exactly when no size in it is truncated. Where one is, the 64-bit target
answers with an error at the place where the 32-bit target goes on. -/
theorem feedAll_widths (hcap : cap < 2 ^ 32) (h32 : t32.width = .w32) (h64 : t64.width = .w64) (fuel : Nat) :
    ∀ {d : FrameDecoder cap} {u : List UInt8} (xs : List UInt8), d.Inv → Pending t64 d u → xs.length < fuel →
      (feedAll t32 fuel d xs = feedAll t64 fuel d xs ∧ ¬Truncates t64 cap (u ++ xs)) ∨
      (Truncates t64 cap (u ++ xs) ∧ ∃ pre r e l, (feedAll t32 fuel d xs).2 = pre ++ .ok r :: l ∧
        (feedAll t64 fuel d xs).2 = pre ++ [.error e]) := by
  have hP : ∀ n, Truncated cap n → cap < n := fun n hn => Nat.lt_of_lt_of_le hcap hn.1
  induction fuel with
  | zero => intro d u xs _ _ h; omega
  | succ fuel ih =>
    intro d u xs hi hp hlen
    by_cases ht : LongHeader (Truncated cap) (u ++ xs)
    · obtain ⟨⟨d1, e, h1⟩, d2, r, h2⟩ := feed_truncated hcap h32 h64 hi hp ht
      refine .inr ⟨⟨[], [], u ++ xs, rfl, .nil, ht⟩, [], r, e, ?_⟩
      rw [feedAll_error h1]
      by_cases hle : xs.length ≤ r.1
      · exact ⟨[], by rw [feedAll_last h2 hle]; rfl, rfl⟩
      · exact ⟨_, by rw [feedAll_next h2 hle]; rfl, rfl⟩
    · have hsame := feed_widths hcap h32 h64 hi hp ht
      rcases feed_spec t64 hi hp xs with ⟨d', ho, h1, h2, _⟩ | ⟨d', n, f, ho, h1, h2, hpos, hn, hw, hc⟩ |
        ⟨d', e, ho, _, _, n, _, _, hbad⟩
      · rw [feedAll_last ho (Nat.le_refl _), feedAll_last (hsame.trans ho) (Nat.le_refl _)]
        exact .inl ⟨rfl, fun ⟨fs, h⟩ => not_longBehind_of_pending h64 hP h1 h2 fs h⟩
      · have hsplit : u ++ xs = u ++ xs.take n ++ xs.drop n := by rw [List.append_assoc, List.take_append_drop]
        have htrunc : Truncates t64 cap (u ++ xs) ↔ Truncates t64 cap (xs.drop n) := by
          rw [hsplit]
          constructor
          · rintro ⟨fs, h⟩
            obtain ⟨fs', _, h'⟩ := (longBehind_wire h64 hP hw hc fs).mp h
            exact ⟨fs', h'⟩
          · rintro ⟨fs, h⟩
            exact ⟨f :: fs, (longBehind_wire h64 hP hw hc _).mpr ⟨fs, rfl, h⟩⟩
        rw [htrunc]
        by_cases hle : xs.length ≤ n
        · rw [feedAll_last ho hle, feedAll_last (hsame.trans ho) hle, List.drop_of_length_le hle]
          exact .inl ⟨rfl, fun ⟨fs, h⟩ => not_longBehind_of_pending h64 hP h1 (pending_needFlags h2) fs h⟩
        · rw [feedAll_next ho hle, feedAll_next (hsame.trans ho) hle]
          have := ih (xs.drop n) h1 (pending_needFlags h2) (by rw [List.length_drop]; omega)
          rw [List.nil_append] at this
          rcases this with ⟨heq, hno⟩ | ⟨hyes, pre, r, e, l, hl, hl'⟩
          · exact .inl ⟨by rw [heq], hno⟩
          · exact .inr ⟨hyes, .ok (n, some f) :: pre, r, e, l, by rw [hl]; rfl, by rw [hl']; rfl⟩
      · rw [feedAll_error ho, feedAll_error (hsame.trans ho)]
        refine .inl ⟨rfl, ?_⟩
        rintro ⟨fs, h⟩
        have hpre := (List.prefix_append_right_inj u).mpr (List.take_prefix n xs)
        exact ht ((longBehind_of_badHeader hpre (breaks_bad hbad) h).2.mono hpre)

/-! ## The pieces of a stream -/

/-- A poisoned decoder delivers nothing, and answers alike on every target. -/
theorem feedChunks_poisoned (tgt tgt' : Target) {d : FrameDecoder cap} (h : d.state = .poisoned) (cs : List (List UInt8)) :
    feedChunks tgt d cs = feedChunks tgt' d cs ∧ delivered (feedChunks tgt d cs) = [] := by
  have hfeed : ∀ (t : Target) (c : List UInt8), feedAll t (c.length + 1) d c =
      (d, [if c = [] then .ok (0, none) else .error (.err .reservedFlagBits)]) := by
    intro t c
    have hf : d.feed t c = _ := feed_poisoned h c
    by_cases hc : c = []
    · rw [if_pos hc] at hf ⊢
      exact feedAll_last hf (by simp [hc]) _
    · rw [if_neg hc] at hf ⊢
      exact feedAll_error hf _
  induction cs with
  | nil => exact ⟨rfl, rfl⟩
  | cons c cs ih =>
    simp only [feedChunks, hfeed]
    refine ⟨by rw [ih.1], ?_⟩
    rw [delivered, List.filterMap_append]
    split <;> exact ih.2

/-- The answers to a stream are the same on both widths exactly when it truncates no size. -/
theorem feedChunks_widths (hcap : cap < 2 ^ 32) (h32 : t32.width = .w32) (h64 : t64.width = .w64)
    (cs : List (List UInt8)) : ∀ {d : FrameDecoder cap} {u : List UInt8}, d.Inv → Pending t64 d u →
      (feedChunks t32 d cs = feedChunks t64 d cs ↔ ¬Truncates t64 cap (u ++ cs.flatten)) := by
  have hP : ∀ n, Truncated cap n → cap < n := fun n hn => Nat.lt_of_lt_of_le hcap hn.1
  induction cs with
  | nil =>
    intro d u hi hp
    rw [List.flatten_nil, List.append_nil]
    exact iff_of_true rfl fun ⟨fs, h⟩ => not_longBehind_of_pending h64 hP hi hp fs h
  | cons c cs ih =>
    intro d u hi hp
    rw [List.flatten_cons, ← List.append_assoc]
    simp only [feedChunks]
    rcases feedAll_widths hcap h32 h64 (c.length + 1) c hi hp (Nat.lt_succ_self _) with ⟨heq, hno⟩ |
      ⟨⟨fs, wires, rest, hsplit, hs, hh⟩, pre, r, e, l, hl, hl'⟩
    · rw [heq, List.append_cancel_left_eq]
      obtain ⟨wires, rest, fs, hsplit, hs, _, ⟨hp', hi'⟩ | ⟨hpo, hbad, _⟩⟩ :=
        feedAll_spec t64 (c.length + 1) c hi hp (Nat.lt_succ_self _)
      · rw [ih hi' hp', hsplit, List.append_assoc]
        apply not_congr
        constructor
        · rintro ⟨gs, h⟩
          exact ⟨fs ++ gs, (longBehind_stream h64 hP hs _ _).mpr ⟨gs, rfl, h⟩⟩
        · rintro ⟨gs, h⟩
          obtain ⟨gs', _, h'⟩ := (longBehind_stream h64 hP hs _ _).mp h
          exact ⟨gs', h'⟩
      · refine iff_of_true (feedChunks_poisoned t32 t64 hpo cs).1 ?_
        rintro ⟨gs, h⟩
        rw [hsplit, List.append_assoc] at h
        obtain ⟨gs', _, h'⟩ := (longBehind_stream h64 hP hs _ _).mp h
        have hh := (longBehind_of_badHeader (List.prefix_append rest cs.flatten) hbad h').2
        exact hno ⟨fs, wires, rest, hsplit, hs, hh⟩
    · refine iff_of_false ?_ (not_not_intro ?_)
      · intro heq
        rw [hl, hl', List.append_assoc, List.append_assoc, List.append_cancel_left_eq] at heq
        cases heq
      · rw [hsplit, List.append_assoc]
        exact ⟨fs, wires, rest ++ cs.flatten, rfl, hs, hh.append _⟩

/-- On a 64-bit target a header whose size exceeds the capacity is rejected, and nothing is delivered behind it. -/
theorem feedChunks_oversize (h64 : t64.width = .w64) (cs : List (List UInt8)) : ∀ {d : FrameDecoder cap} {u : List UInt8},
    d.Inv → Pending t64 d u → RejectsOversize t64 cap (u ++ cs.flatten) (feedChunks t64 d cs) := by
  induction cs with
  | nil =>
    intro d u hi hp gs h
    rw [List.flatten_nil, List.append_nil] at h
    exact absurd h (not_longBehind_of_pending h64 (fun _ h => h) hi hp gs)
  | cons c cs ih =>
    intro d u hi hp gs h
    rw [List.flatten_cons, ← List.append_assoc] at h
    obtain ⟨wires, rest, fs, hsplit, hs, hd, hend⟩ := feedAll_spec t64 (c.length + 1) c hi hp (Nat.lt_succ_self _)
    rw [hsplit, List.append_assoc] at h
    obtain ⟨gs', rfl, h'⟩ := (longBehind_stream h64 (fun _ h => h) hs _ _).mp h
    simp only [feedChunks, delivered, List.filterMap_append, List.mem_append]
    rw [show ((feedAll t64 (c.length + 1) d c).2.filterMap _) = fs from hd]
    rcases hend with ⟨hp', hi'⟩ | ⟨hpo, hbad, hmem⟩
    · obtain ⟨h1, h2⟩ := ih hi' hp' gs' h'
      exact ⟨congrArg (fs ++ ·) h1, .inr h2⟩
    · obtain ⟨rfl, hh⟩ := longBehind_of_badHeader (List.prefix_append rest cs.flatten) hbad h'
      refine ⟨congrArg (fs ++ ·) (feedChunks_poisoned t64 t64 hpo cs).2, .inl (hmem ?_)⟩
      obtain ⟨flags, size, tail, rfl, hok, _⟩ := hh
      exact hok

end FrameDecoder

/-- The decoder answers alike on both widths and rejects every oversized frame, for every cut of a stream, exactly when the
stream truncates no size. -/
theorem frame_size_width_independent_iff (checks checks' : Bool) (cap : Nat) (hcap : cap < 2 ^ 32) (cs : List (List UInt8)) :
    ((FrameDecoder.new : FrameDecoder cap).feedChunks ⟨.w32, checks⟩ cs =
        (FrameDecoder.new : FrameDecoder cap).feedChunks ⟨.w64, checks'⟩ cs ∧
      ∀ tgt ∈ [(⟨.w32, checks⟩ : Target), ⟨.w64, checks'⟩], RejectsOversize ⟨.w64, checks'⟩ cap cs.flatten
        ((FrameDecoder.new : FrameDecoder cap).feedChunks tgt cs)) ↔
      ¬Truncates ⟨.w64, checks'⟩ cap cs.flatten := by
  have hinv : (FrameDecoder.new : FrameDecoder cap).Inv := FrameDecoder.inv_new
  have hwidths : _ = (FrameDecoder.new : FrameDecoder cap).feedChunks ⟨.w64, checks'⟩ cs ↔ _ :=
    FrameDecoder.feedChunks_widths hcap (rfl : (⟨.w32, checks⟩ : Target).width = .w32) rfl cs hinv FrameDecoder.pending_new
  have hover : RejectsOversize ⟨.w64, checks'⟩ cap _ _ :=
    FrameDecoder.feedChunks_oversize rfl cs hinv FrameDecoder.pending_new
  rw [List.nil_append] at hwidths hover
  constructor
  · rintro ⟨heq, _⟩
    exact hwidths.mp heq
  · intro hno
    have heq := hwidths.mpr hno
    refine ⟨heq, ?_⟩
    intro tgt htgt
    simp only [List.mem_cons, List.not_mem_nil, or_false] at htgt
    rcases htgt with rfl | rfl
    · rw [heq]
      exact hover
    · exact hover

/-- A long frame that declares 2^32 + 3 bytes, in two pieces. -/
def truncatedStream : List (List UInt8) := [[0x02, 0, 0, 0, 1], [0, 0, 0, 3, 0x41, 0x42, 0x43]]

theorem truncatedStream_differs : (FrameDecoder.new : FrameDecoder 4).feedChunks ⟨.w32, false⟩ truncatedStream ≠
    (FrameDecoder.new : FrameDecoder 4).feedChunks ⟨.w64, false⟩ truncatedStream := by
  decide +kernel

/-- The 32-bit decoder delivers a frame of three bytes where the 64-bit decoder rejects the header. -/
theorem frame_size_depends_on_width : ¬∀ cap, cap < 2 ^ 32 → ∀ cs,
    (FrameDecoder.new : FrameDecoder cap).feedChunks ⟨.w32, false⟩ cs =
      (FrameDecoder.new : FrameDecoder cap).feedChunks ⟨.w64, false⟩ cs := by
  intro hall
  exact truncatedStream_differs (hall 4 (by decide) truncatedStream)

/-- The condition finds the truncated size. -/
theorem frame_size_width_independent_iff_truncated : Truncates ⟨.w64, false⟩ 4 truncatedStream.flatten := by
  by_contra hno
  exact truncatedStream_differs ((frame_size_width_independent_iff false false 4 (by decide) truncatedStream).mpr hno).1

end Mzmq
