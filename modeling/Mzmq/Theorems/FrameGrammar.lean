import Mzmq.Lemmas.Wire
import Mzmq.Lib.Run

/-!
# The decoder implements the frame grammar

A caller feeds a decoder some of the bytes of a stream that stand behind the consumed ones, call by call, in whatever pieces.
The frames that it gets are the frames of the longest part of the stream that is a concatenation of frames. The bytes behind
them are the beginning of a frame, or they break the rules for a header, and the call that comes upon the byte at which they
do errs.
-/

namespace Mzmq
namespace FrameDecoder

open Checked Consumer

variable {cap : Nat} {tgt : Target}

/-- A feed that panics ends the process. -/
def halts : Fed → Bool
  | .error f => f.aborts
  | .ok _ => false

/-- A feed returned an error. -/
def errs : Fed → Bool
  | .error _ => true
  | .ok _ => false

/-- One call in a run. -/
abbrev FeedCall (cap : Nat) := Run.Event (FrameDecoder cap) (List UInt8) Fed

/-- `d` is where a fresh decoder is after the calls `h`. -/
abbrev FeedRun (tgt : Target) (h : List (FeedCall cap)) (d : FrameDecoder cap) : Prop := Run.Runs (feed tgt) halts new h d

/-- The bytes that a call has consumed. -/
def consumedBy (ev : FeedCall cap) : List UInt8 :=
  match ev.res with
  | .ok (n, _) => ev.op.take n
  | .error _ => []

/-- The bytes that were consumed. -/
def consumedOf (h : List (FeedCall cap)) : List UInt8 := h.flatMap consumedBy

/-- What the calls answered. -/
def answers (h : List (FeedCall cap)) : List Fed := h.map (·.res)

/-- Every call, up to the first that errs, is given bytes of `s` that stand behind the consumed ones. -/
def Follows : List UInt8 → List (FeedCall cap) → Prop
  | _, [] => True
  | s, ev :: h => ev.op <+: s ∧ (errs ev.res = false → Follows (s.drop (consumedBy ev).length) h)

/-- All of `s` was fed: it is consumed, or a call has returned an error. -/
def FedAll (s : List UInt8) (h : List (FeedCall cap)) : Prop := consumedOf h = s ∨ ∃ ev ∈ h, errs ev.res = true

/-- The first call that errs is the one that is given the last byte of `wires ++ v`, and it returns `e`. -/
def ErrsAt (wires v : List UInt8) (e : DecodeError) (h : List (FeedCall cap)) : Prop :=
  ∃ h1 ev h2, h = h1 ++ ev :: h2 ∧ (∀ ev' ∈ h1, errs ev'.res = false) ∧ ev.res = .error (.err e) ∧
    (consumedOf h1).length < (wires ++ v).length ∧ wires ++ v <+: consumedOf h1 ++ ev.op

/-! ## Histories -/

theorem consumedOf_snoc (h : List (FeedCall cap)) (ev : FeedCall cap) : consumedOf (h ++ [ev]) = consumedOf h ++ consumedBy ev := by
  simp [consumedOf]

theorem delivered_snoc (h : List (FeedCall cap)) (ev : FeedCall cap) :
    delivered (answers (h ++ [ev])) = delivered (answers h) ++ delivered [ev.res] := by
  simp [delivered, answers]

/-- What a call that follows a stream is given. -/
theorem Follows.op {s : List UInt8} {h1 h2 : List (FeedCall cap)} {ev : FeedCall cap} (hs : Follows s (h1 ++ ev :: h2))
    (hfine : ∀ ev' ∈ h1, errs ev'.res = false) : consumedOf h1 ++ ev.op <+: s := by
  induction h1 generalizing s with
  | nil => exact hs.1
  | cons ev1 h1 ih =>
    obtain ⟨hp, hrest⟩ := hs
    have hih := ih (hrest (hfine ev1 List.mem_cons_self)) fun ev' hev' => hfine ev' (List.mem_cons_of_mem _ hev')
    have hc : consumedBy ev1 <+: s := by
      refine List.IsPrefix.trans ?_ hp
      unfold consumedBy
      split
      · exact List.take_prefix _ _
      · exact List.nil_prefix
    obtain ⟨t, rfl⟩ := hc
    rw [List.drop_left] at hih
    rw [consumedOf, List.flatMap_cons, List.append_assoc, List.prefix_append_right_inj]
    exact hih

theorem ErrsAt.snoc {wires v : List UInt8} {e : DecodeError} {h : List (FeedCall cap)} (he : ErrsAt wires v e h)
    (ev : FeedCall cap) : ErrsAt wires v e (h ++ [ev]) := by
  obtain ⟨h1, ev1, h2, rfl, hrest⟩ := he
  exact ⟨h1, ev1, h2 ++ [ev], by simp, hrest⟩

/-! ## The invariant -/

/-- No call has erred: the frames were read from the consumed bytes, and the decoder is in the middle of the next. -/
structure Reading (tgt : Target) (h : List (FeedCall cap)) (d : FrameDecoder cap) (wires rest : List UInt8) : Prop where
  consumed : consumedOf h = wires ++ rest
  stream : IsStream tgt cap wires (delivered (answers h))
  inv : d.Inv
  pending : Pending tgt d rest
  fine : ∀ ev ∈ h, errs ev.res = false

/-- A call has erred: the frames were read from `wires`, and `v` stood behind them. -/
structure Broken (tgt : Target) (h : List (FeedCall cap)) (d : FrameDecoder cap) (wires v : List UInt8) (e : DecodeError) :
    Prop where
  stream : IsStream tgt cap wires (delivered (answers h))
  inv : d.Inv
  poisoned : d.state = .poisoned
  breaks : Breaks tgt cap v e
  place : ErrsAt wires v e h

/-- A call behind calls that did not err. -/
theorem Reading.step {h : List (FeedCall cap)} {d : FrameDecoder cap} {wires rest : List UInt8} (r : Reading tgt h d wires rest)
    (input : List UInt8) :
    (∃ wires' rest', Reading tgt (h ++ [⟨d, input, (d.feed tgt input).2, (d.feed tgt input).1⟩]) (d.feed tgt input).1
      wires' rest') ∨
    ∃ v e, Broken tgt (h ++ [⟨d, input, (d.feed tgt input).2, (d.feed tgt input).1⟩]) (d.feed tgt input).1 wires v e := by
  have hfine : ∀ {ev : FeedCall cap}, errs ev.res = false → ∀ ev' ∈ h ++ [ev], errs ev'.res = false := by
    intro ev hev ev' hev'
    rcases List.mem_append.mp hev' with hm | hm
    · exact r.fine ev' hm
    · rw [List.mem_singleton] at hm
      rw [hm]
      exact hev
  rcases feed_spec tgt r.inv r.pending input with ⟨d', ho, h1, h2, _⟩ | ⟨d', n, f, ho, h1, h2, _, hn, hw, hc⟩ |
    ⟨d', e, ho, h1, h2, n, hpos, hn, hb⟩
  · rw [ho]
    refine .inl ⟨wires, rest ++ input, ?_, ?_, h1, h2, hfine rfl⟩
    · simp only [consumedOf_snoc, r.consumed, consumedBy, List.take_length, List.append_assoc]
    · rw [delivered_snoc]
      simpa [delivered] using r.stream
  · rw [ho]
    refine .inl ⟨wires ++ (rest ++ input.take n), [], ?_, ?_, h1, pending_needFlags h2, hfine rfl⟩
    · rw [consumedOf_snoc, r.consumed, consumedBy, List.append_nil, List.append_assoc]
    · have hone : IsStream tgt cap (rest ++ input.take n) [f] := by
        have := IsStream.cons hw hc .nil
        rwa [List.append_nil] at this
      rw [delivered_snoc]
      exact isStream_append r.stream hone
  · rw [ho]
    refine .inr ⟨rest ++ input.take n, e, ?_, h1, h2, hb, h, _, [], rfl, r.fine, rfl, ?_, ?_⟩
    · rw [delivered_snoc]
      simpa [delivered] using r.stream
    · simp only [r.consumed, List.length_append, List.length_take]
      omega
    · rw [r.consumed, ← List.append_assoc, List.prefix_append_right_inj]
      exact List.take_prefix n input

/-- A call behind one that erred. -/
theorem Broken.step {h : List (FeedCall cap)} {d : FrameDecoder cap} {wires v : List UInt8} {e : DecodeError}
    (b : Broken tgt h d wires v e) (input : List UInt8) :
    Broken tgt (h ++ [⟨d, input, (d.feed tgt input).2, (d.feed tgt input).1⟩]) (d.feed tgt input).1 wires v e := by
  have hf : d.feed tgt input = _ := feed_poisoned b.poisoned input
  have hstay : (d.feed tgt input).1 = d ∧ delivered [(d.feed tgt input).2] = [] := by
    rw [hf]
    split <;> exact ⟨rfl, rfl⟩
  rw [hstay.1]
  refine ⟨?_, b.inv, b.poisoned, b.breaks, b.place.snoc _⟩
  rw [delivered_snoc, hstay.2, List.append_nil]
  exact b.stream

/-- Every run is in the middle of a frame, or it has come upon a header that breaks the rules. -/
theorem FeedRun.reading {h : List (FeedCall cap)} {d : FrameDecoder cap} (hr : FeedRun tgt h d) :
    (∃ wires rest, Reading tgt h d wires rest) ∨ ∃ wires v e, Broken tgt h d wires v e := by
  refine hr.invariant (fun h d => (∃ wires rest, Reading tgt h d wires rest) ∨ ∃ wires v e, Broken tgt h d wires v e) ?_ ?_
  · exact .inl ⟨[], [], rfl, .nil, inv_new, pending_new, by simp⟩
  · rintro h d input _ (⟨wires, rest, r⟩ | ⟨wires, v, e, b⟩)
    · rcases r.step input with hread | ⟨v, e, b⟩
      · exact .inl hread
      · exact .inr ⟨wires, v, e, b⟩
    · exact .inr ⟨wires, v, e, b.step input⟩

/-- The decoder of every call keeps its invariant. -/
theorem FeedRun.inv {h : List (FeedCall cap)} {d : FrameDecoder cap} (hr : FeedRun tgt h d) : d.Inv := by
  rcases hr.reading with ⟨_, _, r⟩ | ⟨_, _, _, b⟩
  · exact r.inv
  · exact b.inv

/-- No call panics. -/
theorem FeedRun.returns {h : List (FeedCall cap)} {d : FrameDecoder cap} (hr : FeedRun tgt h d) {ev : FeedCall cap}
    (hev : ev ∈ h) : halts ev.res = false := by
  obtain ⟨hstep, _, h', hr', _⟩ := hr.event ev hev
  rw [hstep]
  rcases FeedRun.reading hr' with ⟨_, _, r⟩ | ⟨_, _, _, b⟩
  · rcases feed_spec tgt r.inv r.pending ev.op with ⟨_, ho, _⟩ | ⟨_, _, _, ho, _⟩ | ⟨_, _, ho, _⟩ <;> rw [ho] <;> rfl
  · have hf : ev.pre.feed tgt ev.op = _ := feed_poisoned b.poisoned ev.op
    rw [hf]
    split <;> rfl

/-- A call that returns no frame has consumed all its input, and a call that returns on some input has consumed some. -/
theorem FeedRun.consumes {h : List (FeedCall cap)} {d : FrameDecoder cap} (hr : FeedRun tgt h d) {ev : FeedCall cap}
    (hev : ev ∈ h) {n : Nat} {o : Option DecodedFrame} (hres : ev.res = .ok (n, o)) :
    n ≤ ev.op.length ∧ (o = none → n = ev.op.length) ∧ (ev.op ≠ [] → 0 < n) := by
  obtain ⟨hstep, _, h', hr', _⟩ := hr.event ev hev
  have ho : Consumer.offer (push tgt) ev.pre ev.op = ((feed tgt ev.pre ev.op).1, .ok (n, o)) := by
    rw [← feed_eq_offer (FeedRun.inv hr'), ← hres, hstep]
  exact offer_consumed ho

/-! ## The grammar -/

/-- Where a call has erred, the frames are those of the longest stream, and what stands behind them breaks the rules. -/
theorem Broken.grammar {s : List UInt8} {h : List (FeedCall cap)} {d : FrameDecoder cap} {wires v : List UInt8} {e : DecodeError}
    (b : Broken tgt h d wires v e) (hs : Follows s h) :
    ∃ rest, s = wires ++ rest ∧ v <+: rest ∧ LongestStream tgt cap s wires (delivered (answers h)) := by
  obtain ⟨h1, ev, h2, rfl, hfine, _, _, hp⟩ := b.place
  have hv := hp.trans (hs.op hfine)
  obtain ⟨rest, rfl⟩ := (List.prefix_append wires v).trans hv
  rw [List.prefix_append_right_inj] at hv
  refine ⟨rest, rfl, hv, longest_of_last b.stream ?_⟩
  intro wire f hw hc hp
  obtain ⟨tail, rfl⟩ := hp
  have hbad := badHeader_mono hv (breaks_bad b.breaks)
  rw [badHeader_of_isWire hw hc] at hbad
  cases hbad

/-- Where no call has erred, the frames of what was consumed are those of the longest stream in it. -/
theorem Reading.grammar {h : List (FeedCall cap)} {d : FrameDecoder cap} {wires rest : List UInt8}
    (r : Reading tgt h d wires rest) : LongestStream tgt cap (consumedOf h) wires (delivered (answers h)) := by
  rw [r.consumed]
  exact longest_of_last r.stream fun wire f hw _ hp => not_pending_of_isWire r.inv hw hp r.pending

end FrameDecoder

open FrameDecoder

/-- A caller that feeds a fresh decoder all of a stream, in whatever pieces, gets the frames of the longest part of it that is
a concatenation of frames. If the bytes behind them break the rules, the call that is given the byte at which they do is the
first to err, and it returns the error for that rule; otherwise no call errs, and the decoder has read those bytes as the
beginning of a frame. -/
theorem decoder_implements_grammar (checks : Bool) (cap : Nat) (s : List UInt8) (h : List (FeedCall cap)) (d : FrameDecoder cap)
    (hr : FeedRun ⟨.w64, checks⟩ h d) (hs : Follows s h) (hall : FedAll s h) :
    (∃ wires rest, s = wires ++ rest ∧ LongestStream ⟨.w64, checks⟩ cap s wires (delivered (answers h)) ∧
      ((∃ v e, v <+: rest ∧ Breaks ⟨.w64, checks⟩ cap v e ∧ ErrsAt wires v e h) ∨
        (∀ v e, v <+: rest → ¬Breaks ⟨.w64, checks⟩ cap v e) ∧ (∀ ev ∈ h, errs ev.res = false) ∧
          Pending ⟨.w64, checks⟩ d rest)) ∧
    ∀ ev ∈ h, halts ev.res = false ∧ ∀ n o, ev.res = .ok (n, o) →
      n ≤ ev.op.length ∧ (o = none → n = ev.op.length) ∧ (ev.op ≠ [] → 0 < n) := by
  refine ⟨?_, fun ev hev => ⟨FeedRun.returns hr hev, fun n o hres => FeedRun.consumes hr hev hres⟩⟩
  rcases FeedRun.reading hr with ⟨wires, rest, r⟩ | ⟨wires, v, e, b⟩
  · have hconsumed : consumedOf h = s := by
      rcases hall with hc | ⟨ev, hev, herr⟩
      · exact hc
      · rw [r.fine ev hev] at herr
        cases herr
    have hlongest := r.grammar
    rw [hconsumed] at hlongest
    refine ⟨wires, rest, by rw [← hconsumed, r.consumed], hlongest, .inr ⟨?_, r.fine, r.pending⟩⟩
    intro v e hv hb
    have hbad := badHeader_mono hv (breaks_bad hb)
    rw [badHeader_of_pending r.inv r.pending] at hbad
    cases hbad
  · obtain ⟨rest, hrest, hv, hlongest⟩ := b.grammar hs
    exact ⟨wires, rest, hrest, hlongest, .inl ⟨v, e, hv, b.breaks, b.place⟩⟩

/-- A short frame, and the header of a long one that is too large for a decoder of four bytes. -/
def oversizeStream : List UInt8 := [0x01, 0x01, 0x41, 0x02, 0, 0, 0, 0, 0, 0, 0, 9]

/-- Four calls, of which the third is given again what the second has left: one frame, then the size is too large. -/
theorem decoder_implements_grammar_oversize :
    ∃ (h : List (FeedCall 4)) (d : FrameDecoder 4), FeedRun ⟨.w64, true⟩ h d ∧
      answers h = [.ok (1, none), .ok (2, some ⟨true, false, [0x41]⟩), .ok (6, none), .error (.err .bodyTooLarge)] ∧
      ∃ wires, LongestStream ⟨.w64, true⟩ 4 oversizeStream wires [⟨true, false, [0x41]⟩] := by
  have hrun : FeedRun ⟨.w64, true⟩ _ _ :=
    Run.runs_exec (new : FrameDecoder 4) [[0x01], [0x01, 0x41, 0x02, 0], [0x02, 0, 0, 0, 0, 0], [0, 0, 9]]
  refine ⟨_, _, hrun, by decide +kernel, ?_⟩
  obtain ⟨⟨wires, rest, _, hlongest, _⟩, _⟩ := decoder_implements_grammar true 4 oversizeStream _ _ hrun
    ⟨by decide +kernel, fun _ => ⟨by decide +kernel, fun _ => ⟨by decide +kernel, fun _ => ⟨by decide +kernel, fun _ => trivial⟩⟩⟩⟩
    (.inr (by decide +kernel))
  exact ⟨wires, hlongest⟩

end Mzmq
