import Mzmq.Lemmas.Wire
import Mzmq.Peer
import Mzmq.Theorems.ReadyGrammar

/-!
# The raw READY parsers against the decoder

The raw parsers read the header of a frame by themselves: a flags byte, of which they look at COMMAND alone, and one size
byte. They agree with the decoder on every frame with a short header but the empty message, and they take a buffer that the
decoder rejects, or waits on, for a READY when what one size byte counts is one (`Misread`).
-/

namespace Mzmq

open Checked FrameDecoder

/-- No object in memory is larger than `isize::MAX` bytes. -/
def isizeMax (tgt : Target) : Nat := tgt.size / 2 - 1

/-- What the raw parsers take for the frame: the COMMAND flag, and the bytes that the second byte counts. -/
def rawFrame : List UInt8 → Option (Bool × List UInt8)
  | flags :: size :: b :: rest =>
    if (b :: rest).length < size.toNat then none else some (flagCommand flags, (b :: rest).take size.toNat)
  | _ => none

/-- The socket types of the peers of both connections. -/
def peerTypes : List (List UInt8 × PeerSocketType) := [(subName, .sub), (xsubName, .xsub), (dishName, .dish)]

/-- The outcome `r` of a READY parser that knows all of these types, on what it takes for a frame: what the grammar says, or a
panic where the metadata overruns on a 32-bit target. Without a frame the metadata is malformed. -/
def ReadyOutcome (tgt : Target) : Option (Bool × List UInt8) → Res NullError PeerSocketType → Prop
  | none, r => r = .error (.err .malformedMetadata)
  | some (isCommand, body), r =>
    (tgt.width = .w32 ∧ Overrun isCommand body) ∧ r = .error .panic ∨
      ¬(tgt.width = .w32 ∧ Overrun isCommand body) ∧ ParsesReady peerTypes isCommand body r

/-- Both have one outcome. -/
def SameOutcome (tgt : Target) (x y : Option (Bool × List UInt8)) : Prop := ∃ r, ReadyOutcome tgt x r ∧ ReadyOutcome tgt y r

/-- The body of a command that some READY parser does not answer with an error: READY of a peer, or one that makes the
parser panic. -/
def Taken (tgt : Target) (body : List UInt8) : Prop :=
  (∃ t, ReadyOf peerTypes body t) ∨ tgt.width = .w32 ∧ Overrun true body

/-- The buffers that the raw parsers misread: an empty message frame and nothing else; no complete frame, where what the
second byte counts is the body of a READY; and a frame with a long header whose body is not read as that is. -/
inductive Misread (tgt : Target) : List UInt8 → Prop where
  | emptyMessage {flags : UInt8} : flagsOk flags = true → flagLong flags = false → flagCommand flags = false →
      Misread tgt [flags, 0]
  | noFrame {buf body : List UInt8} : (∀ wire f, IsWire tgt wire f → ¬wire <+: buf) → rawFrame buf = some (true, body) →
      Taken tgt body → Misread tgt buf
  | longFrame {wire rest : List UInt8} {f : DecodedFrame} : IsWire tgt wire f → flagLong (wire.headD 0) = true →
      ¬SameOutcome tgt (some (f.isCommand, f.body)) (rawFrame (wire ++ rest)) → Misread tgt (wire ++ rest)

/-- The result `fed` of feeding `buf` to a decoder agrees with what the raw parsers make of `buf`. -/
def RawAgrees (tgt : Target) (buf : List UInt8) : Fed → Prop
  | .ok (_, some f) => parseReady tgt buf = parseReadyFrom tgt f.isCommand f.body ∧
      parseReadyRadio tgt buf = parseReadyRadioFrom tgt f.isCommand f.body
  | _ => (∃ e, parseReady tgt buf = .error (.err e)) ∧ ∃ e, parseReadyRadio tgt buf = .error (.err e)

/-! ## One parser for both connections -/

section ReadyOutcome

variable {tgt : Target}

/-- The socket type of a peer of either connection. -/
def socketTypeOfAny (val : List UInt8) : Res NullError PeerSocketType :=
  if val = dishName then .ok .dish else socketTypeOfSub val

theorem knowsTypes_any : KnowsTypes peerTypes socketTypeOfAny := by
  have hsub : dishName ≠ subName := by decide
  have hxsub : dishName ≠ xsubName := by decide
  constructor
  · intro v t
    unfold socketTypeOfAny
    by_cases h : v = dishName
    · subst h
      rw [if_pos rfl]
      cases t <;> simp [peerTypes, hsub, hxsub]
    · rw [if_neg h, knowsTypes_sub.ok]
      simp [peerTypes, h]
  · intro v
    unfold socketTypeOfAny
    split
    · exact .inl ⟨_, rfl⟩
    · exact knowsTypes_sub.other v

/-- The value of the Socket-Type in what is taken for a frame. -/
def readCommand (tgt : Target) : Option (Bool × List UInt8) → Res NullError (List UInt8)
  | none => .error (.err .malformedMetadata)
  | some (isCommand, body) => parseReadyCommand tgt isCommand body

/-- A raw parser reads what it takes for the frame. -/
theorem parseRaw_eq (select : List UInt8 → Res NullError PeerSocketType) (buf : List UInt8) :
    parseRaw (fun isCommand body => parseReadyCommand tgt isCommand body >>= select) buf =
      readCommand tgt (rawFrame buf) >>= select := by
  match buf with
  | [] => rfl
  | [_] => rfl
  | [_, _] => rfl
  | flags :: size :: b :: rest =>
    rw [parseRaw_cons _ _ _ (List.cons_ne_nil b rest), rawFrame]
    by_cases h : (b :: rest).length < size.toNat
    · rw [if_pos h, if_pos h]
      rfl
    · rw [if_neg h, if_neg h]
      rfl

theorem parseReady_eq (buf : List UInt8) : parseReady tgt buf = readCommand tgt (rawFrame buf) >>= socketTypeOfSub :=
  parseRaw_eq socketTypeOfSub buf

theorem parseReadyRadio_eq (buf : List UInt8) :
    parseReadyRadio tgt buf = readCommand tgt (rawFrame buf) >>= socketTypeOfDish :=
  parseRaw_eq socketTypeOfDish buf

/-- The lookups of the three parsers, for a value. -/
theorem socketType_cases (v : List UInt8) :
    (∃ t, t ≠ .dish ∧ socketTypeOfAny v = .ok t ∧ socketTypeOfSub v = .ok t ∧
      socketTypeOfDish v = .error (.err .wrongSocketType)) ∨
    (socketTypeOfAny v = .ok .dish ∧ socketTypeOfSub v = .error (.err .wrongSocketType) ∧ socketTypeOfDish v = .ok .dish) ∨
    socketTypeOfAny v = .error (.err .wrongSocketType) ∧ socketTypeOfSub v = .error (.err .wrongSocketType) ∧
      socketTypeOfDish v = .error (.err .wrongSocketType) := by
  unfold socketTypeOfAny socketTypeOfDish
  by_cases h : v = dishName
  · subst h
    rw [if_pos rfl]
    exact .inr (.inl ⟨rfl, rfl, rfl⟩)
  · rw [if_neg h, if_neg h]
    rcases knowsTypes_sub.other v with ⟨t, ht⟩ | hno
    · refine .inl ⟨t, ?_, ht, ht, rfl⟩
      rintro rfl
      simp [knowsTypes_sub.ok] at ht
    · exact .inr (.inr ⟨hno, hno, rfl⟩)

/-- The three parsers, for one result of reading the value. -/
theorem selected_cases (r : Res NullError (List UInt8)) :
    (∃ f, (r >>= socketTypeOfAny) = .error f ∧ (r >>= socketTypeOfSub) = .error f ∧ (r >>= socketTypeOfDish) = .error f) ∨
    (∃ t, t ≠ .dish ∧ (r >>= socketTypeOfAny) = .ok t ∧ (r >>= socketTypeOfSub) = .ok t ∧
      (r >>= socketTypeOfDish) = .error (.err .wrongSocketType)) ∨
    ((r >>= socketTypeOfAny) = .ok .dish ∧ (r >>= socketTypeOfSub) = .error (.err .wrongSocketType) ∧
      (r >>= socketTypeOfDish) = .ok .dish) := by
  cases r with
  | error f => exact .inl ⟨f, rfl, rfl, rfl⟩
  | ok v =>
    rcases socketType_cases v with ⟨t, hne, ha, hs, hd⟩ | ⟨ha, hs, hd⟩ | ⟨ha, hs, hd⟩
    · exact .inr (.inl ⟨t, hne, ha, hs, hd⟩)
    · exact .inr (.inr ⟨ha, hs, hd⟩)
    · exact .inl ⟨_, ha, hs, hd⟩

/-- Both parsers give two values the same results when the parser that knows all types does. -/
theorem selected_eq_iff (r r' : Res NullError (List UInt8)) :
    ((r >>= socketTypeOfSub) = (r' >>= socketTypeOfSub) ∧ (r >>= socketTypeOfDish) = (r' >>= socketTypeOfDish)) ↔
      (r >>= socketTypeOfAny) = (r' >>= socketTypeOfAny) := by
  rcases selected_cases r with ⟨f, ha, hs, hd⟩ | ⟨t, hne, ha, hs, hd⟩ | ⟨ha, hs, hd⟩ <;>
    rcases selected_cases r' with ⟨f', ha', hs', hd'⟩ | ⟨t', hne', ha', hs', hd'⟩ | ⟨ha', hs', hd'⟩
  · rw [ha, hs, hd, ha', hs', hd', and_self]
  · simp [ha, hs, ha', hs']
  · simp [ha, hd, ha', hd']
  · simp [ha, hs, ha', hs']
  · rw [ha, hs, hd, ha', hs', hd', and_iff_left rfl]
  · simp [ha, hs, ha', hs', hne]
  · simp [ha, hd, ha', hd']
  · simp [ha, hs, ha', hs', hne'.symm]
  · rw [ha, hs, hd, ha', hs', hd', and_iff_left rfl]
    exact iff_of_true rfl rfl

/-- Both parsers report an error when the parser that knows all types does. -/
theorem selected_err_iff (r : Res NullError (List UInt8)) :
    ((∃ e, (r >>= socketTypeOfSub) = .error (.err e)) ∧ ∃ e, (r >>= socketTypeOfDish) = .error (.err e)) ↔
      ∃ e, (r >>= socketTypeOfAny) = .error (.err e) := by
  rcases selected_cases r with ⟨f, ha, hs, hd⟩ | ⟨t, _, ha, hs, hd⟩ | ⟨ha, hs, hd⟩ <;> simp [ha, hs, hd]

/-! ## The outcome -/

/-- What is read of a body in memory has the outcome that the grammar says. -/
theorem outcome_readCommand {x : Option (Bool × List UInt8)} (hx : ∀ p ∈ x, p.2.length ≤ isizeMax tgt) :
    ReadyOutcome tgt x (readCommand tgt x >>= socketTypeOfAny) := by
  cases x with
  | none => rfl
  | some p =>
    obtain ⟨isCommand, body⟩ := p
    have hlen : body.length ≤ isizeMax tgt := hx _ rfl
    unfold isizeMax at hlen
    by_cases hw : tgt.width = .w32
    · -- On a 32-bit target the parser panics or does what it does on a 64-bit one.
      rw [Target.size_w32 hw] at hlen
      have hmax : body.length ≤ maxBody := by
        unfold maxBody
        omega
      rcases parseReadyCommand_spec isCommand hmax with ⟨hover, hp⟩ | ⟨hover, hp⟩
      · exact .inl ⟨⟨hw, hover⟩, by rw [readCommand, hp tgt, if_pos hw]; rfl⟩
      · have heq : parseReadyCommand tgt isCommand body = parseReadyCommand ⟨.w64, false⟩ isCommand body := by
          rcases hp with ⟨v, hp⟩ | ⟨e, hp⟩ <;> rw [hp tgt, hp ⟨.w64, false⟩]
        have hwide : body.length + 2 ^ 32 ≤ (⟨.w64, false⟩ : Target).size := by
          rw [Target.size_w64 (by decide)]
          omega
        refine .inr ⟨fun h => hover h.2, ?_⟩
        rw [readCommand, heq]
        exact parsesReady knowsTypes_any ⟨.w64, false⟩ isCommand hwide
    · rw [Target.size_w64 hw] at hlen
      have hwide : body.length + 2 ^ 32 ≤ tgt.size := by
        rw [Target.size_w64 hw]
        omega
      exact .inr ⟨fun h => hw h.1, parsesReady knowsTypes_any tgt isCommand hwide⟩

/-- The grammar says one thing of a body, and that is a socket type or an error. -/
theorem parsesReady_determined (types : List (List UInt8 × PeerSocketType)) (isCommand : Bool) (body : List UInt8) :
    ∃ r0 : Res NullError PeerSocketType, ((∃ t, r0 = .ok t) ∨ ∃ e, r0 = .error (.err e)) ∧
      ∀ r, ParsesReady types isCommand body r → r = r0 := by
  by_cases hc : isCommand = true
  · by_cases hok : ∃ t, ReadyOf types body t
    · obtain ⟨t, ht⟩ := hok
      exact ⟨.ok t, .inl ⟨t, rfl⟩, fun r h => (h.ok t).mpr ⟨hc, ht⟩⟩
    · by_cases hwrong : OtherSocketType types body
      · exact ⟨_, .inr ⟨_, rfl⟩, fun r h => h.wrongSocketType.mpr ⟨hc, hwrong⟩⟩
      · by_cases herror : Named body errorName
        · exact ⟨_, .inr ⟨_, rfl⟩, fun r h => h.peerError.mpr ⟨hc, herror⟩⟩
        · by_cases hother : OtherCommand body
          · exact ⟨_, .inr ⟨_, rfl⟩, fun r h => h.unknownCommand.mpr ⟨hc, hother⟩⟩
          · have hnone : ∀ t, ¬ReadyOf types body t := fun t ht => hok ⟨t, ht⟩
            exact ⟨_, .inr ⟨_, rfl⟩, fun r h => h.malformedMetadata.mpr ⟨hc, hnone, hwrong, herror, hother⟩⟩
  · have hc : isCommand = false := by simpa using hc
    exact ⟨_, .inr ⟨_, rfl⟩, fun r h => h.notACommand.mpr hc⟩

theorem ReadyOutcome.unique {x : Option (Bool × List UInt8)} {r r' : Res NullError PeerSocketType} (h : ReadyOutcome tgt x r)
    (h' : ReadyOutcome tgt x r') : r = r' := by
  cases x with
  | none => exact Eq.trans h (Eq.symm h')
  | some p =>
    rcases h with ⟨hover, rfl⟩ | ⟨hno, h⟩
    · rcases h' with ⟨_, rfl⟩ | ⟨hno, _⟩
      · rfl
      · exact absurd hover hno
    · rcases h' with ⟨hover, _⟩ | ⟨_, h'⟩
      · exact absurd hover hno
      · obtain ⟨r0, _, hr0⟩ := parsesReady_determined peerTypes p.1 p.2
        rw [hr0 r h, hr0 r' h']

/-- Two reads give the same when they have one outcome. -/
theorem readCommand_eq_iff {x y : Option (Bool × List UInt8)} (hx : ∀ p ∈ x, p.2.length ≤ isizeMax tgt)
    (hy : ∀ p ∈ y, p.2.length ≤ isizeMax tgt) :
    (readCommand tgt x >>= socketTypeOfAny) = (readCommand tgt y >>= socketTypeOfAny) ↔ SameOutcome tgt x y := by
  have hox := outcome_readCommand hx
  have hoy := outcome_readCommand hy
  constructor
  · intro he
    exact ⟨_, hox, he ▸ hoy⟩
  · rintro ⟨r, hrx, hry⟩
    rw [hox.unique hrx, hoy.unique hry]

/-- A read is an error unless a command is taken for READY. -/
theorem readCommand_err_iff {x : Option (Bool × List UInt8)} (hx : ∀ p ∈ x, p.2.length ≤ isizeMax tgt) :
    (∃ e, (readCommand tgt x >>= socketTypeOfAny) = .error (.err e)) ↔ ∀ body, x = some (true, body) → ¬Taken tgt body := by
  have ho := outcome_readCommand hx
  generalize readCommand tgt x >>= socketTypeOfAny = r at ho
  cases x with
  | none =>
    cases ho
    exact iff_of_true ⟨_, rfl⟩ (fun _ h => by cases h)
  | some p =>
    obtain ⟨isCommand, body⟩ := p
    rcases ho with ⟨⟨hw, hover⟩, rfl⟩ | ⟨hno, h⟩
    · refine iff_of_false (by rintro ⟨e, he⟩; cases he) ?_
      intro hall
      obtain rfl : isCommand = true := hover.1
      exact hall body rfl (.inr ⟨hw, hover⟩)
    · constructor
      · rintro ⟨e, rfl⟩ body' hbody
        cases hbody
        rintro (⟨t, ht⟩ | hover)
        · have := (h.ok t).mpr ⟨rfl, ht⟩
          cases this
        · exact hno hover
      · intro hall
        obtain ⟨r0, hcases, hr0⟩ := parsesReady_determined peerTypes isCommand body
        obtain rfl := hr0 r h
        rcases hcases with ⟨t, rfl⟩ | he
        · obtain ⟨rfl, ht⟩ := (h.ok t).mp rfl
          exact absurd (.inl ⟨t, ht⟩) (hall body rfl)
        · exact he

end ReadyOutcome

/-! ## The buffers -/

section Buffers

variable {tgt : Target} {cap : Nat} {buf : List UInt8}

/-- What the raw parsers take for a frame is a part of the buffer. -/
theorem rawFrame_length {p : Bool × List UInt8} (h : p ∈ rawFrame buf) : p.2.length ≤ buf.length := by
  match buf with
  | [] => nomatch h
  | [_] => nomatch h
  | [_, _] => nomatch h
  | flags :: size :: b :: rest =>
    rw [Option.mem_def] at h
    simp only [rawFrame, Option.ite_none_left_eq_some, Option.some.injEq] at h
    obtain ⟨_, rfl⟩ := h
    simp only [List.length_take, List.length_cons]
    omega

/-- A decoder that is fed a whole frame gives it, and one that is fed none gives none. -/
theorem feed_new_cases (tgt : Target) (hcap : buf.length ≤ cap) :
    (∃ wire rest f d, buf = wire ++ rest ∧ IsWire tgt wire f ∧
      (new : FrameDecoder cap).feed tgt buf = (d, .ok (wire.length, some f))) ∨
    (∀ wire f, IsWire tgt wire f → ¬wire <+: buf) ∧
      ((∃ d n, (new : FrameDecoder cap).feed tgt buf = (d, .ok (n, none))) ∨
        ∃ d e, (new : FrameDecoder cap).feed tgt buf = (d, .error e)) := by
  by_cases hw : ∃ wire f, IsWire tgt wire f ∧ wire <+: buf
  · obtain ⟨wire, f, hw, rest, rfl⟩ := hw
    have hbody : f.body.length ≤ cap := by
      obtain ⟨flags, size, _, _, hwire, _⟩ := hw
      have := congrArg List.length hwire
      simp only [List.length_cons, List.length_append] at this hcap
      omega
    obtain ⟨d, hfeed, _⟩ := feed_wire (d := (new : FrameDecoder cap)) inv_new rfl hw hbody rest
    exact .inl ⟨wire, rest, f, d, rfl, hw, hfeed⟩
  · have hno : ∀ wire f, IsWire tgt wire f → ¬wire <+: buf := fun wire f h hp => hw ⟨wire, f, h, hp⟩
    refine .inr ⟨hno, ?_⟩
    have hnew : (new : FrameDecoder cap).Inv := inv_new
    rcases feed_spec tgt hnew pending_new buf with ⟨d, hfeed, _⟩ | ⟨d, n, f, _, _, _, _, _, hwire, _⟩ |
      ⟨d, e, hfeed, _⟩
    · exact .inl ⟨d, _, hfeed⟩
    · exact absurd (List.take_prefix n buf) (hno _ _ hwire)
    · exact .inr ⟨d, _, hfeed⟩

/-- With a frame at the front, both parsers agree when the grammar gives one outcome. -/
theorem agrees_frame_iff {n : Nat} {f : DecodedFrame} (hbuf : buf.length ≤ isizeMax tgt) (hf : f.body.length ≤ isizeMax tgt) :
    RawAgrees tgt buf (.ok (n, some f)) ↔ SameOutcome tgt (some (f.isCommand, f.body)) (rawFrame buf) := by
  have hx : ∀ p ∈ some (f.isCommand, f.body), p.2.length ≤ isizeMax tgt := by
    rintro p ⟨⟩
    exact hf
  have hy : ∀ p ∈ rawFrame buf, p.2.length ≤ isizeMax tgt := fun p hp => (rawFrame_length hp).trans hbuf
  rw [← readCommand_eq_iff hx hy, eq_comm, ← selected_eq_iff, ← parseReady_eq, ← parseReadyRadio_eq]
  rfl

/-- Without one, both parsers fail when what they take for one is no READY. -/
theorem agrees_none_iff {fed : Fed} (hbuf : buf.length ≤ isizeMax tgt) (hfed : ∀ n f, fed ≠ .ok (n, some f)) :
    RawAgrees tgt buf fed ↔ ∀ body, rawFrame buf = some (true, body) → ¬Taken tgt body := by
  have hy : ∀ p ∈ rawFrame buf, p.2.length ≤ isizeMax tgt := fun p hp => (rawFrame_length hp).trans hbuf
  have hrw : RawAgrees tgt buf fed ↔
      (∃ e, parseReady tgt buf = .error (.err e)) ∧ ∃ e, parseReadyRadio tgt buf = .error (.err e) := by
    match fed with
    | .error _ => exact Iff.rfl
    | .ok (_, none) => exact Iff.rfl
    | .ok (n, some f) => exact absurd rfl (hfed n f)
  rw [hrw, parseReady_eq, parseReadyRadio_eq, selected_err_iff, readCommand_err_iff hy]

/-- A frame with a short header is taken for itself, unless it is empty and nothing follows it. -/
theorem rawFrame_short {wire rest : List UInt8} {f : DecodedFrame} (hw : IsWire tgt wire f)
    (hshort : flagLong (wire.headD 0) = false) :
    rawFrame (wire ++ rest) = some (f.isCommand, f.body) ∨
      ∃ flags, wire ++ rest = [flags, 0] ∧ flagsOk flags = true ∧ flagLong flags = false ∧
        f.isCommand = flagCommand flags ∧ f.body = [] := by
  obtain ⟨flags, size, hok, hl, rfl, _, hc, hb⟩ := hw
  have hshort : flagLong flags = false := hshort
  rw [hshort] at hl hb
  obtain ⟨s, rfl⟩ := List.length_eq_one_iff.mp hl
  have hlen : f.body.length = s.toNat := hb
  cases hbr : f.body ++ rest with
  | nil =>
    obtain ⟨hbody, hrest⟩ := List.append_eq_nil_iff.mp hbr
    rw [hbody, List.length_nil] at hlen
    have hs : s = 0 := UInt8.toNat_inj.mp hlen.symm
    exact .inr ⟨flags, by simp only [List.cons_append, List.nil_append, hbr, hs], hok, hshort, hc, hbody⟩
  | cons b tail =>
    have hfit : ¬(b :: tail).length < s.toNat := by
      rw [← hbr, List.length_append]
      omega
    have htake : (b :: tail).take s.toNat = f.body := by rw [← hbr, ← hlen, List.take_left]
    refine .inl ?_
    simp only [List.cons_append, List.nil_append, hbr, rawFrame]
    rw [if_neg hfit, htake, hc]

/-- The empty message frame is a frame. -/
theorem isWire_empty {flags : UInt8} (hok : flagsOk flags = true) (hshort : flagLong flags = false) :
    IsWire tgt [flags, 0] ⟨flagMore flags, flagCommand flags, []⟩ := by
  refine ⟨flags, [0], hok, ?_, rfl, rfl, rfl, ?_⟩
  · rw [hshort]
    rfl
  · rw [hshort]
    rfl

/-- A misread buffer that begins with a frame is an empty message, or the frame has a long header and is read otherwise. -/
theorem misread_frame {wire rest : List UInt8} {f : DecodedFrame} (hw : IsWire tgt wire f) (h : Misread tgt (wire ++ rest)) :
    (∃ flags, wire ++ rest = [flags, 0] ∧ flagLong flags = false ∧ flagCommand flags = false) ∨
      flagLong (wire.headD 0) = true ∧ ¬SameOutcome tgt (some (f.isCommand, f.body)) (rawFrame (wire ++ rest)) := by
  generalize hs : wire ++ rest = s at h
  cases h with
  | emptyMessage _ hl hc => exact .inl ⟨_, rfl, hl, hc⟩
  | noFrame hno _ _ => exact absurd (hs ▸ List.prefix_append _ _) (hno wire f hw)
  | longFrame hw' hl hne =>
    obtain ⟨rfl, rfl⟩ := isWire_first hw hw' (hs ▸ List.prefix_append _ _) (List.prefix_append _ _)
    exact .inr ⟨hl, hne⟩

/-- The first byte of a frame is its flags byte. -/
theorem headD_of_append {wire rest : List UInt8} {f : DecodedFrame} (hw : IsWire tgt wire f) {flags : UInt8} {s : List UInt8}
    (he : wire ++ rest = flags :: s) : wire.headD 0 = flags := by
  obtain ⟨flags', size, _, _, rfl, _⟩ := hw
  rw [List.cons_append, List.cons.injEq] at he
  exact he.1

/-- The parsers agree with a decoder that finds a frame exactly when they do not misread the buffer. -/
theorem same_iff_not_misread {wire rest : List UInt8} {f : DecodedFrame} (hw : IsWire tgt wire f)
    (hf : f.body.length ≤ isizeMax tgt) :
    SameOutcome tgt (some (f.isCommand, f.body)) (rawFrame (wire ++ rest)) ↔ ¬Misread tgt (wire ++ rest) := by
  have hx : ∀ p ∈ some (f.isCommand, f.body), p.2.length ≤ isizeMax tgt := by
    rintro p ⟨⟩
    exact hf
  by_cases hlong : flagLong (wire.headD 0) = true
  · constructor
    · intro hsame hmis
      rcases misread_frame hw hmis with ⟨flags, he, hl, _⟩ | ⟨_, hne⟩
      · rw [headD_of_append hw he, hl] at hlong
        cases hlong
      · exact hne hsame
    · intro hno
      by_contra hne
      exact hno (.longFrame hw hlong hne)
  · have hshort : flagLong (wire.headD 0) = false := by simpa using hlong
    rcases @rawFrame_short tgt wire rest f hw hshort with hraw | ⟨flags, he, hok, hl, hc, hb⟩
    · -- The parsers take the frame for itself.
      rw [hraw]
      refine iff_of_true ⟨_, outcome_readCommand hx, outcome_readCommand hx⟩ ?_
      intro hmis
      rcases misread_frame hw hmis with ⟨flags, he, _, _⟩ | ⟨hl, _⟩
      · rw [he] at hraw
        cases hraw
      · exact hlong hl
    · -- Nothing behind the header: no frame for the parsers, which is an error of another kind for a message.
      rw [he, hc, hb]
      rw [hc, hb] at hx
      rw [← readCommand_eq_iff hx (by rintro p ⟨⟩)]
      cases hcmd : flagCommand flags with
      | true =>
        refine iff_of_true rfl ?_
        intro hmis
        rw [← he] at hmis
        rcases misread_frame hw hmis with ⟨flags', he', _, hc'⟩ | ⟨hl', _⟩
        · rw [he, List.cons.injEq] at he'
          rw [he'.1, hc'] at hcmd
          cases hcmd
        · exact hlong hl'
      | false => exact iff_of_false (by intro h; cases h) (not_not_intro (.emptyMessage hok hl hcmd))

/-- Where a long header's first size byte is zero, as it is for every body of less than `2 ^ 56` bytes on a 64-bit target, the
parsers misread exactly the commands that are not malformed. -/
theorem misread_long_iff {wire rest : List UInt8} {f : DecodedFrame} (hw : IsWire tgt wire f)
    (hf : f.body.length ≤ isizeMax tgt) (hlong : flagLong (wire.headD 0) = true) (hzero : wire.tail.headD 0 = 0) :
    Misread tgt (wire ++ rest) ↔
      f.isCommand = true ∧ ¬ReadyOutcome tgt (some (true, f.body)) (.error (.err .malformedMetadata)) := by
  have hraw : rawFrame (wire ++ rest) = some (f.isCommand, []) := by
    obtain ⟨flags, size, _, hl, rfl, _, hc, _⟩ := hw
    have hl : size.length = 8 := by
      rw [hl, show flagLong flags = true from hlong]
      rfl
    obtain ⟨s, t, more, rfl⟩ : ∃ s t more, size = s :: t :: more := by
      match size, hl with
      | s :: t :: more, _ => exact ⟨s, t, more, rfl⟩
    obtain rfl : s = 0 := hzero
    rw [hc]
    rfl
  have hx : ∀ p ∈ some (f.isCommand, f.body), p.2.length ≤ isizeMax tgt := by
    rintro p ⟨⟩
    exact hf
  rw [← not_iff_not, ← same_iff_not_misread hw hf, hraw]
  have hy : ∀ p ∈ (some (f.isCommand, []) : Option (Bool × List UInt8)), p.2.length ≤ isizeMax tgt := by
    rintro p ⟨⟩
    exact Nat.zero_le _
  have hox := outcome_readCommand hx
  have hoy := outcome_readCommand hy
  cases hcmd : f.isCommand with
  | false =>
    rw [hcmd] at hox hoy
    exact iff_of_true ⟨_, hox, hoy⟩ (fun h => by cases h.1)
  | true =>
    rw [hcmd] at hox hoy
    constructor
    · rintro ⟨r, hrx, hry⟩ ⟨_, hne⟩
      rw [hry.unique hoy] at hrx
      exact hne hrx
    · intro h
      by_contra hno
      refine h ⟨rfl, ?_⟩
      intro hmal
      exact hno ⟨_, hmal, hoy⟩

/-- The raw parsers agree with a new decoder exactly on the buffers that they do not misread. -/
theorem raw_ready_agrees_iff (tgt : Target) (cap : Nat) (buf : List UInt8) (hcap : buf.length ≤ cap)
    (hmem : buf.length ≤ isizeMax tgt) :
    RawAgrees tgt buf ((new : FrameDecoder cap).feed tgt buf).2 ↔ ¬Misread tgt buf := by
  rcases feed_new_cases tgt hcap with ⟨wire, rest, f, d, rfl, hw, hfeed⟩ | ⟨hno, hnone⟩
  · have hf : f.body.length ≤ isizeMax tgt := by
      obtain ⟨flags, size, _, _, rfl, _⟩ := hw
      simp only [List.length_cons, List.length_append] at hmem
      omega
    rw [hfeed]
    exact (agrees_frame_iff hmem hf).trans (same_iff_not_misread hw hf)
  · have hfed : ∀ n f, ((new : FrameDecoder cap).feed tgt buf).2 ≠ .ok (n, some f) := by
      intro n f he
      rcases hnone with ⟨d, n', hfeed⟩ | ⟨d, e, hfeed⟩
      · rw [hfeed] at he
        cases he
      · rw [hfeed] at he
        cases he
    rw [agrees_none_iff hmem hfed]
    constructor
    · intro hall hmis
      cases hmis with
      | emptyMessage hok hl _ => exact hno _ _ (isWire_empty hok hl) (List.prefix_refl _)
      | noFrame _ hraw htaken => exact hall _ hraw htaken
      | longFrame hw _ _ => exact hno _ _ hw (List.prefix_append _ _)
    · intro hmis body hraw htaken
      exact hmis (.noFrame hno hraw htaken)

end Buffers

/-- On READY of a SUB peer all three agree, so it is not misread. -/
theorem raw_ready_agrees_iff_sub_ready :
    RawAgrees ⟨.w64, true⟩ Peer.subReady ((new : FrameDecoder 64).feed ⟨.w64, true⟩ Peer.subReady).2 ∧
      ¬Misread ⟨.w64, true⟩ Peer.subReady := by
  have hagrees : RawAgrees ⟨.w64, true⟩ Peer.subReady ((new : FrameDecoder 64).feed ⟨.w64, true⟩ Peer.subReady).2 :=
    ⟨by rfl, by rfl⟩
  exact ⟨hagrees, (raw_ready_agrees_iff ⟨.w64, true⟩ 64 Peer.subReady (by decide) (by decide)).mp hagrees⟩

/-- READY of a SUB peer with a reserved flag: the decoder rejects the frame, and the raw parser accepts it. -/
theorem raw_ready_reserved_flag :
    let buf := 0x0C :: Peer.subReady.tail
    ((new : FrameDecoder 64).feed ⟨.w64, true⟩ buf).2 = .error (.err .reservedFlagBits) ∧
      parseReady ⟨.w64, true⟩ buf = .ok .sub ∧
      ¬RawAgrees ⟨.w64, true⟩ buf ((new : FrameDecoder 64).feed ⟨.w64, true⟩ buf).2 := by
  have hfeed : ((new : FrameDecoder 64).feed ⟨.w64, true⟩ (0x0C :: Peer.subReady.tail)).2 =
      .error (.err .reservedFlagBits) := by rfl
  have hraw : parseReady ⟨.w64, true⟩ (0x0C :: Peer.subReady.tail) = .ok .sub := by rfl
  refine ⟨hfeed, hraw, ?_⟩
  rw [hfeed]
  rintro ⟨⟨e, he⟩, _⟩
  rw [hraw] at he
  cases he

end Mzmq
