import Mzmq.Lemmas.Greeting
import Mzmq.Lemmas.Handlers
import Mzmq.Transcript

/-!
# One step of a run

What each operation does to a connection, and to the transcript: the greeting (`GreetingPhase`), the frame in progress
(`Behind`), and the flags that record what was sent.
-/

namespace Mzmq

open Checked

variable {τ : Type} {cap : Nat} {R : Role τ} {tgt : Target}

/-! ## Histories -/

theorem consumed_append (h h' : List (Run.Event (Conn τ cap) Conn.Op Conn.OpResult)) :
    consumed (h ++ h') = consumed h ++ consumed h' := List.flatMap_append

theorem consumed_snoc (h : List (Run.Event (Conn τ cap) Conn.Op Conn.OpResult))
    (ev : Run.Event (Conn τ cap) Conn.Op Conn.OpResult) : consumed (h ++ [ev]) = consumed h ++ consumedBy ev := by
  rw [consumed_append]
  simp [consumed]

theorem not_succeeded_nil (kind : Conn.Op → Bool) :
    ¬succeeded kind ([] : List (Run.Event (Conn τ cap) Conn.Op Conn.OpResult)) := by
  rintro ⟨_, hev, _⟩
  simp at hev

theorem succeeded_snoc (kind : Conn.Op → Bool) (h : List (Run.Event (Conn τ cap) Conn.Op Conn.OpResult))
    (ev : Run.Event (Conn τ cap) Conn.Op Conn.OpResult) :
    succeeded kind (h ++ [ev]) ↔ succeeded kind h ∨ kind ev.op = true ∧ wrote ev = true := by
  constructor
  · rintro ⟨e, he, hk⟩
    rcases List.mem_append.mp he with he | he
    · exact .inl ⟨e, he, hk⟩
    · rw [List.mem_singleton] at he
      subst he
      exact .inr hk
  · rintro (⟨e, he, hk⟩ | hk)
    · exact ⟨e, List.mem_append_left _ he, hk⟩
    · exact ⟨ev, List.mem_append_right _ (List.mem_singleton_self ev), hk⟩

/-- A transcript stays what it is when it goes on. -/
theorem PlainAuthenticated.append {check : List UInt8 → List UInt8 → Bool} {t : List UInt8}
    (h : PlainAuthenticated check tgt t) (x : List UInt8) : PlainAuthenticated check tgt (t ++ x) := by
  obtain ⟨g, wire, rest, rfl, hg, hw⟩ := h
  exact ⟨g, wire, rest ++ x, by simp only [List.append_assoc], hg, hw⟩

theorem NullHandshake.append {t : List UInt8} (h : NullHandshake R tgt t) (x : List UInt8) :
    NullHandshake R tgt (t ++ x) := by
  obtain ⟨g, wire, rest, rfl, hg, hw⟩ := h
  exact ⟨g, wire, rest ++ x, by simp only [List.append_assoc], hg, hw⟩

namespace Conn

/-- An operation is a feed, or it is not. -/
theorem Op.feed_or (op : Op) : (∃ input, op = .feed input) ∨ ∀ input, op ≠ .feed input := by
  cases op with
  | feed input => exact .inl ⟨input, rfl⟩
  | _ => exact .inr fun _ h => by cases h

/-! ## Writing -/

/-- `writeGreeting` succeeds once, in the `Greeting` state. -/
theorem writeGreeting_spec (c : Conn τ cap) (out : List UInt8) :
    (∃ out', c.writeGreeting out = ({ c with ourGreetingSent := true }, out', .ok greetingLen) ∧
      c.state = .greeting ∧ c.ourGreetingSent = false) ∨
    ∃ e, c.writeGreeting out = (c, out, .error (.err e)) := by
  unfold writeGreeting
  by_cases h : c.state ≠ .greeting ∨ c.ourGreetingSent = true
  · rw [if_pos h]
    exact .inr ⟨_, rfl⟩
  · rw [if_neg h]
    split
    · exact .inr ⟨_, rfl⟩
    · exact .inl ⟨_, rfl, by simpa using h⟩

/-- `writeReady` succeeds once, where READY may be written. -/
theorem writeReady_spec (R : Role τ) (c : Conn τ cap) (out : List UInt8) :
    (∃ out', c.writeReady R out = ({ c with ourReadySent := true }, out', .ok R.readyFrame.length) ∧
      c.inReadyState = true ∧ c.ourReadySent = false) ∨
    ∃ out' e, c.writeReady R out = (c, out', .error (.err e)) := by
  unfold writeReady
  by_cases h : c.inReadyState = false
  · rw [if_pos h]
    exact .inr ⟨_, _, rfl⟩
  · rw [if_neg h]
    split
    · exact .inr ⟨_, _, rfl⟩
    · rename_i hsent
      split
      · exact .inr ⟨_, _, rfl⟩
      · split
        · exact .inr ⟨_, _, rfl⟩
        · exact .inl ⟨_, rfl, by simpa using h, by simpa using hsent⟩

/-- `writeWelcome` succeeds once, in `PlainReady`. -/
theorem writeWelcome_spec (c : Conn τ cap) (out : List UInt8) :
    (∃ out', c.writeWelcome out = ({ c with ourWelcomeSent := true }, out', .ok welcomeFrame.length) ∧
      c.state = .plainReady ∧ c.ourWelcomeSent = false) ∨
    ∃ out' e, c.writeWelcome out = (c, out', .error (.err e)) := by
  unfold writeWelcome
  by_cases h : c.state ≠ .plainReady ∨ c.ourWelcomeSent = true
  · rw [if_pos h]
    exact .inr ⟨_, _, rfl⟩
  · rw [if_neg h]
    split
    · exact .inr ⟨_, _, rfl⟩
    · exact .inl ⟨_, rfl, by simpa using h⟩

/-- Without a pending PONG, nothing is written. -/
theorem writePong_none {c : Conn τ cap} (h : c.pendingPong = none) (out : List UInt8) :
    c.writePong out = (c, out, .ok none) := by
  simp only [writePong, h]

/-- `writePong` changes the pending PONG alone. -/
theorem writePong_spec (c : Conn τ cap) (out : List UInt8) :
    ∃ pong, (c.writePong out).1 = { c with pendingPong := pong } := by
  unfold writePong
  split
  · exact ⟨c.pendingPong, rfl⟩
  · rename_i ctx ctxLen _
    by_cases h : out.length < 2 + (1 + 4 + ctxLen)
    · exact ⟨c.pendingPong, by simp only [if_pos h]⟩
    · simp only [if_neg h]
      split <;> exact ⟨none, rfl⟩

/-! ## The greeting -/

/-- No greeting that begins with the bytes in the buffer is accepted. -/
def Doomed (c : Conn τ cap) : Prop :=
  ∀ buf : List.Vector UInt8 64, buf.toList.take c.greetingPos = c.greetingBuf.toList.take c.greetingPos →
    ∃ e, parsePeerGreeting c.mechanism buf = .error e

/-- What is known in the `Greeting` state: the transcript is what is in the buffer, or the buffer holds bytes that were
rejected, and then no greeting will ever be accepted. -/
structure GreetingPhase (t : List UInt8) (c : Conn τ cap) : Prop where
  pos : c.greetingPos ≤ greetingLen
  short : t.length ≤ c.greetingPos
  buffered : t = c.greetingBuf.toList.take c.greetingPos ∨ c.Doomed

/-- A parser that accepts a greeting has accepted its first eleven bytes. -/
theorem parsePartial_of_accepted {m : Mechanism} {buf : List.Vector UInt8 64} {pg : PeerGreeting}
    (h : parsePeerGreeting m buf = .ok pg) : parsePartialGreeting (buf.toList.take greetingPartialLen) = .ok () := by
  have hget : ∀ i, i < greetingPartialLen → (buf.toList.take greetingPartialLen).getD i 0 = buf.toList.getD i 0 := by
    intro i hi
    simp only [List.getD_eq_getElem?_getD, List.getElem?_take, hi, if_true]
  have hof : ∀ name, parseGreetingOf name buf = .ok pg →
      parsePartialGreeting (buf.toList.take greetingPartialLen) = .ok () := by
    intro name h
    unfold parseGreetingOf at h
    simp only at h
    split at h
    · cases h
    · rename_i h1
      split at h
      · cases h
      · rename_i h2
        unfold parsePartialGreeting
        rw [hget sig0 (by decide), hget sig9 (by decide), hget versionMajor (by decide), if_neg h1, if_neg h2]
  cases m with
  | null => exact hof _ h
  | plain => exact hof _ h

/-- Every new connection starts in the greeting. -/
theorem GreetingPhase.init (R : Role τ) (m : Mechanism) (auth : Auth) :
    GreetingPhase [] (Conn.init R m auth : Conn τ cap) :=
  ⟨Nat.zero_le _, Nat.zero_le _, .inl rfl⟩

/-- A greeting is all of its buffer. -/
theorem take_greetingLen (buf : List.Vector UInt8 64) : buf.toList.take greetingLen = buf.toList :=
  List.take_of_length_le (Nat.le_of_eq buf.toList_length)

/-- What is in the greeting buffer after a copy: what was there, and then the input. -/
theorem greeting_copy {c : Conn τ cap} (h : c.greetingPos ≤ greetingLen) {buf : List.Vector UInt8 64} {input : List UInt8}
    (hb : buf.toList = splice c.greetingBuf.toList c.greetingPos (input.take (c.greetingTaken input))) :
    buf.toList.take (c.greetingPos + c.greetingTaken input) =
        c.greetingBuf.toList.take c.greetingPos ++ input.take (c.greetingTaken input) ∧
      buf.toList.take c.greetingPos = c.greetingBuf.toList.take c.greetingPos := by
  have hlen : (input.take (c.greetingTaken input)).length = c.greetingTaken input := by
    rw [List.length_take]
    exact Nat.min_eq_left (Nat.min_le_left _ _)
  have hle : c.greetingPos ≤ c.greetingBuf.toList.length := by
    rw [c.greetingBuf.toList_length]
    exact h
  refine ⟨?_, ?_⟩
  · have := splice_take c.greetingBuf.toList (input.take (c.greetingTaken input)) hle
    rwa [← hb, hlen] at this
  · rw [hb, splice_take_le hle (Nat.le_refl _)]

/-- A greeting stays rejected, whatever is copied behind it. -/
theorem Doomed.withGreeting {c : Conn τ cap} (hd : c.Doomed) {buf : List.Vector UInt8 64} {pos : Nat}
    (hle : c.greetingPos ≤ pos) (hb : buf.toList.take c.greetingPos = c.greetingBuf.toList.take c.greetingPos) :
    (c.withGreeting buf pos).Doomed := by
  intro buf' h'
  apply hd
  have := congrArg (List.take c.greetingPos) h'
  simp only [withGreeting_greetingPos, withGreeting_greetingBuf, List.take_take, Nat.min_eq_left hle] at this
  rw [this, hb]

/-- A check that rejects the bytes in the buffer dooms the greeting. -/
theorem doomed_of_rejected {c : Conn τ cap} {buf : List.Vector UInt8 64} {prevPos pos : Nat} {e : GreetingError}
    (h : greetingCheck prevPos pos buf = .error e ∨ pos = greetingLen ∧ parsePeerGreeting c.mechanism buf = .error e) :
    (c.withGreeting buf pos).Doomed := by
  intro buf' hb
  simp only [withGreeting_greetingPos, withGreeting_greetingBuf] at hb
  rcases h with h | ⟨rfl, h⟩
  · unfold greetingCheck at h
    split at h
    · rename_i hpos
      cases hp : parsePeerGreeting c.mechanism buf' with
      | error e' => exact ⟨e', hp⟩
      | ok pg =>
        have heq := congrArg (List.take greetingPartialLen) hb
        simp only [List.take_take, Nat.min_eq_left hpos.2] at heq
        rw [← heq, parsePartial_of_accepted hp] at h
        cases h
    · cases h
  · have hbuf : buf' = buf := by
      apply List.Vector.eq
      rwa [take_greetingLen, take_greetingLen] at hb
    exact ⟨e, by rw [hbuf]; exact h⟩

/-- A feed in the `Greeting` state: it is rejected, or buffered, or completes an accepted greeting. -/
theorem GreetingPhase.feed {t : List UInt8} {c : Conn τ cap} (p : GreetingPhase t c) (input : List UInt8) :
    (∃ buf pos e, feedGreeting c input = (c.withGreeting buf pos, .error (.err (.greetingError e))) ∧
      GreetingPhase t (c.withGreeting buf pos) ∧ (c.withGreeting buf pos).Doomed) ∨
    (∃ buf pos n, feedGreeting c input = (c.withGreeting buf pos, .ok n) ∧
      GreetingPhase (t ++ input.take n) (c.withGreeting buf pos) ∧ (c.Doomed → (c.withGreeting buf pos).Doomed)) ∨
    (∃ buf pg n, feedGreeting c input = (c.greeted buf pg, .ok n) ∧
      parsePeerGreeting c.mechanism buf = .ok pg ∧ t ++ input.take n = buf.toList ∧ ¬c.Doomed) := by
  obtain ⟨buf, hb, hcases⟩ := feedGreeting_spec p.pos input
  obtain ⟨hcopy, hkeep⟩ := greeting_copy p.pos hb
  have hshort := p.short
  have hpos : c.greetingPos + c.greetingTaken input ≤ greetingLen := by
    have := p.pos
    unfold greetingTaken
    omega
  have hkeepDoomed : c.Doomed → (c.withGreeting buf (c.greetingPos + c.greetingTaken input)).Doomed :=
    fun hd => hd.withGreeting (Nat.le_add_right _ _) hkeep
  rcases hcases with ⟨e, he, hrej⟩ | ⟨_, hlt, he⟩ | ⟨pg, hfull, hpg, he⟩
  · have hd := doomed_of_rejected (c := c) hrej
    exact .inl ⟨buf, _, e, he, ⟨hpos, by simp only [withGreeting_greetingPos]; omega, .inr hd⟩, hd⟩
  · refine .inr (.inl ⟨buf, _, _, he, ⟨hpos, ?_, ?_⟩, hkeepDoomed⟩)
    · rw [List.length_append, List.length_take, withGreeting_greetingPos]
      omega
    · rcases p.buffered with ht | hd
      · exact .inl (by rw [ht, withGreeting_greetingPos, withGreeting_greetingBuf, hcopy])
      · exact .inr (hkeepDoomed hd)
  · have hnd : ¬c.Doomed := by
      intro hd
      obtain ⟨e, he'⟩ := hd buf hkeep
      rw [hpg] at he'
      cases he'
    refine .inr (.inr ⟨buf, pg, _, he, hpg, ?_, hnd⟩)
    rcases p.buffered with ht | hd
    · rw [ht, ← hcopy, hfull, take_greetingLen]
    · exact absurd hd hnd

/-! ## Behind the greeting -/

/-- Some part of a frame, which is no frame yet. -/
def Unfinished (tgt : Target) (cap : Nat) (u : List UInt8) : Prop :=
  ∃ d : FrameDecoder cap, d.Inv ∧ Pending tgt d u

/-- `u` is what was consumed since the last complete frame: the decoder has read it, or it has come upon a bad header behind
it. -/
def Behind (tgt : Target) (d : FrameDecoder cap) (u : List UInt8) : Prop :=
  Pending tgt d u ∨ d.state = .poisoned ∧ Unfinished tgt cap u

theorem Behind.unfinished {d : FrameDecoder cap} {u : List UInt8} (hi : d.Inv) (hb : Behind tgt d u) :
    Unfinished tgt cap u := by
  rcases hb with hp | ⟨_, hu⟩
  · exact ⟨d, hi, hp⟩
  · exact hu

/-- A part of a frame does not begin with a frame. -/
theorem Unfinished.not_isWire {u wire : List UInt8} {f : DecodedFrame} (hu : Unfinished tgt cap u) (hp : wire <+: u) :
    ¬IsWire tgt wire f := by
  obtain ⟨d, hi, hd⟩ := hu
  intro hw
  exact FrameDecoder.not_pending_of_isWire hi hw hp hd

/-- What the decoder cannot break, and the handler keeps, a feed of frames keeps. -/
theorem feedFrame_keeps (I : Conn τ cap → Prop) {c : Conn τ cap}
    {handle : Conn τ cap → DecodedFrame → Conn τ cap × Res ConnError Unit} (hd : ∀ d, I (c.withDecoder d))
    (hh : ∀ d f, I (handle (c.withDecoder d) f).1) (tgt : Target) (input : List UInt8) :
    I (feedFrame tgt c input handle).1 := by
  unfold feedFrame
  split
  · exact hd _
  · exact hd _
  · rename_i d n f _
    have h := hh d f
    split <;> rename_i hr <;> rw [hr] at h <;> exact h

/-- What `feedGreeting`, the decoder and the handlers keep, a feed keeps in every state. -/
theorem feed_keeps (I : Conn τ cap → Prop) (R : Role τ) (tgt : Target) {c : Conn τ cap} (input : List UInt8)
    (hgreeting : c.state = .greeting → I (feedGreeting c input).1) (hdec : ∀ d, I (c.withDecoder d))
    (hhello : c.state = .plainHello → ∀ d f, I (onHello (c.withDecoder d) f).1)
    (hready : c.awaitsReady = true → ∀ d f, I (onReady R tgt (c.withDecoder d) f).1)
    (hestablished : c.state = .established → ∀ d f, I (onEstablished R (c.withDecoder d) f).1) : I (c.feed R tgt input).1 := by
  rcases c.feed_stage with hs | hs | hs | hs | hs
  · rw [feed_greeting R tgt input hs]
    exact hgreeting hs
  · rw [feed_hello R tgt input hs]
    exact feedFrame_keeps I hdec (hhello hs) tgt input
  · rw [feed_awaiting R tgt input hs]
    exact feedFrame_keeps I hdec (hready hs) tgt input
  · rw [feed_established R tgt input hs]
    exact feedFrame_keeps I hdec (hestablished hs) tgt input
  · rw [feed_refused R tgt input hs]
    exact hdec c.frameDecoder

/-- The greeting buffer is never overfull. -/
theorem feed_greetingPos_le {c : Conn τ cap} (h : c.state = .greeting → c.greetingPos ≤ greetingLen) (R : Role τ)
    (tgt : Target) (input : List UInt8) :
    (c.feed R tgt input).1.state = .greeting → (c.feed R tgt input).1.greetingPos ≤ greetingLen := by
  refine feed_keeps (fun c => c.state = .greeting → c.greetingPos ≤ greetingLen) R tgt input ?_ (fun _ => h) ?_ ?_ ?_
  · intro hs
    have hpos := h hs
    have hle : c.greetingPos + c.greetingTaken input ≤ greetingLen := by
      unfold greetingTaken
      omega
    obtain ⟨buf, _, ⟨e, he, _⟩ | ⟨_, _, he⟩ | ⟨pg, _, _, he⟩⟩ := feedGreeting_spec hpos input
    · rw [he]
      exact fun _ => hle
    · rw [he]
      exact fun _ => hle
    · rw [he]
      exact fun _ => Nat.le_refl _
  · intro _ d f
    rcases onHello_spec (c.withDecoder d) f with ⟨_, _, _, _, he⟩ | ⟨_, _, _, _, he⟩ | ⟨_, _, he⟩ <;> rw [he] <;> simp
  · intro _ d f
    rcases onReady_spec R tgt (c.withDecoder d) f with ⟨_, _, _, he⟩ | ⟨_, _, he⟩ | ⟨_, _, _, _, he⟩
    · rw [he]
      simp
    · rw [he]
      simp
    · rw [he]
      exact h
  · intro _ d f
    obtain ⟨t, pong, he, _⟩ := onEstablished_spec R (c.withDecoder d) f
    rw [he]
    exact h

/-- A feed behind the greeting: the frame goes on, or it is complete and handled, or its header is bad. -/
theorem feedFrame_spec {c : Conn τ cap} {u : List UInt8} (hi : c.frameDecoder.Inv) (hb : Behind tgt c.frameDecoder u)
    (input : List UInt8) (handle : Conn τ cap → DecodedFrame → Conn τ cap × Res ConnError Unit) :
    (∃ d n, feedFrame tgt c input handle = (c.withDecoder d, .ok n) ∧ d.Inv ∧ Behind tgt d (u ++ input.take n) ∧
      (c.frameDecoder.state = .poisoned → d.state = .poisoned)) ∨
    (∃ d n f, d.Inv ∧ d.state = .needFlags ∧ n ≤ input.length ∧ IsWire tgt (u ++ input.take n) f ∧ f.body.length ≤ cap ∧
      c.frameDecoder.state ≠ .poisoned ∧
      feedFrame tgt c input handle =
        match handle (c.withDecoder d) f with
        | (c, .error e) => (c, .error e)
        | (c, .ok ()) => (c, .ok n)) ∨
    (∃ d e, feedFrame tgt c input handle = (c.withDecoder d, .error (.err (.decodeError e))) ∧ d.Inv ∧
      d.state = .poisoned ∧ Behind tgt d u) := by
  have hu := hb.unfinished hi
  rcases hb with hp | ⟨hpo, _⟩
  · rcases FrameDecoder.feed_spec tgt hi hp input with ⟨d, ho, h1, h2, _⟩ | ⟨d, n, f, ho, h1, h2, _, h3, h4, h5⟩ |
      ⟨d, e, ho, h1, h2, _⟩
    · refine .inl ⟨d, input.length, by simp only [feedFrame, ho], h1, .inl (by rwa [List.take_length]), ?_⟩
      intro hpo
      rw [Pending, hpo] at hp
      exact hp.elim
    · refine .inr (.inl ⟨d, n, f, h1, h2, h3, h4, h5, ?_, feedFrame_complete ho handle⟩)
      intro hpo
      rw [Pending, hpo] at hp
      exact hp
    · exact .inr (.inr ⟨d, e, by simp only [feedFrame, ho, Fault.mapErr], h1, h2, .inr ⟨h2, hu⟩⟩)
  · have hf : c.frameDecoder.feed tgt input = _ := FrameDecoder.feed_poisoned hpo input
    by_cases hn : input = []
    · rw [if_pos hn] at hf
      refine .inl ⟨c.frameDecoder, 0, by simp only [feedFrame, hf], hi, ?_, fun h => h⟩
      rw [List.take_zero, List.append_nil]
      exact .inr ⟨hpo, hu⟩
    · rw [if_neg hn] at hf
      exact .inr (.inr ⟨c.frameDecoder, .reservedFlagBits, by simp only [feedFrame, hf, Fault.mapErr], hi, hpo,
        .inr ⟨hpo, hu⟩⟩)

end Conn
end Mzmq
