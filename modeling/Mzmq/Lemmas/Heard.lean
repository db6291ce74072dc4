import Mzmq.Lemmas.Acts
import Mzmq.Lemmas.Pings
import Mzmq.Lemmas.Roles

/-!
# What a connection has heard

What a peer has said is determined by its bytes (`Said.unique`), and a connection that has consumed them has heard it
(`Heard.said`). `Heard` holds along the feeds of a quiet connection: each of them hears at most one frame, and leaves the PONG
that it calls for (`Heard.feed`).
-/

namespace Mzmq

open Checked Consumer Conn FrameDecoder

variable {τ : Type} {cap : Nat} {R : Role τ} {check : List UInt8 → List UInt8 → Bool} {tgt : Target} {m : Mechanism}

/-! ## The grammar is unambiguous -/

theorem Greeted.length {g : List UInt8} {minor : UInt8} (h : Greeted m g minor) : g.length = greetingLen := by
  obtain ⟨buf, rfl, _⟩ := h
  exact buf.toList_length

theorem Greeted.unique {g : List UInt8} {minor minor' : UInt8} (h : Greeted m g minor) (h' : Greeted m g minor') :
    minor = minor' := by
  obtain ⟨buf, hb, pg, hpg, rfl⟩ := h
  obtain ⟨buf', hb', pg', hpg', rfl⟩ := h'
  have hbuf : buf = buf' := List.Vector.eq _ _ (hb.trans hb'.symm)
  rw [hbuf, hpg'] at hpg
  cases hpg
  rfl

/-- Two handshakes at the beginning of one stream are the same. -/
theorem Handshaken.unique {hs hs' s : List UInt8} (h : Handshaken R check tgt m hs) (h' : Handshaken R check tgt m hs')
    (hp : hs <+: s) (hp' : hs' <+: s) : hs = hs' := by
  cases m with
  | null =>
    obtain ⟨f, hw, _⟩ := h
    obtain ⟨f', hw', _⟩ := h'
    exact (isWire_first hw hw' hp hp').1
  | plain =>
    obtain ⟨hello, ready, rfl, ⟨f, hw, _⟩, r, hr, _⟩ := h
    obtain ⟨hello', ready', rfl, ⟨f', hw', _⟩, r', hr', _⟩ := h'
    obtain ⟨rfl, _⟩ := isWire_first hw hw' ((List.prefix_append _ _).trans hp) ((List.prefix_append _ _).trans hp')
    obtain ⟨rest, rfl⟩ := hp
    rw [List.append_assoc, List.prefix_append_right_inj] at hp'
    obtain ⟨rfl, _⟩ := isWire_first hr hr' (List.prefix_append _ _) hp'
    rfl

/-- What was said behind the handshake is determined. -/
theorem Spoke.unique {t s s' : List UInt8} {minor minor' : UInt8} (h : Spoke R check tgt m t minor s)
    (h' : Spoke R check tgt m t minor' s') : minor = minor' ∧ s = s' := by
  obtain ⟨g, hs, rfl, hg, hh⟩ := h
  obtain ⟨g', hs', heq, hg', hh'⟩ := h'
  obtain ⟨rfl, hrest⟩ := List.append_inj heq (hg.length.trans hg'.length.symm)
  obtain rfl : hs = hs' := hh.unique hh' (List.prefix_append hs s) (hrest ▸ List.prefix_append hs' s')
  exact ⟨hg.unique hg', List.append_cancel_left hrest⟩

/-- The frames of the longest stream are determined. -/
theorem LongestStream.unique {s wires wires' : List UInt8} {fs fs' : List DecodedFrame}
    (h : LongestStream tgt cap s wires fs) (h' : LongestStream tgt cap s wires' fs') : fs = fs' := by
  have hlen : wires.length = wires'.length :=
    Nat.le_antisymm (h'.longest _ _ h.front h.stream) (h.longest _ _ h'.front h'.stream)
  have hsame : wires = wires' := (List.prefix_of_prefix_length_le h.front h'.front (Nat.le_of_eq hlen)).eq_of_length hlen
  have hstream : IsStream tgt cap (wires ++ []) fs' := by
    rw [List.append_nil, hsame]
    exact h'.stream
  obtain ⟨gs, rfl, hgs⟩ := isStream_rest h.stream hstream
  rw [isStream_pending inv_new pending_new hgs, List.append_nil]

/-- What was said is determined by the bytes. -/
theorem Said.unique {t : List UInt8} {minor minor' : UInt8} {fs fs' : List DecodedFrame}
    (h : Said R check tgt cap m t minor fs) (h' : Said R check tgt cap m t minor' fs') : minor = minor' ∧ fs = fs' := by
  obtain ⟨s, wires, hs, hl⟩ := h
  obtain ⟨s', wires', hs', hl'⟩ := h'
  obtain ⟨hminor, rfl⟩ := hs.unique hs'
  exact ⟨hminor, hl.unique hl'⟩

/-! ## In the middle of the handshake -/

/-- The frames of the handshake that a connection has handled when it is not established yet. -/
inductive Opened (check : List UInt8 → List UInt8 → Bool) (tgt : Target) : State → Mechanism → List UInt8 → Prop where
  | ready : Opened check tgt .ready .null []
  | hello : Opened check tgt .plainHello .plain []
  | welcome {wire : List UInt8} : AcceptedHello check tgt wire → Opened check tgt .plainReady .plain wire

/-- A part of a handshake does not begin with a handshake. -/
theorem Opened.not_handshaken {s : State} {hs u hs' : List UInt8} (h : Opened check tgt s m hs) (hu : Unfinished tgt cap u)
    (hp : hs' <+: hs ++ u) : ¬Handshaken R check tgt m hs' := by
  intro hh
  cases h with
  | ready =>
    obtain ⟨f, hw, _⟩ := hh
    exact hu.not_isWire hp hw
  | hello =>
    obtain ⟨hello, ready, rfl, ⟨f, hw, _⟩, _⟩ := hh
    exact hu.not_isWire ((List.prefix_append _ _).trans hp) hw
  | welcome hello =>
    obtain ⟨f, hw, _⟩ := hello
    obtain ⟨hello', ready, rfl, ⟨f', hw', _⟩, r, hr, _⟩ := hh
    obtain ⟨rfl, _⟩ := isWire_first hw hw' (List.prefix_append _ _) ((List.prefix_append _ _).trans hp)
    rw [List.prefix_append_right_inj] at hp
    exact hu.not_isWire hp hr

/-- In the middle of the handshake nothing is said yet. -/
theorem Opened.not_spoke {s : State} {g hs u : List UInt8} {minor : UInt8} (h : Opened check tgt s m hs)
    (hg : Greeted m g minor) (hu : Unfinished tgt cap u) : ¬∃ minor s, Spoke R check tgt m (g ++ (hs ++ u)) minor s := by
  rintro ⟨_, s', g', hs', heq, hg', hh⟩
  obtain ⟨_, hrest⟩ := List.append_inj heq (hg.length.trans hg'.length.symm)
  exact h.not_handshaken hu (hrest ▸ List.prefix_append hs' s') hh

/-- In the greeting nothing is said yet. -/
theorem not_spoke_of_short {t : List UInt8} (h : t.length ≤ greetingLen) : ¬∃ minor s, Spoke R check tgt m t minor s := by
  rintro ⟨_, s, g, hs, rfl, hg, hh⟩
  -- A handshake is not empty.
  have hne : hs ≠ [] := by
    rintro rfl
    cases m with
    | null =>
      obtain ⟨f, ⟨_, _, _, _, hw, _⟩, _⟩ := hh
      cases hw
    | plain =>
      obtain ⟨hello, ready, heq, ⟨f, ⟨_, _, _, _, hw, _⟩, _⟩, _⟩ := hh
      rw [hw] at heq
      cases heq
  have hpos := List.length_pos_iff.mpr hne
  rw [List.length_append, List.length_append, hg.length] at h
  omega

/-- READY completes the handshake. -/
theorem Opened.ready_done {s : State} {hs wire : List UInt8} (h : Opened check tgt s m hs) (hs' : s ≠ .plainHello)
    (hr : AcceptedReady R tgt wire) : Handshaken R check tgt m (hs ++ wire) := by
  cases h with
  | ready => exact hr
  | hello => exact absurd rfl hs'
  | welcome hello => exact ⟨_, wire, rfl, hello, hr⟩

/-! ## The frames heard -/

/-- The bytes that a connection has consumed, and the frames behind the handshake that it has heard. -/
inductive Heard (R : Role τ) (check : List UInt8 → List UInt8 → Bool) (tgt : Target) (m : Mechanism) :
    List UInt8 → List DecodedFrame → Conn τ cap → Prop where
  | greeting {t : List UInt8} {c : Conn τ cap} : c.state = .greeting → c.mechanism = m → c.auth.check = check →
      c.frameDecoder.state = .needFlags → GreetingPhase t c → Heard R check tgt m t [] c
  | opening {g hs u : List UInt8} {c : Conn τ cap} : Greeted m g c.peerVersionMinor → Opened check tgt c.state m hs →
      c.auth.check = check → c.frameDecoder.Inv → Behind tgt c.frameDecoder u → Heard R check tgt m (g ++ (hs ++ u)) [] c
  | established {g hs wires u : List UInt8} {fs : List DecodedFrame} {c : Conn τ cap} : c.state = .established →
      Greeted m g c.peerVersionMinor → Handshaken R check tgt m hs → IsStream tgt cap wires fs → c.frameDecoder.Inv →
      Behind tgt c.frameDecoder u → Heard R check tgt m (g ++ (hs ++ (wires ++ u))) fs c
  | failed {t : List UInt8} {c : Conn τ cap} : c.state = .failed → (¬∃ minor s, Spoke R check tgt m t minor s) →
      Heard R check tgt m t [] c

variable {t : List UInt8} {fs : List DecodedFrame} {c : Conn τ cap}

/-- A connection that is established has heard what was said; before, nothing was said. -/
theorem Heard.said (h : Heard R check tgt m t fs c) :
    (c.state = .established ∧ Said R check tgt cap m t c.peerVersionMinor fs) ∨
      c.state ≠ .established ∧ (¬∃ minor s, Spoke R check tgt m t minor s) ∧ fs = [] := by
  cases h with
  | greeting hs _ _ _ hp => exact .inr ⟨by simp [hs], not_spoke_of_short (hp.short.trans hp.pos), rfl⟩
  | opening hg ho _ hi hb =>
    refine .inr ⟨?_, ho.not_spoke hg (hb.unfinished hi), rfl⟩
    intro hs
    rw [hs] at ho
    cases ho
  | @established g hs wires u _ _ hst hg hh hw hi hb =>
    refine .inl ⟨hst, wires ++ u, wires, ⟨g, hs, rfl, hg, hh⟩, longest_of_last hw ?_⟩
    intro wire f hwire _ hp
    exact (hb.unfinished hi).not_isWire hp hwire
  | failed hs hno => exact .inr ⟨by simp [hs], hno, rfl⟩

/-- The PONGs that are due answer the frames heard. -/
theorem Heard.due (h : Heard R check tgt m t fs c) : Due R check tgt cap m t (pongsFor c.peerVersionMinor fs) := by
  rcases h.said with ⟨_, hs⟩ | ⟨_, hno, rfl⟩
  · exact .inl ⟨_, fs, hs, answers_pongsFor _ fs⟩
  · exact .inr ⟨hno, pongsFor_nil _⟩

/-- Of what is heard next, only so many frames are completed. -/
theorem Heard.oneFrame {bs : List UInt8} {gs : List DecodedFrame} {c' : Conn τ cap} (h : Heard R check tgt m t fs c)
    (h' : Heard R check tgt m (t ++ bs) (fs ++ gs) c') (hlen : gs.length ≤ 1)
    (hkeep : c.state = .established ∧ c'.peerVersionMinor = c.peerVersionMinor ∨ fs ++ gs = []) :
    OneFrame R check tgt cap m t bs := by
  intro minor fs' hsaid
  rcases h'.said with ⟨_, hs'⟩ | ⟨_, hno, _⟩
  · obtain ⟨rfl, rfl⟩ := hsaid.unique hs'
    rcases hkeep with ⟨hst, hminor⟩ | hnil
    · rcases h.said with ⟨_, hs⟩ | ⟨hne, _⟩
      · rw [hminor]
        exact .inr ⟨fs, gs, rfl, hlen, hs⟩
      · exact absurd hst hne
    · exact .inl hnil
  · obtain ⟨s, _, hspoke, _⟩ := hsaid
    exact absurd ⟨minor, s, hspoke⟩ hno

/-- What was heard does not depend on what was sent. -/
theorem Heard.sends (h : Heard R check tgt m t fs c) (ready welcome : Bool) (pong : Option (List.Vector UInt8 16 × Nat)) :
    Heard R check tgt m t fs { c with ourReadySent := ready, ourWelcomeSent := welcome, pendingPong := pong } := by
  cases h with
  | greeting hs hm hc hd hp => exact .greeting hs hm hc hd ⟨hp.pos, hp.short, hp.buffered⟩
  | opening hg ho hc hi hb => exact .opening hg ho hc hi hb
  | established hs hg hh hw hi hb => exact .established hs hg hh hw hi hb
  | failed hs hno => exact .failed hs hno

/-! ## A feed -/

/-- What a feed of `input` has heard: at most one frame, and it leaves the PONG that the frame calls for. -/
def Hears (R : Role τ) (check : List UInt8 → List UInt8 → Bool) (tgt : Target) (m : Mechanism) (t : List UInt8)
    (fs : List DecodedFrame) (c : Conn τ cap) (input : List UInt8) (r : Conn τ cap × Res ConnError Nat) : Prop :=
  match r.2 with
  | .ok n => ∃ gs, gs.length ≤ 1 ∧ Heard R check tgt m (t ++ input.take n) (fs ++ gs) r.1 ∧
      r.1.owed = pongsFor r.1.peerVersionMinor gs ∧
      (c.state = .established ∧ r.1.peerVersionMinor = c.peerVersionMinor ∨ fs ++ gs = [])
  | .error f => f.aborts = true ∨ Heard R check tgt m t fs r.1 ∧ r.1.peerVersionMinor = c.peerVersionMinor

/-- A feed that completes no frame behind the handshake. -/
theorem hears_nothing {input : List UInt8} {n : Nat} {c' : Conn τ cap} (hp : c'.pendingPong = none)
    (h : Heard R check tgt m (t ++ input.take n) [] c') : Hears R check tgt m t [] c input (c', .ok n) := by
  exact ⟨[], Nat.zero_le 1, h, (owed_of_none hp).trans (pongsFor_nil _).symm, .inr rfl⟩

/-- A feed in the greeting. -/
theorem hears_greeting (q : c.Quiet) (hs : c.state = .greeting) (hm : c.mechanism = m) (hc : c.auth.check = check)
    (hd : c.frameDecoder.state = .needFlags) (hp : GreetingPhase t c) (input : List UInt8) :
    Hears R check tgt m t [] c input (c.feed R tgt input) := by
  have hq := q.phase
  rw [hs] at hq
  rw [feed_greeting R tgt input hs]
  rcases hp.feed input with ⟨buf, pos, e, he, hp', _⟩ | ⟨buf, pos, n, he, hp', _⟩ | ⟨buf, pg, n, he, hpg, hbuf, _⟩
  · rw [he]
    exact .inr ⟨.greeting hs hm hc hd hp', rfl⟩
  · rw [he]
    exact hears_nothing q.pong (.greeting hs hm hc hd hp')
  · rw [he]
    have hst : (c.greeted buf pg).state = afterGreeting c.mechanism := by simp only [greeted, hq.1, if_true]
    have hg : Greeted m (t ++ input.take n) (c.greeted buf pg).peerVersionMinor :=
      ⟨buf, hbuf.symm, pg, by rw [← hm]; exact hpg, rfl⟩
    have ho : Opened check tgt (c.greeted buf pg).state m [] := by
      rw [hst, hm]
      cases m with
      | null => exact .ready
      | plain => exact .hello
    have hheard := Heard.opening (R := R) hg ho hc q.decoder (.inl (pending_needFlags hd))
    rw [List.append_nil, List.append_nil] at hheard
    exact hears_nothing q.pong hheard

/-- What the handler of a frame in the middle of the handshake leaves: a frame that it accepts is heard, and one that it
refuses ends the handshake. -/
def Handled (R : Role τ) (check : List UInt8 → List UInt8 → Bool) (tgt : Target) (m : Mechanism) (t x : List UInt8)
    (c : Conn τ cap) (r : Conn τ cap × Res ConnError Unit) : Prop :=
  match r.2 with
  | .ok () => r.1.pendingPong = c.pendingPong ∧ Heard R check tgt m (t ++ x) [] r.1
  | .error f => f.aborts = true ∨ Heard R check tgt m t [] r.1 ∧ r.1.peerVersionMinor = c.peerVersionMinor

section Handshake

variable {g hs u x : List UInt8} {d : FrameDecoder cap} {f : DecodedFrame}

/-- A READY frame. -/
theorem handled_ready (L : R.Lawful) (hg : Greeted m g c.peerVersionMinor) (ho : Opened check tgt c.state m hs)
    (hnot : c.state ≠ .plainHello) (hu : Unfinished tgt cap u) (hw : IsWire tgt (u ++ x) f) (hi : d.Inv)
    (hd : d.state = .needFlags) : Handled R check tgt m (g ++ (hs ++ u)) x c (onReady R tgt (c.withDecoder d) f) := by
  rcases onReady_spec R tgt (c.withDecoder d) f with ⟨ty, hlen, hp, hon⟩ | ⟨e, _, hon⟩ | ⟨flt, _, _, hab, hon⟩
  · rw [hon]
    have hdone := ho.ready_done hnot ⟨f, hw, L.isCommand hp, hlen, ty, hp⟩
    refine ⟨rfl, ?_⟩
    have hheard : Heard R check tgt m (g ++ (hs ++ (u ++ x) ++ ([] ++ []))) []
        ({ c.withDecoder d with state := .established } : Conn τ cap) :=
      .established rfl hg hdone .nil hi (.inl (pending_needFlags hd))
    simp only [List.append_nil] at hheard
    simp only [List.append_assoc]
    exact hheard
  · rw [hon]
    exact .inr ⟨.failed rfl (ho.not_spoke hg hu), rfl⟩
  · rw [hon]
    exact .inl ((flt.aborts_mapErr _).trans hab)

/-- A HELLO frame. -/
theorem handled_hello (hg : Greeted m g c.peerVersionMinor) (hm : m = .plain) (hc : c.auth.check = check)
    (hu : Unfinished tgt cap u) (hw : IsWire tgt (u ++ x) f) (hi : d.Inv) (hd : d.state = .needFlags) :
    Handled R check tgt m (g ++ ([] ++ u)) x c (onHello (c.withDecoder d) f) := by
  have hno : ¬∃ minor s, Spoke R check tgt m (g ++ ([] ++ u)) minor s := by
    rw [hm] at hg ⊢
    exact (Opened.hello : Opened check tgt .plainHello .plain []).not_spoke hg hu
  rcases onHello_spec (c.withDecoder d) f with ⟨user, pass, hp, hyes, hon⟩ | ⟨_, _, _, _, hon⟩ | ⟨_, _, hon⟩
  · rw [hon]
    have hello : AcceptedHello check tgt (u ++ x) :=
      ⟨f, hw, parseHelloFrom_isCommand hp, user, pass, hp, by rw [← hc]; exact hyes⟩
    refine ⟨rfl, ?_⟩
    have hheard : Heard R check tgt m (g ++ (u ++ x ++ [])) []
        ({ c.withDecoder d with auth := (c.auth.consult user pass).1, state := .plainReady } : Conn τ cap) :=
      .opening hg (by rw [hm]; exact .welcome hello) hc hi (.inl (pending_needFlags hd))
    simp only [List.append_nil] at hheard
    simp only [List.nil_append, List.append_assoc]
    exact hheard
  · rw [hon]
    exact .inr ⟨.failed rfl hno, rfl⟩
  · rw [hon]
    exact .inr ⟨.failed rfl hno, rfl⟩

/-- A frame in the middle of the handshake. -/
theorem handled (L : R.Lawful) (hg : Greeted m g c.peerVersionMinor) (ho : Opened check tgt c.state m hs)
    (hc : c.auth.check = check) (hu : Unfinished tgt cap u) (hw : IsWire tgt (u ++ x) f) (hi : d.Inv)
    (hd : d.state = .needFlags) :
    Handled R check tgt m (g ++ (hs ++ u)) x c (handler R tgt c.state (c.withDecoder d) f) := by
  have hready := fun hnot => handled_ready (x := x) (f := f) L hg ho hnot hu hw hi hd
  generalize c.state = s at ho hready
  cases ho with
  | ready => exact hready (by simp)
  | welcome hello => exact hready (by simp)
  | hello => exact handled_hello hg rfl hc hu hw hi hd

/-- A feed in the middle of the handshake. -/
theorem hears_opening (L : R.Lawful) (q : c.Quiet) (hg : Greeted m g c.peerVersionMinor)
    (ho : Opened check tgt c.state m hs) (hc : c.auth.check = check) (hb : Behind tgt c.frameDecoder u) (input : List UInt8) :
    Hears R check tgt m (g ++ (hs ++ u)) [] c input (c.feed R tgt input) := by
  have hne : c.state ≠ .greeting := by
    intro hst
    rw [hst] at ho
    cases ho
  rw [q.feed_frame hne]
  rcases feedFrame_spec q.decoder hb input (handler R tgt c.state) with ⟨d, n, he, hi', hb', _⟩ |
    ⟨d, n, f, hi', hd, _, hw, _, _, he⟩ | ⟨d, e, he, hi', _, hb'⟩
  · rw [he]
    refine hears_nothing q.pong ?_
    simp only [List.append_assoc]
    exact .opening hg ho hc hi' hb'
  · have hhandled := handled L hg ho hc (hb.unfinished q.decoder) hw hi' hd
    rw [he]
    revert hhandled
    rcases handler R tgt c.state (c.withDecoder d) f with ⟨c', e | _⟩ <;> intro hhandled
    · exact hhandled
    · exact hears_nothing (hhandled.1.trans q.pong) hhandled.2
  · rw [he]
    exact .inr ⟨.opening hg ho hc hi' hb', rfl⟩

end Handshake

/-- A feed of an established connection. -/
theorem hears_established (hadd : R.addName ≠ pingName) (hremove : R.removeName ≠ pingName) {g hs wires u : List UInt8}
    (q : c.Quiet) (hst : c.state = .established) (hg : Greeted m g c.peerVersionMinor) (hh : Handshaken R check tgt m hs)
    (hw : IsStream tgt cap wires fs) (hb : Behind tgt c.frameDecoder u) (input : List UInt8) :
    Hears R check tgt m (g ++ (hs ++ (wires ++ u))) fs c input (c.feed R tgt input) := by
  rw [feed_established R tgt input hst]
  rcases feedFrame_spec q.decoder hb input (onEstablished R) with ⟨d, n, he, hi', hb', _⟩ |
    ⟨d, n, f, hi', hd, _, hwire, hcap, _, he⟩ | ⟨d, e, he, hi', _, hb'⟩
  · rw [he]
    refine ⟨[], Nat.zero_le 1, ?_, (owed_of_none q.pong).trans (pongsFor_nil _).symm, .inl ⟨hst, rfl⟩⟩
    simp only [List.append_assoc, List.append_nil]
    exact .established hst hg hh hw hi' hb'
  · obtain ⟨tab, pong, hon, howed⟩ := onEstablished_owed hadd hremove (c := c.withDecoder d) q.pong f
    rw [he, hon]
    refine ⟨[f], Nat.le_refl 1, ?_, howed, .inl ⟨hst, rfl⟩⟩
    have hstream := isStream_append hw (.cons hwire hcap .nil)
    have hheard : Heard R check tgt m (g ++ (hs ++ (wires ++ (u ++ input.take n ++ []) ++ []))) (fs ++ [f])
        ((c.withDecoder d).withTable tab pong) := .established hst hg hh hstream hi' (.inl (pending_needFlags hd))
    simp only [List.append_nil] at hheard
    simp only [List.append_assoc] at hheard ⊢
    exact hheard
  · rw [he]
    exact .inr ⟨.established hst hg hh hw hi' hb', rfl⟩

/-- A feed of a quiet connection hears at most one frame. -/
theorem Heard.feed (L : R.Lawful) (hadd : R.addName ≠ pingName) (hremove : R.removeName ≠ pingName)
    (h : Heard R check tgt m t fs c) (q : c.Quiet) (input : List UInt8) :
    Hears R check tgt m t fs c input (c.feed R tgt input) := by
  cases h with
  | greeting hs hm hc hd hp => exact hears_greeting q hs hm hc hd hp input
  | opening hg ho hc _ hb => exact hears_opening L q hg ho hc hb input
  | established hs hg hh hw _ hb => exact hears_established hadd hremove q hs hg hh hw hb input
  | failed hs _ =>
    have hq := q.phase
    rw [hs] at hq
    exact hq.elim

/-! ## The reply -/

/-- The reply to a feed sends the PONG that is pending, and changes nothing that was heard. -/
theorem Conn.reply_sends (hR : R.readyFrame.length ≤ 32) {c' : Conn τ cap} (h : Answered c.state c') :
    (reply R c c').out.filterMap Sent.asPong = c'.owed ∧ ∃ ready welcome pong,
      (reply R c c').state = { c' with ourReadySent := ready, ourWelcomeSent := welcome, pendingPong := pong } := by
  rcases h with ⟨q, hs⟩ | ⟨hc, _⟩
  · rw [reply_same hs, sendPong_none q.pong, owed_of_none q.pong]
    exact ⟨rfl, _, _, _, rfl⟩
  · cases hc with
    | ready hs hst hm hr hp =>
      rw [reply_ready hR (by simp [hs]) hst hm hr hp, owed_of_none hp]
      exact ⟨rfl, _, _, _, rfl⟩
    | hello hs hst hm hr hp =>
      rw [reply_other (by simp [hst]) (by simp [hst]), sendPong_none hp, owed_of_none hp]
      exact ⟨rfl, _, _, _, rfl⟩
    | welcome hs hst hm hr hp =>
      rw [reply_plainReady hR (by simp [hs]) hst hm hr.2 hr.1 hp, owed_of_none hp]
      exact ⟨rfl, _, _, _, rfl⟩
    | established hst hp =>
      rw [reply_other (by simp [hst]) (by simp [hst])]
      rcases hp with hp | ⟨ctx, n, hp, hn⟩
      · rw [sendPong_none hp, owed_of_none hp]
        exact ⟨rfl, _, _, _, rfl⟩
      · rw [sendPong_some hp hn, owed, hp]
        exact ⟨rfl, _, _, _, rfl⟩

end Mzmq
