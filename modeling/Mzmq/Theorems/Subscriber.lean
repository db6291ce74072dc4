import Mzmq.Subscriber
import Mzmq.Theorems.Endpoint
import Mzmq.Theorems.FrameGrammar

/-!
# What is published is delivered

A subscriber that reads the bytes behind our greeting with the decoder of this library, in whatever pieces, gets the replies of
the endpoint, and so every message that a publish has sent, once, whole and in their order.
-/

namespace Mzmq

open Checked Consumer FrameDecoder Spelling

/-! ## Decoding frames -/

instance decidableFollows {cap : Nat} : (s : List UInt8) → (g : List (FeedCall cap)) → Decidable (FrameDecoder.Follows s g)
  | _, [] => isTrue trivial
  | s, ev :: g =>
    have := decidableFollows (s.drop (FrameDecoder.consumedBy ev).length) g
    inferInstanceAs (Decidable (ev.op <+: s ∧
      (errs ev.res = false → FrameDecoder.Follows (s.drop (FrameDecoder.consumedBy ev).length) g)))

/-- A frame that can be sent. -/
def DecodedFrame.Sendable (f : DecodedFrame) : Prop := (f.isCommand = true → f.more = false) ∧ f.body.length < 2 ^ 64

theorem isStream_wireOf {checks : Bool} {cap : Nat} {fs : List DecodedFrame} (h : ∀ f ∈ fs, f.Sendable ∧ f.body.length ≤ cap) :
    IsStream ⟨.w64, checks⟩ cap (wireOf fs) fs := by
  induction fs with
  | nil => exact .nil
  | cons f fs ih =>
    obtain ⟨⟨hcommand, hlen⟩, hcap⟩ := h f List.mem_cons_self
    have hsize : f.body.length < Target.size ⟨.w64, checks⟩ := hlen
    exact .cons (isWire_frameHeader hcommand hsize) hcap (ih fun f hf => h f (List.mem_cons_of_mem _ hf))

theorem spelled_of_isStream {checks : Bool} {cap : Nat} {s : List UInt8} {fs : List DecodedFrame}
    (h : IsStream ⟨.w64, checks⟩ cap s fs) : Spelled (fun f wire => IsFrame wire f) fs s := by
  induction h with
  | nil => exact .nil
  | cons hw _ _ ih => exact .cons ((isWire_w64 false).mpr ((isWire_w64 checks).mp hw)) ih

/-- No wire form of a frame begins with that of another one. -/
theorem prefixFree_isFrame : PrefixFree fun f wire => IsFrame wire f := by
  intro f f' wire wire' s h h' hp hp'
  obtain ⟨hwire, hf⟩ := FrameDecoder.isWire_first h h' hp hp'
  exact ⟨hf, hwire⟩

theorem isStream_unique {checks : Bool} {cap : Nat} {s : List UInt8} {fs gs : List DecodedFrame}
    (h : IsStream ⟨.w64, checks⟩ cap s fs) (h' : IsStream ⟨.w64, checks⟩ cap s gs) : fs = gs := by
  have hnone : ∀ (f : DecodedFrame) wire, wire <+: [] → ¬IsFrame wire f := by
    intro f wire hp hw
    rw [List.prefix_nil.mp hp] at hw
    obtain ⟨_, _, _, _, hw, _⟩ := hw
    cases hw
  exact (Spelled.unique prefixFree_isFrame (spelled_of_isStream h) (spelled_of_isStream h') rfl hnone hnone).1

/-- A decoder that is fed all of some frames, in whatever pieces, returns them, and waits for the next one. -/
theorem decodes_frames {checks : Bool} {cap : Nat} {fs : List DecodedFrame} (h : ∀ f ∈ fs, f.Sendable ∧ f.body.length ≤ cap)
    {g : List (FeedCall cap)} {d : FrameDecoder cap} (hr : FeedRun ⟨.w64, checks⟩ g d) (hs : FrameDecoder.Follows (wireOf fs) g)
    (hall : FedAll (wireOf fs) g) : delivered (answers g) = fs ∧ d.state = .needFlags ∧ ∀ ev ∈ g, errs ev.res = false := by
  have hstream : IsStream ⟨.w64, checks⟩ cap (wireOf fs) fs := isStream_wireOf h
  -- The longest stream of frames in it is all of it.
  have hwhole : ∀ wires fs', LongestStream ⟨.w64, checks⟩ cap (wireOf fs) wires fs' → wires = wireOf fs ∧ fs' = fs := by
    intro wires fs' hl
    have hle := hl.longest _ fs (List.prefix_refl _) hstream
    obtain rfl : wires = wireOf fs := hl.front.eq_of_length (Nat.le_antisymm hl.front.length_le hle)
    exact ⟨rfl, isStream_unique hl.stream hstream⟩
  rcases FeedRun.reading hr with ⟨wires, rest, r⟩ | ⟨wires, v, e, b⟩
  · have hc : consumedOf g = wireOf fs := by
      rcases hall with hc | ⟨ev, hev, herr⟩
      · exact hc
      · rw [r.fine ev hev] at herr
        cases herr
    have hlongest := r.grammar
    rw [hc] at hlongest
    obtain ⟨rfl, hd⟩ := hwhole _ _ hlongest
    have hrest : rest = [] := List.append_right_eq_self.mp (r.consumed.symm.trans hc)
    refine ⟨hd, ?_, r.fine⟩
    have hp := r.pending
    rw [hrest, Pending] at hp
    split at hp
    · assumption
    · obtain ⟨_, _, _, _, _, hnil⟩ := hp
      cases hnil
    · obtain ⟨_, _, _, _, _, _, hnil, _⟩ := hp
      cases hnil
    · exact hp.elim
  · obtain ⟨rest, hrest, hv, hlongest⟩ := b.grammar hs
    obtain ⟨rfl, _⟩ := hwhole _ _ hlongest
    have hnil : rest = [] := List.append_right_eq_self.mp hrest.symm
    rw [hnil, List.prefix_nil] at hv
    have hbreaks := b.breaks
    rw [hv] at hbreaks
    cases hbreaks

/-! ## Messages -/

/-- The frames `fs` carry the messages `msgs`, and leave none open. -/
def Carries (fs : List DecodedFrame) (msgs : List (List UInt8 × List UInt8)) : Prop :=
  ∀ gs, messagesIn (fs ++ gs) = msgs ++ messagesIn gs

theorem Carries.messagesIn {fs : List DecodedFrame} {msgs : List (List UInt8 × List UInt8)} (h : Carries fs msgs) :
    messagesIn fs = msgs := by
  have := h []
  rwa [List.append_nil, Mzmq.messagesIn, List.append_nil] at this

theorem Carries.append {fs gs : List DecodedFrame} {ms ns : List (List UInt8 × List UInt8)} (h : Carries fs ms)
    (h' : Carries gs ns) : Carries (fs ++ gs) (ms ++ ns) := by
  intro rest
  rw [List.append_assoc, h, h', List.append_assoc]

theorem carries_message (key payload : List UInt8) : Carries (message key payload) [(key, payload)] := fun _ => rfl

theorem carries_commands {fs : List DecodedFrame} (h : ∀ f ∈ fs, f.isCommand = true) : Carries fs [] := by
  induction fs with
  | nil => exact fun _ => rfl
  | cons f fs ih =>
    intro gs
    have hrest := ih (fun f hf => h f (List.mem_cons_of_mem _ hf)) gs
    obtain ⟨more, isCommand, body⟩ := f
    obtain rfl : isCommand = true := h _ List.mem_cons_self
    rw [List.cons_append, ← hrest]
    cases more <;> rfl

/-! ## What a call sends -/

/-- The announcement of an endpoint is as short as READY. -/
theorem Endpoint.Implements.metadata_length {σ τ : Type} {E : Endpoint σ} {R : Role τ} {ask : τ → DecodedFrame → τ}
    {Holds : τ → σ → Prop} (I : E.Implements R ask Holds) : E.metadata.length < 200 := by
  have hfits := I.lawful.fits
  rw [I.ready, frameBytes, Endpoint.ready, command, commandBody] at hfits
  simp only [List.length_append, List.length_cons] at hfits
  omega

/-- A command of one size byte. -/
def ShortCommand (f : DecodedFrame) : Prop := f.isCommand = true ∧ f.more = false ∧ f.body.length ≤ 255

section Endpoint

variable {σ : Type} {E : Endpoint σ} {m : Mechanism} {a b : Stage σ}

/-- Occasions that are not the user's are answered by commands. -/
theorem Endpoint.Step.commands (hE : E.metadata.length < 200) {i : Occasion} {w : Reply} (h : E.Step m a i w b)
    (hi : i.isPublish = false) : ∀ f ∈ w.frames, ShortCommand f := by
  have hready : ShortCommand E.ready := by
    refine ⟨rfl, rfl, ?_⟩
    simp only [Endpoint.ready, command, commandBody, readyName, List.length_cons, List.length_append, List.length_nil]
    omega
  have hwelcome : ShortCommand (command welcomeName []) := ⟨rfl, rfl, by decide⟩
  have hrefusal : ShortCommand refusal := ⟨rfl, rfl, by decide⟩
  cases h with
  | greeted => simpa using hready
  | hello => simpa using ⟨hwelcome, hready⟩
  | gaveUp => simpa using hrefusal
  | heard =>
    intro f hf
    simp only [pongsTo] at hf
    split at hf
    · obtain ⟨ctx, _, rfl⟩ := List.mem_map.mp hf
      refine ⟨rfl, rfl, ?_⟩
      have := List.length_take_le 16 ctx
      simp only [command, commandBody, pongName, List.length_cons, List.length_append, List.length_nil]
      omega
    · simp at hf
  | greetedPlain => simp
  | ready => simp
  | readyPlain => simp
  | wanted => cases hi
  | unwanted => cases hi
  | early => cases hi

theorem commands_of_path (hE : E.metadata.length < 200) {is : List Occasion} {ws : List Reply} (h : Run.Path (E.Step m) a is ws b)
    (hi : ∀ i ∈ is, i.isPublish = false) : ∀ f ∈ framesOf ws, ShortCommand f := by
  induction h with
  | nil => simp [framesOf]
  | cons hs _ ih =>
    intro f hf
    rcases List.mem_append.mp hf with hf | hf
    · exact hs.commands hE (hi _ List.mem_cons_self) f hf
    · exact ih (fun i hmem => hi i (List.mem_cons_of_mem _ hmem)) f hf

end Endpoint

namespace Adapter

variable {σ τ T : Type} {cap : Nat} {E : Endpoint σ} {R : Role τ} {check : List UInt8 → List UInt8 → Bool}
  {tgt : Target} {m : Mechanism}

/-- What the replies `ws` to the calls `h` are made of: short commands, and the messages that were published. -/
structure Consists (h : List (Call τ cap T)) (ws : List Reply) : Prop where
  carried : Carries (framesOf ws) (publishedIn h)
  sorts : ∀ f ∈ framesOf ws, ShortCommand f ∨ ∃ msg ∈ messages h, f ∈ message msg.1 msg.2

/-- What the replies to one call are made of. -/
theorem Sees.consists (hE : E.metadata.length < 200) {ev : Call τ cap T} {is : List Occasion} {ws : List Reply} {a b : Stage σ}
    (hpath : Run.Path (E.Step m) a is ws b) (h : Sees ev is ws b) : Consists [ev] ws := by
  obtain ⟨hcall, hacc⟩ := h
  cases hop : ev.op with
  | poll =>
    rw [hop] at hcall
    have hcommands := commands_of_path hE hpath hcall.1
    refine ⟨?_, fun f hf => .inl (hcommands f hf)⟩
    have hp : publishedIn [ev] = [] := by simp [publishedIn, publishedBy, hop]
    rw [hp]
    exact carries_commands fun f hf => (hcommands f hf).1
  | publish key payload =>
    rw [hop] at hcall
    obtain ⟨rfl, hres⟩ := hcall
    rw [hacc] at hres
    -- Where nothing is sent, nothing is published.
    have hquiet : ∀ refused : Bool, ws = [⟨[], refused⟩] → Consists [ev] ws := by
      rintro refused rfl
      have hp : publishedIn [ev] = [] := by
        simp only [publishedIn, List.filterMap_cons, List.filterMap_nil, publishedBy, hop, hres]
        cases refused <;> rfl
      refine ⟨?_, fun f hf => (by cases hf)⟩
      rw [hp]
      exact fun _ => rfl
    cases hpath with
    | cons hs hrest =>
    cases hrest
    cases hs with
    | wanted _ =>
      refine ⟨?_, fun f hf => .inr ⟨(key, payload), by simp [messages, hop, Op.message], hf⟩⟩
      have hpos := publishBytes_pos key payload
      obtain ⟨k, hk⟩ : ∃ k, (publishBytes key payload).length = k + 1 := ⟨_, (Nat.sub_one_add_one_eq_of_pos hpos).symm⟩
      have hlen : (wireOf (framesOf [⟨message key payload, false⟩])).length = k + 1 := by
        rw [← hk, ← wireOf_message]
        rfl
      have hp : publishedIn [ev] = [(key, payload)] := by
        simp only [publishedIn, List.filterMap_cons, List.filterMap_nil, publishedBy, hop, hres, hlen]
        rfl
      rw [hp]
      exact carries_message key payload
    | unwanted _ => exact hquiet false rfl
    | early _ => exact hquiet true rfl

/-- What is accepted in the calls that an endpoint enacts are its replies. -/
theorem accepted_of_enacts {h : List (Call τ cap T)} {is : List Occasion} {ws : List Reply} {s : Stage σ}
    (hm : Enacts E R check tgt m h is ws s) : acceptedBytes (trace h) = wireOf (framesOf ws) := by
  induction hm with
  | nil => rfl
  | snoc _ _ hsees _ ih => rw [trace_snoc, acceptedBytes_append, ih, hsees.accepted, framesOf_append, wireOf_append]

/-- What the replies to the calls that an endpoint enacts are made of. -/
theorem consists_of_enacts (hE : E.metadata.length < 200) {h : List (Call τ cap T)} {is : List Occasion} {ws : List Reply}
    {s : Stage σ} (hm : Enacts E R check tgt m h is ws s) : Consists h ws := by
  induction hm with
  | nil => exact ⟨fun _ => rfl, fun f hf => (by cases hf)⟩
  | @snoc h is js ws us b c ev _ hpath hsees _ ih =>
    have hev := hsees.consists hE hpath
    have happ := ih.carried.append hev.carried
    refine ⟨?_, ?_⟩
    · rwa [publishedIn, publishedIn, ← List.filterMap_append, ← framesOf_append] at happ
    · have hmono : ∀ h', h' ⊆ h ++ [ev] → ∀ f, (ShortCommand f ∨ ∃ msg ∈ messages h', f ∈ message msg.1 msg.2) →
          ShortCommand f ∨ ∃ msg ∈ messages (h ++ [ev]), f ∈ message msg.1 msg.2 := by
        rintro h' hsub f (hshort | ⟨msg, hmsg, hf⟩)
        · exact .inl hshort
        · obtain ⟨ev', hev', hop⟩ := List.mem_filterMap.mp hmsg
          exact .inr ⟨msg, List.mem_filterMap.mpr ⟨ev', hsub hev', hop⟩, hf⟩
      intro f hf
      rw [framesOf_append] at hf
      rcases List.mem_append.mp hf with hf | hf
      · exact hmono h (List.subset_append_left _ _) f (ih.sorts f hf)
      · exact hmono [ev] (List.subset_append_right _ _) f (hev.sorts f hf)

end Adapter

open Adapter

/-- In every run of a driver in which the transport takes all that is written and the lengths of every message add up, a
subscriber that reads with the decoder of this library, which has room for the bodies, gets, in whatever pieces it reads, the
replies of the endpoint, and the messages in them are those that the publishes have sent, in their order. -/
theorem published_messages_delivered (V : Type → Nat → Type) [FixedVec V] (T : Type) [Transport T] (tgt : Target)
    (tableCap nameCap frameCap : Nat) (check : List UInt8 → List UInt8 → Bool) (t : T) (checks : Bool) (bodyCap : Nat)
    (hcap : 255 ≤ bodyCap) :
    EveryDriver V tgt tableCap nameCap frameCap check t fun E P check m _ h _ => TakesAll (trace h) → SumsFit tgt h →
      (∀ msg ∈ messages h, msg.1.length ≤ bodyCap ∧ msg.2.length ≤ bodyCap) →
      ∃ is ws s, Enacts E P.role check tgt m h is ws s ∧ ∀ (g : List (FeedCall bodyCap)) d, FeedRun ⟨.w64, checks⟩ g d →
        FrameDecoder.Follows (acceptedBytes (trace h)) g → FedAll (acceptedBytes (trace h)) g →
        delivered (answers g) = framesOf ws ∧ messagesIn (delivered (answers g)) = publishedIn h ∧ d.state = .needFlags ∧
          ∀ ev ∈ g, errs ev.res = false := by
  refine everyDriver_of_lawful fun L I h0 hr htakes hfit hmsgs => ?_
  obtain ⟨is, ws, s, hm, _⟩ := enacts_of_run L I h0 hr htakes hfit
  have hws := consists_of_enacts I.metadata_length hm
  refine ⟨is, ws, s, hm, fun g d hg hs hall => ?_⟩
  have hsendable : ∀ f ∈ framesOf ws, f.Sendable ∧ f.body.length ≤ bodyCap := by
    intro f hf
    rcases hws.sorts f hf with ⟨_, hmore, hlen⟩ | ⟨msg, hmsg, hf⟩
    · exact ⟨⟨fun _ => hmore, by omega⟩, by omega⟩
    · have hsum := hfit msg hmsg
      have hsize := tgt.size_le
      obtain ⟨hkey, hpayload⟩ := hmsgs msg hmsg
      rcases List.mem_pair.mp hf with rfl | rfl
      · exact ⟨⟨fun h => (by cases h), (by simp only; omega)⟩, hkey⟩
      · exact ⟨⟨fun h => (by cases h), (by simp only; omega)⟩, hpayload⟩
  rw [accepted_of_enacts hm] at hs hall
  obtain ⟨hd, hneed, hfine⟩ := decodes_frames hsendable hg hs hall
  refine ⟨hd, ?_, hneed, hfine⟩
  rw [hd]
  exact hws.carried.messagesIn

/-- The subscriber of `joiningCalls` reads READY, a part of PONG, and the rest: it gets the one message for its group. -/
theorem published_messages_delivered_joined :
    publishedIn joiningCalls = [([0x61], [1, 2])] ∧
      ∃ (g : List (FeedCall 255)) (e : FrameDecoder 255), FeedRun ⟨.w64, true⟩ g e ∧
        messagesIn (delivered (answers g)) = [([0x61], [1, 2])] := by
  have hfeed : FeedRun ⟨.w64, true⟩ _ _ := Run.runs_exec (new : FrameDecoder 255)
    [radioReadyFrame, (Conn.pongFrame [0x42]).take 4, (Conn.pongFrame [0x42]).drop 4 ++ publishBytes [0x61] [1, 2],
      publishBytes [0x61] [1, 2], [0x00, 0x02, 1, 2]]
  have hpub : publishedIn joiningCalls = [([0x61], [1, 2])] := by decide +kernel
  refine ⟨hpub, _, _, hfeed, ?_⟩
  obtain ⟨_, _, _, _, hall⟩ := (published_messages_delivered BVec Slices ⟨.w32, true⟩ 2 8 32 (fun _ _ => true) joiningPeer true 255
    (Nat.le_refl _)).radioAsync _ _ rfl _ _ joiningCalls_run joiningCalls_taken joiningCalls_fit (by decide +kernel)
  obtain ⟨_, hmsgs, _⟩ := hall _ _ hfeed (by decide +kernel) (.inl (by decide +kernel))
  exact hmsgs.trans hpub

end Mzmq
