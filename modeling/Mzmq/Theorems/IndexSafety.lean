import Mzmq.Lemmas.Bounds
import Mzmq.Theorems.ReadyParser

/-!
# The inbound path stays within its bounds

Over every history of calls the decoder and the connections keep their positions inside their buffers. With that no index,
slice or copy of the inbound path is out of bounds, and nothing but the metadata of a READY can make a feed panic, on a
32-bit target.
-/

namespace Mzmq

open Checked

/-! ## The decoder -/

/-- A call on a decoder. -/
inductive DecoderCall where
  | feed (input : List UInt8)
  | reset
  deriving DecidableEq

namespace FrameDecoder

variable {cap : Nat} {tgt : Target}

/-- Carry out one call; `reset` has nothing to report. -/
def call (tgt : Target) (d : FrameDecoder cap) : DecoderCall → FrameDecoder cap × Fed
  | .feed input => d.feed tgt input
  | .reset => (d.reset, .ok (0, none))

/-- Every call leaves a sound decoder sound, and none panics. -/
theorem Inv.call {d : FrameDecoder cap} (hi : d.Inv) (k : DecoderCall) :
    (d.call tgt k).1.Inv ∧ ∀ f, (d.call tgt k).2 = .error f → f.aborts = false := by
  cases k with
  | feed input => exact hi.feed tgt input
  | reset => exact ⟨rfl, fun f hf => by cases hf⟩

/-- So does every sequence of calls, whatever they answer. -/
theorem inv_calls {h : List (Run.Event (FrameDecoder cap) DecoderCall Fed)} {d : FrameDecoder cap}
    (hr : Run.Runs (call tgt) (fun _ => false) new h d) :
    d.Inv ∧ ∀ ev ∈ h, ev.post.Inv ∧ ∀ f, ev.res = .error f → f.aborts = false := by
  refine hr.invariant (fun h d => d.Inv ∧ ∀ ev ∈ h, ev.post.Inv ∧ ∀ f, ev.res = .error f → f.aborts = false)
    ⟨inv_new, by simp⟩ ?_
  rintro h d k _ ⟨hi, hall⟩
  refine ⟨(hi.call k).1, ?_⟩
  intro ev hev
  rcases List.mem_append.mp hev with hev | hev
  · exact hall ev hev
  · rw [List.mem_singleton.mp hev]
    exact hi.call k

end FrameDecoder

/-! ## The connection -/

namespace Conn

variable {τ : Type} {cap : Nat} {R : Role τ} {tgt : Target} {c : Conn τ cap}

/-- On a 32-bit target, the input completes a READY command whose metadata makes the parser panic. -/
def MetadataPanics (tgt : Target) (c : Conn τ cap) (input : List UInt8) : Prop :=
  tgt.width = .w32 ∧ c.awaitsReady = true ∧ ∃ d n f metadata, c.frameDecoder.feed tgt input = (d, .ok (n, some f)) ∧
    f.isCommand = true ∧ f.body = 5 :: (readyName ++ metadata) ∧
    metadataLoop tgt f.body (f.body.length + 1) 6 = .error .panic

/-- Where the metadata of READY overruns, the loop panics on a 32-bit target. -/
theorem metadataLoop_panics {isCommand : Bool} {body : List UInt8} (h : Overrun isCommand body) (hb : body.length ≤ maxBody)
    (hw : tgt.width = .w32) : metadataLoop tgt body (body.length + 1) 6 = .error .panic := by
  obtain ⟨_, ⟨rest, rfl⟩, hover⟩ := h
  have hpos : 6 ≤ (5 :: (readyName ++ rest)).length := by
    simp only [readyName, List.length_cons, List.length_append, List.length_nil]
    omega
  rcases metadataLoop_spec hb ((5 :: (readyName ++ rest)).length + 1) 6 hpos (by omega) with ⟨_, hp⟩ | ⟨hno, _⟩
  · rw [hp tgt, if_pos hw]
  · exact absurd hover hno

/-- A feed behind the greeting panics in its handler or not at all. -/
theorem feedFrame_aborts (hi : c.frameDecoder.Inv) {input : List UInt8}
    {handle : Conn τ cap → DecodedFrame → Conn τ cap × Res ConnError Unit} {flt : Fault ConnError}
    (h : (feedFrame tgt c input handle).2 = .error flt) (hab : flt.aborts = true) :
    ∃ d n f, c.frameDecoder.feed tgt input = (d, .ok (n, some f)) ∧ (handle (c.withDecoder d) f).2 = .error flt := by
  rcases feedFrame_cases hi tgt input handle with ⟨d, n, _, he⟩ | ⟨d, e, _, he⟩ | ⟨d, n, f, _, hfeed, he⟩
  · rw [he] at h
    cases h
  · rw [he] at h
    cases h
    cases hab
  · refine ⟨d, n, f, hfeed, ?_⟩
    rw [he] at h
    rcases ho : handle (c.withDecoder d) f with ⟨c', e | u⟩ <;> rw [ho] at h
    · cases h
      rfl
    · cases h

/-- A feed panics in the metadata of READY or not at all. -/
theorem Bounded.feed_aborts (hb : c.Bounded) (L : R.Lawful) {input : List UInt8} {flt : Fault ConnError}
    (h : (c.feed R tgt input).2 = .error flt) (hab : flt.aborts = true) : c.MetadataPanics tgt input := by
  rcases c.feed_stage with hs | hs | hs | hs | hs
  · rw [feed_greeting R tgt input hs] at h
    obtain ⟨buf, _, ⟨e, he, _⟩ | ⟨_, _, he⟩ | ⟨pg, _, _, he⟩⟩ := feedGreeting_spec hb.greeting input <;> rw [he] at h <;>
      cases h
    cases hab
  · rw [feed_hello R tgt input hs] at h
    obtain ⟨d, n, f, _, ho⟩ := feedFrame_aborts hb.decoder h hab
    rcases onHello_spec (c.withDecoder d) f with ⟨_, _, _, _, he⟩ | ⟨_, _, _, _, he⟩ | ⟨e, _, he⟩ <;> rw [he] at ho <;>
      cases ho <;> cases hab
  · rw [feed_awaiting R tgt input hs] at h
    obtain ⟨d, n, f, hfeed, ho⟩ := feedFrame_aborts hb.decoder h hab
    obtain ⟨hw, hlen, hover⟩ := (onReady_aborts_iff L tgt (c.withDecoder d) f).mp ⟨flt, ho, hab⟩
    have hmax : f.body.length ≤ maxBody := by
      unfold maxBody
      omega
    have hloop := metadataLoop_panics hover hmax hw
    obtain ⟨hcmd, ⟨metadata, hbody⟩, _⟩ := hover
    exact ⟨hw, hs, d, n, f, metadata, hfeed, hcmd, hbody, hloop⟩
  · rw [feed_established R tgt input hs] at h
    obtain ⟨d, n, f, _, ho⟩ := feedFrame_aborts hb.decoder h hab
    obtain ⟨t, pong, he, _⟩ := onEstablished_spec R (c.withDecoder d) f
    rw [he] at ho
    cases ho
  · rw [feed_refused R tgt input hs] at h
    cases h
    cases hab

/-- A pending PONG that fits is written without a panic. -/
theorem Bounded.writePong_aborts (hb : c.Bounded) {out : List UInt8} {flt : Fault ConnError}
    (h : (c.writePong out).2.2 = .error flt) : flt.aborts = false := by
  cases hp : c.pendingPong with
  | none =>
    rw [writePong_none hp] at h
    cases h
  | some p =>
    obtain ⟨ctx, n⟩ := p
    rw [writePong_some hp (hb.pong ctx n hp)] at h
    split at h
    · cases h
      rfl
    · cases h

/-- The positions of a connection are inside their buffers, and what uses them does not panic. -/
structure IndexSafe (R : Role τ) (tgt : Target) (c : Conn τ cap) : Prop where
  greeting : c.greetingPos ≤ 64
  pong : ∀ ctx n, c.pendingPong = some (ctx, n) → n ≤ 16
  decoder : c.frameDecoder.Inv
  feed : ∀ input flt, (c.feed R tgt input).2 = .error flt → flt.aborts = true → c.MetadataPanics tgt input
  writePong : ∀ out flt, (c.writePong out).2.2 = .error flt → flt.aborts = false

/-- A bounded connection is safe. -/
theorem Bounded.indexSafe (hb : c.Bounded) (L : R.Lawful) (tgt : Target) : c.IndexSafe R tgt where
  greeting := hb.greeting
  pong := hb.pong
  decoder := hb.decoder
  feed := fun _ _ h hab => hb.feed_aborts L h hab
  writePong := fun _ _ h => hb.writePong_aborts h

end Conn

/-- The inbound path is safe: a decoder stays sound over all calls, and no connection that a run reaches is out of bounds. -/
theorem inbound_index_safe (V : Type → Nat → Type) [FixedVec V] (tgt : Target) (tableCap nameCap frameCap : Nat) :
    (∀ h (d : FrameDecoder frameCap), Run.Runs (FrameDecoder.call tgt) (fun _ => false) FrameDecoder.new h d →
      d.Inv ∧ ∀ ev ∈ h, ev.post.Inv ∧ ∀ f, ev.res = .error f → f.aborts = false) ∧
    (∀ c0 : Connection V tableCap nameCap frameCap, c0.Fresh Connection.role →
      ∀ h c, ConnRun Connection.role tgt c0 h c → c.IndexSafe Connection.role tgt) ∧
    ∀ c0 : RadioConnection V tableCap nameCap frameCap, c0.Fresh RadioConnection.role →
      ∀ h c, ConnRun RadioConnection.role tgt c0 h c → c.IndexSafe RadioConnection.role tgt := by
  refine ⟨?_, ?_, ?_⟩
  · intro h d hr
    exact FrameDecoder.inv_calls hr
  · intro c0 h0 h c hr
    exact (Conn.bounded_of_run h0 hr).indexSafe Connection.role_lawful tgt
  · intro c0 h0 h c hr
    exact (Conn.bounded_of_run h0 hr).indexSafe RadioConnection.role_lawful tgt

/-- A decoder that rejects a header, is reset and decodes a frame, and the connections behind the greetings of their peers. -/
theorem inbound_index_safe_after_error :
    let calls := Run.exec (FrameDecoder.call ⟨.w64, false⟩) (fun _ => false) (FrameDecoder.new : FrameDecoder 4)
      [.feed [0x00, 0x05, 0x61], .feed [0x61], .reset, .feed [0x00, 0x02, 0x61], .feed [0x62, 0x63]]
    let pub := Run.exec (Conn.apply Connection.role ⟨.w64, false⟩) Conn.OpResult.halts
      (Connection.new : Connection BVec 2 8 32) Peer.opening
    let radio := Run.exec (Conn.apply RadioConnection.role ⟨.w64, false⟩) Conn.OpResult.halts
      (RadioConnection.new : RadioConnection BVec 2 8 32) Peer.opening
    calls.2.Inv ∧ pub.2.IndexSafe Connection.role ⟨.w64, false⟩ ∧ radio.2.IndexSafe RadioConnection.role ⟨.w64, false⟩ := by
  intro calls pub radio
  obtain ⟨hdecoder, _⟩ := inbound_index_safe BVec ⟨.w64, false⟩ 2 8 4
  obtain ⟨_, hpub, hradio⟩ := inbound_index_safe BVec ⟨.w64, false⟩ 2 8 32
  exact ⟨(hdecoder _ _ (Run.runs_exec _ _)).1, hpub _ (.inl rfl) _ _ (Run.runs_exec _ _),
    hradio _ (.inl rfl) _ _ (Run.runs_exec _ _)⟩

end Mzmq
