import Mzmq.Lemmas.Calls
import Mzmq.Lemmas.Publish

/-!
# Publishing

`publish` of a connection writes a message into a buffer, `publish_headers` hands out its headers, and the drivers write its
four pieces. All of them make the same bytes, which are two frames: the topic or group with MORE, and the payload.
-/

namespace Mzmq

open Checked Consumer FrameDecoder

variable {τ : Type} {cap : Nat}

/-- The length of the header of a body of `n` bytes. -/
def headerLen (n : Nat) : Nat := if n ≤ 255 then 2 else 9

/-- The encoded total of a publish. -/
def publishTotal (topic payload : List UInt8) : Nat :=
  headerLen topic.length + topic.length + headerLen payload.length + payload.length

/-- What `publish` of a connection does: nothing if the table does not match; else it fails only if the buffer is too small, and
what it has written are the headers and the pieces of the message, which a decoder reads as two frames. -/
structure PublishAgrees (R : Role τ) (tgt : Target) (c : Conn τ cap) (topic payload out : List UInt8) : Prop where
  zero : (c.publish R tgt topic payload out).2 = .ok 0 ↔ R.matchesKey c.table topic = false
  tooSmall : R.matchesKey c.table topic = true →
    ((c.publish R tgt topic payload out).2 = .error (.err .bufferTooSmall) ↔ out.length < publishTotal topic payload)
  fits : R.matchesKey c.table topic = true → publishTotal topic payload ≤ out.length →
    (c.publish R tgt topic payload out).2 = .ok (publishTotal topic payload)
  noFrameError : ∀ e, (c.publish R tgt topic payload out).2 ≠ .error (.err (.frameError e))
  written : R.matchesKey c.table topic = true → ∀ n, (c.publish R tgt topic payload out).2 = .ok n →
    ∃ th thN ph phN, c.publishHeaders R topic payload = .ok (some (th, thN, ph, phN)) ∧
      (c.publish R tgt topic payload out).1.take n = th.take thN ++ topic ++ ph.take phN ++ payload
  decoded : R.matchesKey c.table topic = true → ∀ n, (c.publish R tgt topic payload out).2 = .ok n →
    ∀ frameCap, topic.length ≤ frameCap → payload.length ≤ frameCap →
      ∃ k, (feedAll tgt (n + 1) (new : FrameDecoder frameCap) ((c.publish R tgt topic payload out).1.take n)).2 =
        [.ok (k, some ⟨true, false, topic⟩), .ok (n - k, some ⟨false, false, payload⟩)]

/-- A driver of the connection, over any transport that takes every write, writes the bytes that `publish` does, and returns
their number. -/
def DriverAgrees (P : Policy τ) (tgt : Target) (c : Conn τ cap) (topic payload out : List UInt8) : Prop :=
  ∀ (T : Type) [Transport T] (a : Adapter τ cap T), a.conn = c →
    (∀ s e, .sendFailed s e ∉ (a.publish P tgt topic payload).2.1) →
    ∀ n, (c.publish P.role tgt topic payload out).2 = .ok n →
      (a.publish P tgt topic payload).2.2 = .ok n ∧
        (sentIn (a.publish P tgt topic payload).2.1).flatMap Sent.bytes = (c.publish P.role tgt topic payload out).1.take n

/-! ## The buffer -/

theorem publishTotal_eq (topic payload : List UInt8) : publishTotal topic payload = (publishBytes topic payload).length := by
  rw [publishBytes_length, topicHeader, payloadHeader, frameHeader_length, frameHeader_length]
  rfl

variable {R : Role τ} {tgt : Target} {c : Conn τ cap} {topic payload : List UInt8}

/-- Nothing is published that the table does not match. -/
theorem publish_unmatched (h : c.state = .established) (hm : R.matchesKey c.table topic = false) (out : List UInt8) :
    c.publish R tgt topic payload out = (out, .ok 0) := by
  rw [Conn.publish, Conn.publishHeaders_none h hm]

/-- A decoder reads the bytes of a publish as two frames. -/
theorem feedAll_publish (hfit : publishTotal topic payload < tgt.size) {frameCap : Nat} (ht : topic.length ≤ frameCap)
    (hp : payload.length ≤ frameCap) :
    ∃ k, (feedAll tgt (publishTotal topic payload + 1) (new : FrameDecoder frameCap) (publishBytes topic payload)).2 =
      [.ok (k, some ⟨true, false, topic⟩), .ok (publishTotal topic payload - k, some ⟨false, false, payload⟩)] := by
  have hlen := publishBytes_length topic payload
  rw [publishTotal_eq] at hfit ⊢
  have hwt : IsWire tgt (topicHeader topic ++ topic) ⟨true, false, topic⟩ := isWire_topic (by omega)
  have hwp : IsWire tgt (payloadHeader payload ++ payload) ⟨false, false, payload⟩ := isWire_payload (by omega)
  have hpos : 0 < (payloadHeader payload ++ payload).length := by
    rw [List.length_append, payloadHeader, frameHeader_length]
    split <;> omega
  obtain ⟨d1, h1, i1, s1⟩ := feed_wire (inv_new : (new : FrameDecoder frameCap).Inv) rfl hwt ht (payloadHeader payload ++ payload)
  obtain ⟨d2, h2, _⟩ := feed_wire i1 s1 hwp hp []
  have hsplit : (publishBytes topic payload).length =
      (topicHeader topic ++ topic).length + (payloadHeader payload ++ payload).length := List.length_append
  have h1 : (new : FrameDecoder frameCap).feed tgt (publishBytes topic payload) = _ := h1
  have hrest : (publishBytes topic payload).drop (topicHeader topic ++ topic).length = payloadHeader payload ++ payload :=
    List.drop_left
  obtain ⟨fuel, hfuel⟩ := Nat.exists_eq_succ_of_ne_zero (Nat.ne_of_gt (publishBytes_pos topic payload))
  refine ⟨(topicHeader topic ++ topic).length, ?_⟩
  rw [List.append_nil] at h2
  rw [feedAll_next h1 (by omega), hrest, hfuel]
  simp only
  rw [feedAll_last h2 (Nat.le_refl _), ← hfuel, hsplit, Nat.add_sub_cancel_left]

/-- A publish of a connection whose table does not match. -/
theorem publishAgrees_unmatched (h : c.state = .established) (hm : R.matchesKey c.table topic = false) (out : List UInt8) :
    PublishAgrees R tgt c topic payload out := by
  have hp : c.publish R tgt topic payload out = (out, .ok 0) := publish_unmatched h hm out
  have hno : ¬R.matchesKey c.table topic = true := by simp [hm]
  refine ⟨?_, fun h => absurd h hno, fun h => absurd h hno, ?_, fun h => absurd h hno, fun h => absurd h hno⟩
  · rw [hp]
    exact iff_of_true rfl hm
  · rw [hp]
    exact fun e he => by cases he

/-- A publish of a connection whose table matches. -/
theorem publishAgrees_matched (h : c.state = .established) (hm : R.matchesKey c.table topic = true)
    (hfit : publishTotal topic payload < tgt.size) (out : List UInt8) : PublishAgrees R tgt c topic payload out := by
  have hpos := publishBytes_pos topic payload
  have heq := publishTotal_eq topic payload
  have hno : ¬R.matchesKey c.table topic = false := by simp [hm]
  have hp : c.publish R tgt topic payload out = _ := Conn.publish_eq h hm (by rwa [← heq]) out
  rw [← heq] at hp hpos
  by_cases hlt : out.length < publishTotal topic payload
  · rw [if_pos hlt] at hp
    refine ⟨?_, fun _ => ?_, fun _ hle => ?_, ?_, fun _ n hn => ?_, fun _ n hn => ?_⟩
    · rw [hp]
      exact iff_of_false (fun hr => by cases hr) hno
    · rw [hp]
      exact iff_of_true rfl hlt
    · omega
    · rw [hp]
      exact fun e he => by cases he
    · rw [hp] at hn
      cases hn
    · rw [hp] at hn
      cases hn
  · rw [if_neg hlt] at hp
    have htake : (splice out 0 (publishBytes topic payload)).take (publishTotal topic payload) = publishBytes topic payload := by
      rw [heq]
      exact take_splice_zero out _
    refine ⟨?_, fun _ => ?_, fun _ _ => ?_, ?_, fun _ n hn => ?_, fun _ n hn => ?_⟩
    · rw [hp]
      refine iff_of_false (fun hr => ?_) hno
      have := Except.ok.inj hr
      omega
    · rw [hp]
      exact iff_of_false (fun hr => by cases hr) hlt
    · rw [hp]
    · rw [hp]
      exact fun e he => by cases he
    · obtain ⟨th, ph, hok, hth, hph⟩ := Conn.publishHeaders_ok h hm payload
      rw [hp] at hn ⊢
      cases hn
      exact ⟨th, _, ph, _, hok, by rw [htake, hth, hph, publishBytes, List.append_assoc (topicHeader topic ++ topic)]⟩
    · rw [hp] at hn ⊢
      cases hn
      intro frameCap ht hpl
      rw [htake]
      exact feedAll_publish hfit ht hpl

/-- A publish of an established connection. -/
theorem publishAgrees (h : c.state = .established) (hfit : publishTotal topic payload < tgt.size) (out : List UInt8) :
    PublishAgrees R tgt c topic payload out := by
  cases hm : R.matchesKey c.table topic with
  | false => exact publishAgrees_unmatched h hm out
  | true => exact publishAgrees_matched h hm hfit out

/-! ## The drivers -/

/-- A driver writes what the connection would. -/
theorem driverAgrees {P : Policy τ} (h : c.state = .established) (hfit : publishTotal topic payload < tgt.size)
    (out : List UInt8) : DriverAgrees P tgt c topic payload out := by
  intro T _ a hc hok n hn
  have heq := publishTotal_eq topic payload
  cases hm : P.role.matchesKey c.table topic with
  | false =>
    rw [publish_unmatched h hm out] at hn ⊢
    cases hn
    rw [Adapter.publish, hc, Conn.publishHeaders_none h hm]
    exact ⟨rfl, rfl⟩
  | true =>
    obtain ⟨th, ph, hhdrs, hth, hph⟩ := Conn.publishHeaders_ok h hm payload
    have htotal : _ = (.ok (publishBytes topic payload).length : Res ConnError Nat) := Conn.publishTotal_ok (by rwa [← heq])
    have hp : c.publish P.role tgt topic payload out = _ := Conn.publish_eq h hm (by rwa [← heq]) out
    rw [hp] at hn ⊢
    by_cases hlt : out.length < (publishBytes topic payload).length
    · rw [if_pos hlt] at hn
      cases hn
    · rw [if_neg hlt] at hn ⊢
      cases hn
      have hpub : a.conn.publishHeaders P.role topic payload = _ := hc ▸ hhdrs
      unfold Adapter.publish at hok ⊢
      simp only [hpub, hth, hph, htotal] at hok ⊢
      rcases a.writeEach_cases [.piece (topicHeader topic), .piece topic, .piece (payloadHeader payload), .piece payload] with
        ⟨t, hw, _⟩ | ⟨t, done, s, left, e, _, hw, _⟩
      · rw [hw]
        refine ⟨rfl, ?_⟩
        rw [take_splice_zero, sentIn_sent]
        simp [Sent.bytes, publishBytes]
      · rw [hw] at hok
        exact absurd (List.mem_append_right _ (List.mem_singleton_self _)) (hok s e)

/-- A publish of an established PUB or RADIO connection returns 0 exactly when the table does not match, and else fails exactly
when the buffer is shorter than the encoded total; what it writes are the headers and pieces of the message, what the blocking
and the async driver write, and what a decoder reads as the topic or group with MORE and the payload. -/
theorem publish_decodable (V : Type → Nat → Type) [FixedVec V] (tgt : Target) (tableCap nameCap frameCap : Nat)
    (topic payload out : List UInt8) (hfit : publishTotal topic payload < tgt.size) :
    (∀ c : Connection V tableCap nameCap frameCap, c.state = .established →
      PublishAgrees Connection.role tgt c topic payload out ∧ DriverAgrees Driver.policy tgt c topic payload out) ∧
    (∀ c : RadioConnection V tableCap nameCap frameCap, c.state = .established →
      PublishAgrees RadioConnection.role tgt c topic payload out ∧ DriverAgrees RadioDriver.policy tgt c topic payload out ∧
        DriverAgrees RadioDriver.asyncPolicy tgt c topic payload out) :=
  ⟨fun _ h => ⟨publishAgrees h hfit out, driverAgrees h hfit out⟩,
    fun _ h => ⟨publishAgrees h hfit out, driverAgrees h hfit out, driverAgrees h hfit out⟩⟩

/-- A connection of a peer that has subscribed to `f`. -/
def subscribedToF : Connection BVec 2 8 32 :=
  { (Connection.new : Connection BVec 2 8 32) with state := .established, table := (SubTable.new.subscribe [0x66]).1 }

/-- A publish of one byte under `foo` takes eight bytes. -/
theorem publish_decodable_foo :
    (Connection.publish ⟨.w64, true⟩ subscribedToF [0x66, 0x6F, 0x6F] [0x41] (List.replicate 8 0)).2 = .ok 8 ∧
      (Connection.publish ⟨.w64, true⟩ subscribedToF [0x66, 0x6F, 0x6F] [0x41] (List.replicate 7 0)).2 =
        .error (.err .bufferTooSmall) ∧
      (Connection.publish ⟨.w64, true⟩ subscribedToF [0x62] [0x41] []).2 = .ok 0 := by
  have hm : (Connection.role : Role (SubTable BVec 2 8)).matchesKey subscribedToF.table [0x66, 0x6F, 0x6F] = true := by
    decide +kernel
  have hno : (Connection.role : Role (SubTable BVec 2 8)).matchesKey subscribedToF.table [0x62] = false := by decide +kernel
  refine ⟨?_, ?_, ?_⟩
  · exact (((publish_decodable BVec ⟨.w64, true⟩ 2 8 32 [0x66, 0x6F, 0x6F] [0x41] (List.replicate 8 0) (by decide)).1
      subscribedToF rfl).1.fits hm (by decide))
  · exact (((publish_decodable BVec ⟨.w64, true⟩ 2 8 32 [0x66, 0x6F, 0x6F] [0x41] (List.replicate 7 0) (by decide)).1
      subscribedToF rfl).1.tooSmall hm).mpr (by decide)
  · exact (((publish_decodable BVec ⟨.w64, true⟩ 2 8 32 [0x62] [0x41] [] (by decide)).1 subscribedToF rfl).1.zero).mpr hno

end Mzmq
