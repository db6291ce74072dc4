import Mzmq.Lemmas.Calls
import Mzmq.Lemmas.Outbound
import Mzmq.Connection
import Mzmq.Peer

/-!
# The outbound stream under write failures

A driver marks READY as sent and a PONG as written before it writes them, and forgets what a refused write has left over of
them and of a publish. The stream stays well formed as long as nothing follows such a gap: behind a call that left a part of
an item on the wire the transport takes no more bytes, and behind one that lost READY or WELCOME it takes ERROR alone.
-/

namespace Mzmq

open Checked Consumer

/-- READY and WELCOME. -/
def Sent.isHandshake : Sent → Bool
  | .ready _ => true
  | .welcome _ => true
  | _ => false

namespace Adapter

variable {τ T : Type} {cap : Nat} [Transport T] {P : Policy τ} {tgt : Target} {m : Mechanism}

/-! ## The condition -/

/-- The call left a part of an item on the wire: of a frame whose write was refused, or of its publish. -/
def LeavesPart (ev : Call τ cap T) : Prop :=
  match ev.op with
  | .poll => ∃ tr s w, ev.res.1 = tr ++ [.sendFailed s w] ∧ 0 < w.accepted ∧ w.accepted < s.bytes.length
  | .publish topic payload =>
    0 < (acceptedBytes ev.res.1).length ∧ (acceptedBytes ev.res.1).length < (publishBytes topic payload).length

/-- The call ended with a write of READY or WELCOME of which the transport took nothing. -/
def LosesHandshake (ev : Call τ cap T) : Prop :=
  ∃ tr s w, ev.res.1 = tr ++ [.sendFailed s w] ∧ s.isHandshake = true ∧ w.accepted = 0

/-- Behind a part of an item the transport takes no bytes, and behind a lost READY or WELCOME none but those of ERROR. -/
def TakesNoMore (h : List (Call τ cap T)) : Prop :=
  ∀ h1 ev h2, h = h1 ++ ev :: h2 →
    (LeavesPart ev → ∀ e ∈ trace h2, e.accepted = []) ∧
      (LosesHandshake ev → ∀ e ∈ trace h2, e.accepted ≠ [] → e.isError = true)

/-- The lengths of what is published are pointer-sized integers, as those of all slices are. -/
def Representable (tgt : Target) (h : List (Call τ cap T)) : Prop :=
  ∀ msg ∈ messages h, msg.1.length < tgt.size ∧ msg.2.length < tgt.size

/-! ## What a poll writes -/

section Tracking

variable {msgs msgs' : List (List UInt8 × List UInt8)} {acc : List UInt8} {c c' : Conn τ cap}

/-- `acc` is made up of complete items, and the connection knows what comes next. -/
structure Tracked (m : Mechanism) (msgs : List (List UInt8 × List UInt8)) (acc : List UInt8) (c : Conn τ cap) : Prop where
  items : ∃ is, Written m msgs is acc ∧ c.Ordered m (itemOutputs is)
  pong : c.PongFits

omit [Transport T]

theorem Tracked.complete (h : Tracked m msgs acc c) : Complete m msgs acc := by
  obtain ⟨is, hw, ho⟩ := h.items
  exact ⟨is, hw, ho.inOrder⟩

theorem Tracked.mono (h : Tracked m msgs acc c) (hs : msgs.Sublist msgs') : Tracked m msgs' acc c := by
  obtain ⟨is, hw, ho⟩ := h.items
  exact ⟨⟨is, hw.mono hs, ho⟩, h.pong⟩

theorem Tracked.feed (h : Tracked m msgs acc c) (R : Role τ) (tgt : Target) (input : List UInt8) :
    Tracked m msgs acc (c.feed R tgt input).1 := by
  obtain ⟨is, hw, ho⟩ := h.items
  exact ⟨⟨is, hw, ho.feed R tgt input⟩, h.pong.feed ho.greetingPos_le R tgt input⟩

/-- One more item, of which the connection knows. -/
theorem Tracked.snoc {is : List Item} (hw : Written m msgs is acc) {i : Item} {wire : List UInt8} (hi : i.IsWire wire)
    (hs : (msgs ++ i.message.toList).Sublist msgs') (ho : c'.Ordered m (itemOutputs is ++ i.output.toList)) (hp : c'.PongFits) :
    Tracked m msgs' (acc ++ wire) c' :=
  ⟨⟨is ++ [i], hw.snoc hi hs, by rwa [itemOutputs_snoc]⟩, hp⟩

/-- How a poll may stop, with what was accepted in it behind `acc`. -/
inductive Stopped (m : Mechanism) (msgs : List (List UInt8 × List UInt8)) (acc : List UInt8) :
    List IoEvent → Conn τ cap → Prop where
  | whole {tr : List IoEvent} {c : Conn τ cap} : Tracked m msgs (acc ++ acceptedBytes tr) c → Stopped m msgs acc tr c
  | lost {tr : List IoEvent} {s : Sent} {w : WriteError} {c : Conn τ cap} : s.isHandshake = true → w.accepted = 0 →
      Complete m msgs (acc ++ acceptedBytes tr) → Stopped m msgs acc (tr ++ [.sendFailed s w]) c
  | part {tr : List IoEvent} {s : Sent} {w : WriteError} {c : Conn τ cap} : 0 < w.accepted → w.accepted < s.bytes.length →
      Begins m msgs (acc ++ acceptedBytes (tr ++ [.sendFailed s w])) → Stopped m msgs acc (tr ++ [.sendFailed s w]) c

/-- A refused write of an item: all of it was accepted, or a part, or nothing. -/
theorem stopped_of_refusal {tr : List IoEvent} {s : Sent} {e : IoEvent} (hr : IsRefusal s e)
    (hall : Tracked m msgs (acc ++ (acceptedBytes tr ++ s.bytes)) c)
    (hnone : s.isHandshake = true ∧ Complete m msgs (acc ++ acceptedBytes tr) ∨ Tracked m msgs (acc ++ acceptedBytes tr) c) :
    Stopped m msgs acc (tr ++ [e]) c := by
  obtain ⟨w, hle, rfl⟩ := hr
  have hacc : acceptedBytes (tr ++ [.sendFailed s w]) = acceptedBytes tr ++ s.bytes.take w.accepted := by
    rw [acceptedBytes_append, acceptedBytes_singleton]
    rfl
  rcases Nat.eq_zero_or_pos w.accepted with h0 | hpos
  · rcases hnone with ⟨hs, hc⟩ | ht
    · exact .lost hs h0 hc
    · refine .whole ?_
      rw [hacc, h0, List.take_zero, List.append_nil]
      exact ht
  · rcases Nat.eq_or_lt_of_le hle with hfull | hlt
    · refine .whole ?_
      rw [hacc, hfull, List.take_length]
      exact hall
    · refine .part hpos hlt ?_
      rw [hacc]
      refine hall.complete.begins.front ?_
      rw [List.prefix_append_right_inj, List.prefix_append_right_inj]
      exact List.take_prefix _ _

/-- A poll writes complete items, up to the one at which it stops. -/
theorem keeps_tracked (hR : P.role.readyFrame.length ≤ 32) (hready : IsCommand readyName P.role.readyFrame) (tgt : Target)
    (m : Mechanism) (msgs : List (List UInt8 × List UInt8)) (acc : List UInt8) :
    Keeps P tgt (fun tr (c : Conn τ cap) => Tracked m msgs (acc ++ acceptedBytes tr) c) (Stopped m msgs acc) where
  idle {tr c e} h he := by
    have hnone : e.accepted = [] := by
      cases e <;> first | rfl | cases he
    rwa [acceptedBytes_append, acceptedBytes_singleton, hnone, List.append_nil]
  stop h := .whole h
  feed {tr c input c' n} h hf := by
    have := h.feed P.role tgt input
    rwa [hf] at this
  reject {tr c input c' f} h hf := by
    have := h.feed P.role tgt input
    rw [hf] at this
    exact .whole this
  error {tr c input c' f e} h hf hs he := by
    have hfed := h.feed P.role tgt input
    rw [hf] at hfed
    have hall : Tracked m msgs (acc ++ (acceptedBytes tr ++ Conn.errorFrame)) c' := by
      obtain ⟨is, hw, ho⟩ := hfed.items
      have hi : Item.error.IsWire Conn.errorFrame := isCommand_error
      have hmsg : msgs ++ Item.error.message.toList = msgs := List.append_nil msgs
      rw [← List.append_assoc]
      exact Tracked.snoc hw hi (by rw [hmsg]) (by simpa [Item.output] using ho) hfed.pong
    rcases he with rfl | hr
    · refine .whole ?_
      rw [acceptedBytes_append, acceptedBytes_singleton]
      exact hall
    · exact stopped_of_refusal hr hall (.inr hfed)
  send {tr c op} h hop := by
    obtain ⟨is, hw, ho⟩ := h.items
    have hwrites : ∀ {s : Sent} {c' : Conn τ cap}, op c = ⟨c', [s], none⟩ →
        Tracked m msgs (acc ++ (acceptedBytes tr ++ s.bytes)) c' →
        (s.isHandshake = true ∧ Complete m msgs (acc ++ acceptedBytes tr) ∨ Tracked m msgs (acc ++ acceptedBytes tr) c') →
        ∃ s, (op c).out = [s] ∧ (op c).fault = none ∧ Tracked m msgs (acc ++ acceptedBytes (tr ++ [.sent s])) (op c).state ∧
          ∀ e, IsRefusal s e → Stopped m msgs acc (tr ++ [e]) (op c).state := by
      intro s c' he hall hnone
      rw [he]
      refine ⟨s, rfl, rfl, ?_, fun e hr => stopped_of_refusal hr hall hnone⟩
      rw [acceptedBytes_append, acceptedBytes_singleton]
      exact hall
    cases hop with
    | ready =>
      rcases c.writeReady_spec P.role (List.replicate 32 0) with ⟨_, _, hin, hsent⟩ | ⟨_, e, he⟩
      · have hi : Item.ready.IsWire P.role.readyFrame := hready
        refine .inr (hwrites (Conn.sendReady_eq hR hin hsent) ?_ (.inl ⟨rfl, h.complete⟩))
        rw [← List.append_assoc]
        exact Tracked.snoc hw hi (by simp [Item.message]) (ho.writeReady hin hsent) h.pong
      · have hop : c.sendReady P.role = ⟨c, [], some (.err e)⟩ := by simp only [Conn.sendReady, he]
        rw [hop]
        exact .inl ⟨rfl, fun hf => (by cases hf), fun _ => .whole h⟩
    | welcome =>
      rcases c.writeWelcome_spec (List.replicate welcomeFrame.length 0) with ⟨_, _, hs, hsent⟩ | ⟨_, e, he⟩
      · have hi : Item.welcome.IsWire welcomeFrame := isCommand_welcome
        refine .inr (hwrites (Conn.sendWelcome_eq hs hsent) ?_ (.inl ⟨rfl, h.complete⟩))
        rw [← List.append_assoc]
        exact Tracked.snoc hw hi (by simp [Item.message]) (ho.writeWelcome hs hsent) h.pong
      · have hop : c.sendWelcome = ⟨c, [], some (.err e)⟩ := by simp only [Conn.sendWelcome, he]
        rw [hop]
        exact .inl ⟨rfl, fun hf => (by cases hf), fun _ => .whole h⟩
    | pong =>
      cases hp : c.pendingPong with
      | none =>
        rw [Conn.sendPong_none hp]
        exact .inl ⟨rfl, fun _ => h, fun hf => absurd rfl hf⟩
      | some p =>
        obtain ⟨ctx, n⟩ := p
        have hn := h.pong ctx n hp
        have hs : c.state = .established := by
          by_contra hs
          rw [ho.no_pong hs] at hp
          cases hp
        have ho' : ∀ {os}, c.Ordered m os → Conn.Ordered m os { c with pendingPong := none } :=
          fun ho => ho.established hs hs rfl
        have hfits : ({ c with pendingPong := none } : Conn τ cap).PongFits := fun _ _ h => (by cases h)
        have hi : Item.pong.IsWire (Conn.pongFrame (ctx.toList.take n)) := isCommand_pong (by
          rw [List.length_take]
          omega)
        refine .inr (hwrites (Conn.sendPong_some hp hn) ?_ (.inr ⟨⟨is, hw, ho' ho⟩, hfits⟩))
        rw [← List.append_assoc]
        exact Tracked.snoc hw hi (by simp [Item.message]) (ho' (ho.more hs (.inl rfl))) hfits

end Tracking

/-! ## What a publish writes -/

/-- What is accepted of several writes is the first part of them. -/
theorem writeEach_accepted (a : Adapter τ cap T) (ss : List Sent) :
    (a.writeEach ss).state.conn = a.conn ∧ acceptedBytes (a.writeEach ss).out <+: ss.flatMap Sent.bytes := by
  rcases a.writeEach_cases ss with ⟨t, hw, _⟩ | ⟨t, done, s, left, w, hss, hw, _⟩
  · rw [hw]
    refine ⟨rfl, ?_⟩
    simp only [acceptedBytes_sent, List.prefix_refl]
  · rw [hw, hss]
    refine ⟨rfl, ?_⟩
    rw [acceptedBytes_append, acceptedBytes_sent, List.flatMap_append, List.prefix_append_right_inj,
      acceptedBytes_singleton, List.flatMap_cons]
    exact (List.take_prefix _ _).trans (List.prefix_append _ _)

/-- A publish does nothing, or what is accepted of it is the first part of its two frames. -/
theorem publish_accepted (P : Policy τ) (tgt : Target) (a : Adapter τ cap T) (topic payload : List UInt8) :
    (a.publish P tgt topic payload).1.conn = a.conn ∧
      (acceptedBytes (a.publish P tgt topic payload).2.1 = [] ∨
        a.conn.state = .established ∧ acceptedBytes (a.publish P tgt topic payload).2.1 <+: publishBytes topic payload) := by
  rcases a.publish_cases P tgt topic payload with ⟨r, h⟩ | ⟨⟨th, thN, ph, phN⟩, hh, hpost, hout⟩
  · rw [h]
    exact ⟨rfl, .inl rfl⟩
  · obtain ⟨hs, htake, hptake⟩ := Conn.publishHeaders_some hh
    have hbytes : (pieces topic payload (th, thN, ph, phN)).flatMap Sent.bytes = publishBytes topic payload := by
      simp only [pieces, htake, hptake, List.flatMap_cons, List.flatMap_nil, Sent.bytes, publishBytes, List.append_nil,
        List.append_assoc]
    obtain ⟨hconn, hacc⟩ := a.writeEach_accepted (pieces topic payload (th, thN, ph, phN))
    rw [hpost, hout]
    rw [hbytes] at hacc
    exact ⟨hconn, .inr ⟨hs, hacc⟩⟩

/-! ## Runs -/

section Runs

variable {h : List (Call τ cap T)} {ev : Call τ cap T}

omit [Transport T]

theorem messages_snoc (h : List (Call τ cap T)) (ev : Call τ cap T) :
    messages (h ++ [ev]) = messages h ++ ev.op.message.toList := by
  have hlast : [ev].filterMap (fun ev => ev.op.message) = ev.op.message.toList := by
    cases hm : ev.op.message <;> simp [hm]
  rw [messages, List.filterMap_append, hlast]
  rfl

/-- What the condition says of the last call of a run. -/
theorem TakesNoMore.snoc (hn : TakesNoMore (h ++ [ev])) : TakesNoMore h ∧
    ((∃ ev' ∈ h, LeavesPart ev') → ∀ e ∈ ev.res.1, e.accepted = []) ∧
      ((∃ ev' ∈ h, LosesHandshake ev') → ∀ e ∈ ev.res.1, e.accepted ≠ [] → e.isError = true) := by
  have hback : ∀ h1 ev' h2, h = h1 ++ ev' :: h2 →
      (LeavesPart ev' → ∀ e ∈ trace h2 ++ ev.res.1, e.accepted = []) ∧
        (LosesHandshake ev' → ∀ e ∈ trace h2 ++ ev.res.1, e.accepted ≠ [] → e.isError = true) := by
    intro h1 ev' h2 hh
    rw [← trace_snoc]
    exact hn h1 ev' (h2 ++ [ev]) (by rw [hh]; simp)
  refine ⟨?_, ?_, ?_⟩
  · intro h1 ev' h2 hh
    obtain ⟨hpart, hlost⟩ := hback h1 ev' h2 hh
    exact ⟨fun hp e he => hpart hp e (List.mem_append_left _ he), fun hl e he => hlost hl e (List.mem_append_left _ he)⟩
  · rintro ⟨ev', hev, hp⟩ e he
    obtain ⟨h1, h2, hh⟩ := List.append_of_mem hev
    exact (hback h1 ev' h2 hh).1 hp e (List.mem_append_right _ he)
  · rintro ⟨ev', hev, hl⟩ e he
    obtain ⟨h1, h2, hh⟩ := List.append_of_mem hev
    exact (hback h1 ev' h2 hh).2 hl e (List.mem_append_right _ he)

end Runs

/-- What was accepted so far: complete items, as long as nothing is missing; and part of a well-formed stream, with nothing but
ERROR behind a lost READY or WELCOME and nothing at all behind a part of an item. -/
inductive Standing (m : Mechanism) (acc : List UInt8) (h : List (Call τ cap T)) (c : Conn τ cap) : Prop where
  | whole : Tracked m (messages h) (acc ++ acceptedBytes (trace h)) c → Standing m acc h c
  | lost : (∃ ev ∈ h, LosesHandshake ev) → Complete m (messages h) (acc ++ acceptedBytes (trace h)) → Standing m acc h c
  | part : (∃ ev ∈ h, LeavesPart ev) → Begins m (messages h) (acc ++ acceptedBytes (trace h)) → Standing m acc h c

omit [Transport T] in
theorem Standing.begins {acc : List UInt8} {h : List (Call τ cap T)} {c : Conn τ cap} (hs : Standing m acc h c) :
    Begins m (messages h) (acc ++ acceptedBytes (trace h)) := by
  cases hs with
  | whole ht => exact ht.complete.begins
  | lost _ hc => exact hc.begins
  | part _ hb => exact hb

omit [Transport T] in
/-- Where the transport accepts ERROR alone, it accepts nothing of a trace without ERROR. -/
theorem NoError.accepted_nil {tr : List IoEvent} {c : Conn τ cap} (h : NoError tr c)
    (hn : ∀ e ∈ tr, e.accepted ≠ [] → e.isError = true) : acceptedBytes tr = [] := by
  refine acceptedBytes_eq_nil fun e he => ?_
  by_contra hne
  exact List.countP_eq_zero.mp h e he (hn e he hne)

section Step

variable {acc : List UInt8} {h : List (Call τ cap T)} {a : Adapter τ cap T}

/-- One call, from the state that a run has led to. -/
abbrev callOf (P : Policy τ) (tgt : Target) (a : Adapter τ cap T) (op : Op) : Call τ cap T :=
  ⟨a, op, (Adapter.step P tgt a op).2, (Adapter.step P tgt a op).1⟩

/-- A poll behind complete items. -/
theorem Tracked.poll (hR : P.role.readyFrame.length ≤ 32) (hready : IsCommand readyName P.role.readyFrame)
    (ht : Tracked m (messages h) (acc ++ acceptedBytes (trace h)) a.conn) :
    Standing m acc (h ++ [callOf P tgt a .poll]) (callOf P tgt a .poll).post.conn := by
  have hmsgs : messages (h ++ [callOf P tgt a .poll]) = messages h := by
    rw [messages_snoc]
    exact List.append_nil _
  have hacc : acc ++ acceptedBytes (trace (h ++ [callOf P tgt a .poll])) =
      acc ++ acceptedBytes (trace h) ++ acceptedBytes (a.poll P tgt).2.1 := by
    rw [trace_snoc, acceptedBytes_append, List.append_assoc]
    rfl
  have hlast : callOf P tgt a .poll ∈ h ++ [callOf P tgt a .poll] := List.mem_append_right _ (List.mem_singleton_self _)
  have h0 : Tracked m (messages h) (acc ++ acceptedBytes (trace h) ++ acceptedBytes []) a.conn := by
    rwa [acceptedBytes_nil, List.append_nil]
  obtain ⟨hok, herr⟩ := (keeps_tracked hR hready tgt m (messages h) (acc ++ acceptedBytes (trace h))).poll h0
  rw [List.nil_append] at hok herr
  cases hr : (a.poll P tgt).2.2 with
  | ok v =>
    refine .whole ?_
    rw [hmsgs, hacc]
    exact hok v hr
  | error f =>
    have hstop := herr f hr
    generalize htr : (a.poll P tgt).2.1 = tr at hstop hacc
    cases hstop with
    | whole ht =>
      refine .whole ?_
      rw [hmsgs, hacc]
      exact ht
    | @lost tr s w _ hs h0 hc =>
      refine .lost ⟨_, hlast, tr, s, w, htr, hs, h0⟩ ?_
      have hnone : IoEvent.accepted (.sendFailed s w) = [] := by
        rw [IoEvent.accepted, h0, List.take_zero]
      rw [hmsgs, hacc, acceptedBytes_append, acceptedBytes_singleton, hnone, List.append_nil]
      exact hc
    | @part tr s w _ hpos hlt hb =>
      refine .part ⟨_, hlast, tr, s, w, htr, hpos, hlt⟩ ?_
      rw [hmsgs, hacc]
      exact hb

/-- A publish behind complete items. -/
theorem Tracked.publish {topic payload : List UInt8} (hsize : topic.length < tgt.size ∧ payload.length < tgt.size)
    (ht : Tracked m (messages h) (acc ++ acceptedBytes (trace h)) a.conn) :
    Standing m acc (h ++ [callOf P tgt a (.publish topic payload)]) (callOf P tgt a (.publish topic payload)).post.conn := by
  have hmsgs : messages (h ++ [callOf P tgt a (.publish topic payload)]) = messages h ++ [(topic, payload)] := messages_snoc _ _
  have hacc : acc ++ acceptedBytes (trace (h ++ [callOf P tgt a (.publish topic payload)])) =
      acc ++ acceptedBytes (trace h) ++ acceptedBytes (a.publish P tgt topic payload).2.1 := by
    rw [trace_snoc, acceptedBytes_append, List.append_assoc]
    rfl
  have hlast : callOf P tgt a (.publish topic payload) ∈ h ++ [callOf P tgt a (.publish topic payload)] :=
    List.mem_append_right _ (List.mem_singleton_self _)
  obtain ⟨hconn, hcases⟩ := a.publish_accepted P tgt topic payload
  have hconn : (callOf P tgt a (.publish topic payload)).post.conn = a.conn := hconn
  rw [hconn]
  have hsame : acceptedBytes (a.publish P tgt topic payload).2.1 = [] →
      Standing m acc (h ++ [callOf P tgt a (.publish topic payload)]) a.conn := by
    intro hnone
    refine .whole ?_
    rw [hmsgs, hacc, hnone, List.append_nil]
    exact ht.mono (List.sublist_append_left _ _)
  rcases hcases with hnone | ⟨hs, hpre⟩
  · exact hsame hnone
  · have hall : Tracked m (messages h ++ [(topic, payload)]) (acc ++ acceptedBytes (trace h) ++ publishBytes topic payload)
        a.conn := by
      obtain ⟨is, hw, ho⟩ := ht.items
      have hle : tgt.size ≤ 2 ^ 64 := tgt.size_le
      have hi : (Item.publish topic payload).IsWire (publishBytes topic payload) :=
        isWire_publish (Nat.lt_of_lt_of_le hsize.1 hle) (Nat.lt_of_lt_of_le hsize.2 hle)
      exact Tracked.snoc hw hi (List.Sublist.refl _) (ho.more hs (.inr rfl)) ht.pong
    rcases Nat.eq_zero_or_pos (acceptedBytes (a.publish P tgt topic payload).2.1).length with h0 | hpos
    · exact hsame (List.length_eq_zero_iff.mp h0)
    · rcases Nat.eq_or_lt_of_le hpre.length_le with hfull | hlt
      · refine .whole ?_
        rw [hmsgs, hacc, hpre.eq_of_length hfull]
        exact hall
      · refine .part ⟨_, hlast, hpos, hlt⟩ ?_
        rw [hmsgs, hacc]
        exact hall.complete.begins.front ((List.prefix_append_right_inj _).mpr hpre)

/-- A call behind a lost READY or WELCOME. -/
theorem lost_step (op : Op) (hlost : ∃ ev ∈ h, LosesHandshake ev) (hc : Complete m (messages h) (acc ++ acceptedBytes (trace h)))
    (hn : ∀ e ∈ (Adapter.step P tgt a op).2.1, e.accepted ≠ [] → e.isError = true) :
    Standing m acc (h ++ [callOf P tgt a op]) (callOf P tgt a op).post.conn := by
  obtain ⟨ev', hev, hl⟩ := hlost
  have hlost : ∃ ev ∈ h ++ [callOf P tgt a op], LosesHandshake ev := ⟨ev', List.mem_append_left _ hev, hl⟩
  have hlast : callOf P tgt a op ∈ h ++ [callOf P tgt a op] := List.mem_append_right _ (List.mem_singleton_self _)
  have hc : Complete m (messages (h ++ [callOf P tgt a op])) (acc ++ acceptedBytes (trace h)) := by
    rw [messages_snoc]
    exact hc.mono (List.sublist_append_left _ _)
  have hacc : acc ++ acceptedBytes (trace (h ++ [callOf P tgt a op])) =
      acc ++ acceptedBytes (trace h) ++ acceptedBytes (Adapter.step P tgt a op).2.1 := by
    rw [trace_snoc, acceptedBytes_append, List.append_assoc]
  have hsilent : NoError (Adapter.step P tgt a op).2.1 a.conn →
      Standing m acc (h ++ [callOf P tgt a op]) (callOf P tgt a op).post.conn := by
    intro hno
    refine .lost hlost ?_
    rw [hacc, hno.accepted_nil hn, List.append_nil]
    exact hc
  cases op with
  | publish topic payload =>
    refine hsilent (List.countP_eq_zero.mpr fun e he => ?_)
    obtain ⟨bs, rfl | ⟨w, _, rfl⟩⟩ := a.publish_pieces P tgt topic payload e he <;> exact Bool.false_ne_true
  | poll =>
    rcases a.poll_error_last P tgt with hno | ⟨_, tr, e, htr, hno, he⟩
    · exact hsilent hno
    · have htr : (Adapter.step P tgt a .poll).2.1 = tr ++ [e] := htr
      have hbefore : acceptedBytes tr = [] := hno.accepted_nil fun e he => hn e (by rw [htr]; exact List.mem_append_left _ he)
      rw [htr, acceptedBytes_append, hbefore, List.nil_append, acceptedBytes_singleton] at hacc
      rcases he with rfl | ⟨w, hle, rfl⟩
      · refine .lost hlost ?_
        rw [hacc]
        exact hc.error
      · have hbytes : IoEvent.accepted (.sendFailed (.error Conn.errorFrame) w) = Conn.errorFrame.take w.accepted := rfl
        rw [hbytes] at hacc
        rcases Nat.eq_zero_or_pos w.accepted with h0 | hpos
        · refine .lost hlost ?_
          rw [hacc, h0, List.take_zero, List.append_nil]
          exact hc
        · rcases Nat.eq_or_lt_of_le hle with hfull | hlt
          · refine .lost hlost ?_
            rw [hacc, hfull]
            exact (List.take_length (l := Conn.errorFrame)).symm ▸ hc.error
          · refine .part ⟨_, hlast, tr, _, w, htr, hpos, hlt⟩ ?_
            rw [hacc]
            exact hc.error.begins.front ((List.prefix_append_right_inj _).mpr (List.take_prefix _ _))

/-- Every call leaves complete items, or something missing. -/
theorem Standing.step (hR : P.role.readyFrame.length ≤ 32) (hready : IsCommand readyName P.role.readyFrame) (op : Op)
    (hs : Standing m acc h a.conn) (hn : TakesNoMore (h ++ [callOf P tgt a op]))
    (hrep : Representable tgt (h ++ [callOf P tgt a op])) :
    Standing m acc (h ++ [callOf P tgt a op]) (callOf P tgt a op).post.conn := by
  obtain ⟨_, hpart, hlost⟩ := hn.snoc
  cases hs with
  | whole ht =>
    cases op with
    | poll => exact ht.poll hR hready
    | publish topic payload =>
      refine ht.publish (hrep (topic, payload) ?_)
      rw [messages_snoc]
      exact List.mem_append_right _ (List.mem_singleton_self _)
  | lost hl hc => exact lost_step op hl hc (hlost hl)
  | part hp hb =>
    have hnone : acceptedBytes (callOf P tgt a op).res.1 = [] := acceptedBytes_eq_nil (hpart hp)
    obtain ⟨ev', hev, hp⟩ := hp
    refine .part ⟨ev', List.mem_append_left _ hev, hp⟩ ?_
    rw [trace_snoc, acceptedBytes_append, hnone, List.append_nil, messages_snoc]
    exact hb.mono (List.sublist_append_left _ _)

end Step

/-- A driver that has started has written its greeting. -/
theorem start_tracked {R : Role τ} {auth : Auth} {t : T} {tr : List IoEvent} {a : Adapter τ cap T}
    (h : start (Conn.init R m auth) t = (tr, .ok a)) :
    acceptedBytes tr = greetingBytes m ∧ Tracked m [] (greetingBytes m) a.conn := by
  obtain ⟨htr, hc, _⟩ := start_spec h
  rw [Conn.sendGreeting_init] at htr hc
  refine ⟨?_, ⟨[], ⟨[], (List.append_nil _).symm, .nil, List.Sublist.refl _⟩, ?_⟩, ?_⟩
  · rw [htr, acceptedBytes_sent]
    exact List.append_nil _
  · rw [hc]
    exact ⟨rfl, rfl, rfl, rfl, rfl, Nat.zero_le _⟩
  · rw [hc]
    intro ctx n hn
    cases hn

/-- In every run that meets the condition, a well-formed stream begins with what was accepted, at every moment. -/
theorem stays_of_takesNoMore (hR : P.role.readyFrame.length ≤ 32) (hready : IsCommand readyName P.role.readyFrame)
    {R : Role τ} {auth : Auth} {t : T} {tr : List IoEvent} {a0 a : Adapter τ cap T}
    (h0 : start (Conn.init R m auth) t = (tr, .ok a0)) {h : List (Call τ cap T)} (hr : DriverRun P tgt a0 h a)
    (hn : TakesNoMore h) (hrep : Representable tgt h) : StaysWellFormed m (messages h) (tr ++ trace h) := by
  obtain ⟨hacc, ht⟩ := start_tracked h0
  have hstanding : TakesNoMore h → Representable tgt h → Standing m (greetingBytes m) h a.conn := by
    refine hr.invariant (fun h a => TakesNoMore h → Representable tgt h → Standing m (greetingBytes m) h a.conn) ?_ ?_
    · intro _ _
      refine .whole ?_
      rw [trace_nil, acceptedBytes_nil, List.append_nil]
      exact ht
    · intro h a op _ ih hn hrep
      have hrep' : Representable tgt h := by
        intro msg hmsg
        refine hrep msg ?_
        rw [messages_snoc]
        exact List.mem_append_left _ hmsg
      exact (ih hn.snoc.1 hrep').step hR hready op hn hrep
  refine Begins.stays ?_
  rw [acceptedBytes_append, hacc]
  exact (hstanding hn hrep).begins

end Adapter

open Adapter

/-- In every run of a driver, whatever its transport refuses, a well-formed stream begins with the bytes that the transport has
accepted, as long as it accepts none behind a part of an item, and none but those of ERROR behind a lost READY or WELCOME. -/
theorem outbound_well_formed_of_takes_no_more (V : Type → Nat → Type) [FixedVec V] (T : Type) [Transport T] (tgt : Target)
    (tableCap nameCap frameCap : Nat) (check : List UInt8 → List UInt8 → Bool) (t : T) :
    (∀ tr d0, (Driver.new t : List IoEvent × Res ConnError (Driver V tableCap nameCap frameCap T)) = (tr, .ok d0) →
      ∀ h d, DriverRun Driver.policy tgt d0 h d → TakesNoMore h → Representable tgt h →
        StaysWellFormed .null (messages h) (tr ++ trace h)) ∧
    (∀ tr d0, (Driver.newPlain t check : List IoEvent × Res ConnError (Driver V tableCap nameCap frameCap T)) =
        (tr, .ok d0) →
      ∀ h d, DriverRun Driver.policy tgt d0 h d → TakesNoMore h → Representable tgt h →
        StaysWellFormed .plain (messages h) (tr ++ trace h)) ∧
    (∀ tr d0, (RadioDriver.new t : List IoEvent × Res ConnError (RadioDriver V tableCap nameCap frameCap T)) =
        (tr, .ok d0) →
      ∀ h d, (DriverRun RadioDriver.policy tgt d0 h d ∨ DriverRun RadioDriver.asyncPolicy tgt d0 h d) →
        TakesNoMore h → Representable tgt h → StaysWellFormed .null (messages h) (tr ++ trace h)) := by
  have hpub : (readyFrame : List UInt8).length ≤ 32 := by decide
  have hradio : (radioReadyFrame : List UInt8).length ≤ 32 := by decide
  refine ⟨?_, ?_, ?_⟩
  · intro tr d0 h0 h d hr hn hrep
    exact stays_of_takesNoMore (P := Driver.policy) hpub isCommand_ready h0 hr hn hrep
  · intro tr d0 h0 h d hr hn hrep
    exact stays_of_takesNoMore (P := Driver.policy) hpub isCommand_ready h0 hr hn hrep
  · intro tr d0 h0 h d hr hn hrep
    rcases hr with hr | hr
    · exact stays_of_takesNoMore (P := RadioDriver.policy) hradio isCommand_radioReady h0 hr hn hrep
    · exact stays_of_takesNoMore (P := RadioDriver.asyncPolicy) hradio isCommand_radioReady h0 hr hn hrep

/-! ## A publish that breaks off -/

/-- The first byte of a frame tells its flags. -/
theorem IsFrame.flags {wire s rest : List UInt8} {f : DecodedFrame} {b : UInt8} (h : IsFrame wire f)
    (hp : b :: rest <+: wire ++ s) : f.more = flagMore b ∧ f.isCommand = flagCommand b := by
  obtain ⟨flags, size, _, _, rfl, hm, hc, _⟩ := h
  rw [List.cons_append, List.cons_prefix_cons] at hp
  rw [hp.1]
  exact ⟨hm, hc⟩

/-- The first frame of an item. -/
theorem Item.IsWire.first {i : Item} {wire : List UInt8} (h : i.IsWire wire) :
    (∃ body, IsFrame wire ⟨false, true, body⟩) ∨ ∃ topic payload, i = .publish topic payload := by
  cases i with
  | publish topic payload => exact .inr ⟨topic, payload, rfl⟩
  | _ =>
    obtain ⟨body, hf, _⟩ := h
    exact .inl ⟨body, hf⟩

/-- Behind READY, no well-formed stream has a header of a topic twice. -/
theorem not_begins_two_topics {msgs : List (List UInt8 × List UInt8)} {acc : List UInt8} (rest : List UInt8)
    (hacc : acc = encodeGreeting ++ (readyFrame ++ 0x01 :: 0x01 :: 0x01 :: 0x01 :: rest)) : ¬Begins .null msgs acc := by
  rintro ⟨_, _, ⟨is, s, rfl, hi, _, tail, _, ho⟩, hp, _⟩
  rw [hacc] at hp
  have hp : readyFrame ++ 0x01 :: 0x01 :: 0x01 :: 0x01 :: rest <+: s := (List.prefix_append_right_inj _).mp hp
  cases hi with
  | nil => simp [readyFrame] at hp
  | @cons i is wire s hw hi =>
    -- The first item is READY, or an ERROR that READY cannot be.
    have hcommand : ∃ body, IsFrame wire ⟨false, true, body⟩ := by
      rcases hw.first with hf | ⟨topic, payload, rfl⟩
      · exact hf
      · cases ho
    obtain ⟨body, hf⟩ := hcommand
    obtain ⟨ready, hready, _⟩ := isCommand_ready
    obtain ⟨rfl, _⟩ := FrameDecoder.isWire_first hf hready (List.prefix_append _ _) ((List.prefix_append _ _).trans hp)
    rw [List.prefix_append_right_inj] at hp
    cases hi with
    | nil => simp at hp
    | @cons i is wire s hw hi =>
      rcases hw.first with ⟨body, hf⟩ | ⟨topic, payload, rfl⟩
      · exact absurd (show true = flagCommand 0x01 from (hf.flags hp).2) (by decide)
      · obtain ⟨wire1, wire2, rfl, h1, h2⟩ := hw
        have htopic : IsFrame [0x01, 0x01, 0x01] ⟨true, false, [0x01]⟩ :=
          ⟨0x01, [0x01], by decide, by decide, rfl, by decide, by decide, by decide⟩
        rw [List.append_assoc] at hp
        have hfront : [0x01, 0x01, 0x01] <+: wire1 ++ (wire2 ++ s) := (List.prefix_append _ (0x01 :: rest)).trans hp
        obtain ⟨rfl, _⟩ := FrameDecoder.isWire_first h1 htopic (List.prefix_append _ _) hfront
        have hp : 0x01 :: rest <+: wire2 ++ s := (List.prefix_append_right_inj [0x01, 0x01, 0x01]).mp hp
        exact absurd (show false = flagMore 0x01 from (h2.flags hp).1) (by decide)

/-- A SUB peer that subscribes to everything that begins with one byte, over a transport that takes the greeting, READY and the
header of a topic, but not the topic. -/
def tornPublish : Flaky :=
  ⟨⟨[.data 0xFF (Peer.subGreeting.drop 1), .data 0x04 Peer.subReady.tail, .data 0x04 (Peer.subSubscribe [0x66]).tail]⟩,
    [none, none, none, some ⟨7, 0⟩]⟩

/-- The driver that this peer talks to, with its greeting written. -/
def tornPublishDriver : Driver BVec 2 8 32 Flaky :=
  ⟨{ Connection.new with ourGreetingSent := true }, { tornPublish with answers := [none, none, some ⟨7, 0⟩] },
    List.Vector.replicate 512 0, 0⟩

/-- Behind the header of a topic that was not taken, the second publish writes the header of a topic. -/
theorem publish_follows_torn_publish :
    ¬∀ tr d0, (Driver.new tornPublish : List IoEvent × Res ConnError (Driver BVec 2 8 32 Flaky)) = (tr, .ok d0) →
      ∀ h d, DriverRun Driver.policy ⟨.w64, false⟩ d0 h d → Representable ⟨.w64, false⟩ h →
        StaysWellFormed .null (messages h) (tr ++ trace h) := by
  intro hall
  have hrun : DriverRun Driver.policy ⟨.w64, false⟩ tornPublishDriver _ _ :=
    Run.runs_exec _ [.poll, .poll, .poll, .publish [0x66] [0x67], .publish [0x66] [0x67]]
  have hbegins := hall _ _ rfl _ _ hrun (by unfold Representable; decide +kernel) _ (List.prefix_refl _)
  exact not_begins_two_topics [0x66, 0x00, 0x01, 0x67] (by decide +kernel) hbegins

/-- A run all of whose calls but the last are polls that have their writes taken meets the condition. -/
theorem takesNoMore_of_taken {τ T : Type} {cap : Nat} {h : List (Call τ cap T)} {ev : Call τ cap T}
    (ht : (h.all fun ev => decide (ev.op = .poll) && ev.res.1.all fun | .sendFailed _ _ => false | _ => true) = true) :
    TakesNoMore (h ++ [ev]) := by
  have hgood : ∀ ev' ∈ h, ¬LeavesPart ev' ∧ ¬LosesHandshake ev' := by
    intro ev' hev
    obtain ⟨hop, htr⟩ := Bool.and_eq_true_iff.mp (List.all_eq_true.mp ht ev' hev)
    have hnone : ∀ tr s w, ev'.res.1 ≠ tr ++ [.sendFailed s w] := by
      intro tr s w htr'
      have := List.all_eq_true.mp htr (.sendFailed s w) (by rw [htr']; simp)
      cases this
    constructor
    · unfold LeavesPart
      rw [of_decide_eq_true hop]
      rintro ⟨tr, s, w, htr', _⟩
      exact hnone tr s w htr'
    · rintro ⟨tr, s, w, htr', _⟩
      exact hnone tr s w htr'
  intro h1 ev' h2 hh
  rcases List.eq_nil_or_concat h2 with rfl | ⟨h3, x, rfl⟩
  · exact ⟨fun _ e he => (by cases he), fun _ e he => (by cases he)⟩
  · rw [List.concat_eq_append, ← List.cons_append, ← List.append_assoc] at hh
    obtain ⟨rfl, _⟩ := List.append_inj' hh rfl
    obtain ⟨hpart, hlost⟩ := hgood ev' (by simp)
    exact ⟨fun hp => absurd hp hpart, fun hl => absurd hl hlost⟩

/-- Without the second publish, a well-formed stream begins with what the transport has accepted. -/
theorem outbound_well_formed_of_takes_no_more_torn_publish :
    ∃ h d, DriverRun Driver.policy ⟨.w64, false⟩ tornPublishDriver h d ∧ h.length = 4 ∧
      acceptedBytes (trace h) = readyFrame ++ [0x01, 0x01] ∧
      StaysWellFormed .null (messages h) ([.sent (.greeting encodeGreeting)] ++ trace h) := by
  have hpolls : DriverRun Driver.policy ⟨.w64, false⟩ tornPublishDriver _ _ := Run.runs_exec _ [.poll, .poll, .poll]
  have hlive : ∀ ev ∈ (Run.exec (Adapter.step Driver.policy ⟨.w64, false⟩) halts tornPublishDriver [.poll, .poll, .poll]).1,
      halts ev.res = false := by
    decide +kernel
  have hrun := hpolls.snoc (.publish [0x66] [0x67]) hlive
  refine ⟨_, _, hrun, by decide +kernel, by decide +kernel, ?_⟩
  refine (outbound_well_formed_of_takes_no_more BVec Flaky ⟨.w64, false⟩ 2 8 32 (fun _ _ => true) tornPublish).1 _ _ rfl _ _ hrun
    (takesNoMore_of_taken (by decide +kernel)) ?_
  unfold Representable
  decide +kernel

end Mzmq
