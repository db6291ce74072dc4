import Mzmq.Filter
import Mzmq.Outbound
import Mzmq.Lemmas.Order
import Mzmq.Lemmas.Publish
import Mzmq.Lemmas.Session

/-!
# Complete outbound streams

The frames that the connection writes are items of the outbound stream. A stream of complete items in order (`Complete`) goes
on to a well-formed one, and so does every part at its beginning.
-/

namespace Mzmq

open Checked

/-! ## The items that a connection writes -/

/-- A short command frame, on every target. -/
theorem isWire_short (tgt : Target) (name rest : List UInt8) (h : name.length + rest.length < 255) :
    IsWire tgt (0x04 :: UInt8.ofNat (1 + name.length + rest.length) :: UInt8.ofNat name.length :: (name ++ rest))
      ⟨false, true, commandBody name rest⟩ := by
  have hlen : (commandBody name rest).length = 1 + name.length + rest.length := by
    rw [commandBody, List.length_cons, List.length_append]
    omega
  have hsize : (commandBody name rest).length < tgt.size := by
    by_cases hw : tgt.width = .w32
    · rw [hlen, Target.size_w32 hw]
      omega
    · rw [hlen, Target.size_w64 hw]
      omega
  have := isWire_frameHeader (f := ⟨false, true, commandBody name rest⟩) (fun _ => rfl) hsize
  rwa [frameHeader, hlen, if_pos (by omega)] at this

/-- It is a command with its name. -/
theorem isCommand_short (name rest : List UInt8) (h : name.length + rest.length < 255) :
    IsCommand name (0x04 :: UInt8.ofNat (1 + name.length + rest.length) :: UInt8.ofNat name.length :: (name ++ rest)) :=
  ⟨commandBody name rest, isWire_short ⟨.w64, false⟩ name rest h, by omega, rest, rfl⟩

theorem isCommand_welcome : IsCommand welcomeName welcomeFrame := isCommand_short welcomeName [] (by decide)

theorem isCommand_ready : IsCommand readyName readyFrame := isCommand_short readyName (readyFrame.drop 8) (by decide)

theorem isCommand_radioReady : IsCommand readyName radioReadyFrame :=
  isCommand_short readyName (radioReadyFrame.drop 8) (by decide)

theorem isCommand_pong {ctx : List UInt8} (h : ctx.length ≤ 16) : IsCommand pongName (Conn.pongFrame ctx) := by
  have hshort := isCommand_short pongName ctx (by simp only [pongName, List.length_cons, List.length_nil]; omega)
  have hlen : 1 + pongName.length + ctx.length = 5 + ctx.length := rfl
  rw [hlen] at hshort
  exact hshort

theorem isCommand_error : IsCommand errorName Conn.errorFrame := isCommand_short errorName (0x13 :: invalidSocketType) (by decide)

/-- A new connection sends our greeting. -/
theorem Conn.sendGreeting_init {τ : Type} {cap : Nat} (R : Role τ) (m : Mechanism) (auth : Auth) :
    (Conn.init R m auth : Conn τ cap).sendGreeting =
      ⟨{ Conn.init R m auth with ourGreetingSent := true }, [.greeting (greetingBytes m)], none⟩ := by
  cases m <;> rfl

/-- A publish whose lengths fit 64 bits. -/
theorem isWire_publish {topic payload : List UInt8} (ht : topic.length < 2 ^ 64) (hp : payload.length < 2 ^ 64) :
    (Item.publish topic payload).IsWire (publishBytes topic payload) := by
  have hsize : (⟨.w64, false⟩ : Target).size = 2 ^ 64 := Target.size_w64 (by decide)
  exact ⟨topicHeader topic ++ topic, payloadHeader payload ++ payload, rfl, isWire_topic (by rw [hsize]; exact ht),
    isWire_payload (by rw [hsize]; exact hp)⟩

/-! ## Accepted bytes -/

section Accepted

variable (x y : List IoEvent)

@[simp] theorem acceptedBytes_nil : acceptedBytes [] = [] := rfl

@[simp] theorem acceptedBytes_append : acceptedBytes (x ++ y) = acceptedBytes x ++ acceptedBytes y := List.flatMap_append

@[simp] theorem acceptedBytes_singleton (e : IoEvent) : acceptedBytes [e] = e.accepted := List.append_nil _

theorem acceptedBytes_sent (ss : List Sent) : acceptedBytes (ss.map .sent) = ss.flatMap Sent.bytes := by
  rw [acceptedBytes, List.flatMap_map]
  rfl

/-- Nothing is accepted when nothing is accepted in any event. -/
theorem acceptedBytes_eq_nil {tr : List IoEvent} (h : ∀ e ∈ tr, e.accepted = []) : acceptedBytes tr = [] :=
  List.flatMap_eq_nil_iff.mpr h

theorem acceptedBytes_mono {x y : List IoEvent} (h : x <+: y) : acceptedBytes x <+: acceptedBytes y := by
  obtain ⟨z, rfl⟩ := h
  rw [acceptedBytes_append]
  exact List.prefix_append _ _

end Accepted

/-! ## Streams of complete items -/

variable {m : Mechanism} {msgs msgs' : List (List UInt8 × List UInt8)} {acc acc' wire : List UInt8} {is : List Item} {i : Item}

/-- One more item at the end. -/
theorem IsItems.snoc {s : List UInt8} (h : IsItems is s) (hi : i.IsWire wire) : IsItems (is ++ [i]) (s ++ wire) := by
  induction h with
  | nil =>
    have := IsItems.cons hi .nil
    rwa [List.append_nil] at this
  | cons hj _ ih =>
    rw [List.append_assoc]
    exact .cons hj ih

/-- `acc` is the greeting and the wire form of `is`, whose messages are out of `msgs`. -/
def Written (m : Mechanism) (msgs : List (List UInt8 × List UInt8)) (is : List Item) (acc : List UInt8) : Prop :=
  ∃ s, acc = greetingBytes m ++ s ∧ IsItems is s ∧ (is.filterMap Item.message).Sublist msgs

theorem Written.mono (h : Written m msgs is acc) (hs : msgs.Sublist msgs') : Written m msgs' is acc := by
  obtain ⟨s, hacc, hi, hm⟩ := h
  exact ⟨s, hacc, hi, hm.trans hs⟩

/-- One more item. -/
theorem Written.snoc (h : Written m msgs is acc) (hi : i.IsWire wire) (hs : (msgs ++ i.message.toList).Sublist msgs') :
    Written m msgs' (is ++ [i]) (acc ++ wire) := by
  obtain ⟨s, rfl, his, hm⟩ := h
  refine ⟨s ++ wire, by rw [List.append_assoc], his.snoc hi, ?_⟩
  have hlast : [i].filterMap Item.message = i.message.toList := by
    cases hi : i.message <;> simp [hi]
  rw [List.filterMap_append, hlast]
  exact (hm.append_right _).trans hs

theorem itemOutputs_snoc (is : List Item) (i : Item) : itemOutputs (is ++ [i]) = itemOutputs is ++ i.output.toList := by
  have hlast : [i].filterMap Item.output = i.output.toList := by
    cases hi : i.output <;> simp [hi]
  rw [itemOutputs, List.filterMap_append, hlast]
  rfl

/-- `acc` is made up of complete items in order. -/
def Complete (m : Mechanism) (msgs : List (List UInt8 × List UInt8)) (acc : List UInt8) : Prop :=
  ∃ is, Written m msgs is acc ∧ InOrder m (itemOutputs is)

theorem Complete.mono (h : Complete m msgs acc) (hs : msgs.Sublist msgs') : Complete m msgs' acc := by
  obtain ⟨is, hw, ho⟩ := h
  exact ⟨is, hw.mono hs, ho⟩

/-- One more ERROR. -/
theorem Complete.error (h : Complete m msgs acc) : Complete m msgs (acc ++ Conn.errorFrame) := by
  obtain ⟨is, hw, ho⟩ := h
  have he : Item.error.IsWire Conn.errorFrame := isCommand_error
  have hmsg : msgs ++ Item.error.message.toList = msgs := List.append_nil msgs
  have hout : itemOutputs (is ++ [.error]) = itemOutputs is := by
    rw [itemOutputs_snoc]
    exact List.append_nil _
  refine ⟨is ++ [.error], hw.snoc he (by rw [hmsg]), ?_⟩
  rw [hout]
  exact ho

/-- What is left of the handshake can be written behind any items. -/
theorem Written.handshake (h : Written m msgs is acc) (os : List Output) (hos : ∀ o ∈ os, o = .welcome ∨ o = .ready) :
    ∃ is' s, Written m msgs is' (acc ++ s) ∧ itemOutputs is' = itemOutputs is ++ os := by
  induction os generalizing is acc with
  | nil => exact ⟨is, [], by rwa [List.append_nil], by rw [List.append_nil]⟩
  | cons o os ih =>
    have hnext : ∃ (i : Item) (wire : List UInt8), i.IsWire wire ∧ i.message = none ∧ i.output = some o := by
      rcases hos o List.mem_cons_self with rfl | rfl
      · exact ⟨.welcome, welcomeFrame, isCommand_welcome, rfl, rfl⟩
      · exact ⟨.ready, readyFrame, isCommand_ready, rfl, rfl⟩
    obtain ⟨i, wire, hi, hmsg, hout⟩ := hnext
    have hw : Written m msgs (is ++ [i]) (acc ++ wire) := h.snoc hi (by rw [hmsg, Option.toList_none, List.append_nil])
    obtain ⟨is', s, hw', hos'⟩ := ih hw fun o' ho' => hos o' (List.mem_cons_of_mem _ ho')
    refine ⟨is', wire ++ s, by rwa [← List.append_assoc], ?_⟩
    rw [hos', itemOutputs_snoc, hout, Option.toList_some, List.append_assoc]
    rfl

/-- A well-formed stream begins with complete items that are in order. -/
theorem Complete.begins (h : Complete m msgs acc) : Begins m msgs acc := by
  obtain ⟨is, hw, tail, ht, ho⟩ := h
  rcases List.prefix_or_prefix_of_prefix ho (List.prefix_append (handshakeOutputs m) tail) with hpre | ⟨tail', htail⟩
  · -- The rest of the handshake is still to come.
    obtain ⟨os, hos⟩ := hpre
    have hrest : ∀ o ∈ os, o = .welcome ∨ o = .ready := by
      intro o hmem
      have hin : o ∈ is.filterMap Item.output ++ os := List.mem_append_right _ hmem
      cases m with
      | null =>
        have hos : is.filterMap Item.output ++ os = [.ready] := (List.cons.inj hos).2
        rw [hos] at hin
        exact .inr (List.mem_singleton.mp hin)
      | plain =>
        have hos : is.filterMap Item.output ++ os = [.welcome, .ready] := (List.cons.inj hos).2
        rw [hos] at hin
        simpa using hin
    obtain ⟨is', s, ⟨s', hacc, hi, hm⟩, hout⟩ := hw.handshake os hrest
    exact ⟨_, acc ++ s, ⟨is', s', hacc, hi, rfl, [], by simp, by rw [hout, hos, List.append_nil]⟩, List.prefix_append _ _, hm⟩
  · obtain ⟨s, hacc, hi, hm⟩ := hw
    refine ⟨_, acc, ⟨is, s, hacc, hi, rfl, tail', ?_, htail.symm⟩, List.prefix_refl _, hm⟩
    intro o hmem
    rw [← htail, List.prefix_append_right_inj] at ho
    exact ht o (ho.subset hmem)

theorem Begins.front (h : Begins m msgs acc) (hp : acc' <+: acc) : Begins m msgs acc' := by
  obtain ⟨msgs', stream, hw, hacc, hm⟩ := h
  exact ⟨msgs', stream, hw, hp.trans hacc, hm⟩

theorem Begins.mono (h : Begins m msgs acc) (hs : msgs.Sublist msgs') : Begins m msgs' acc := by
  obtain ⟨msgs1, stream, hw, hacc, hm⟩ := h
  exact ⟨msgs1, stream, hw, hacc, hm.trans hs⟩

/-- What holds at the end held at every moment. -/
theorem Begins.stays {tr : List IoEvent} (h : Begins m msgs (acceptedBytes tr)) : StaysWellFormed m msgs tr :=
  fun _ hp => h.front (acceptedBytes_mono hp)

end Mzmq
