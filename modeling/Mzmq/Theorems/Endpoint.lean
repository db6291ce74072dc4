import Mzmq.Lemmas.Endpoint
import Mzmq.Lemmas.Publish
import Mzmq.Theorems.ErrorOnce
import Mzmq.Theorems.Outbound
import Mzmq.Theorems.Tables

/-!
# The drivers are endpoints

Every run of a driver whose transport takes all that is written is a run of the endpoint that it is for, whatever the peer
sends, in whatever pieces, and however the user's publishes come in between: `endpoints_enacted`.
-/

namespace Mzmq

open Checked Consumer Conn Spelling

/-! ## The two roles -/

/-- A PUB connection does what a PUB endpoint is to do. -/
theorem pubEndpoint_implemented {V : Type → Nat → Type} [FixedVec V] (subCap prefixCap : Nat) :
    (pubEndpoint subCap prefixCap).Implements (Connection.role : Role (SubTable V subCap prefixCap)) SubTable.ask
      SubTable.Holds where
  lawful := Connection.role_lawful
  ready := show readyFrame = frameBytes (command readyName (socketTypeProperty [0x50, 0x55, 0x42] (by decide)).enc) by decide
  add := show Connection.subscribeName ≠ pingName by decide
  remove := show Connection.cancelName ≠ pingName by decide
  asks := fun _ => Connection.role_asks
  nothing := SubTable.keys_new
  record := by
    intro t s f h
    simp only [SubTable.ask, pubEndpoint]
    cases subAsk f with
    | add p => exact (SubTable.call_refines t s (.subscribe p) h).2
    | remove p => exact (SubTable.call_refines t s (.cancel p) h).2
    | other => exact h
  wants := by
    rintro t _ key rfl
    exact t.matchesTopic_iff key

/-- A RADIO connection does what a RADIO endpoint is to do. -/
theorem radioEndpoint_implemented {V : Type → Nat → Type} [FixedVec V] (groupCap groupLenCap : Nat) :
    (radioEndpoint groupCap groupLenCap).Implements (RadioConnection.role : Role (GroupTable V groupCap groupLenCap))
      GroupTable.ask GroupTable.Stores where
  lawful := RadioConnection.role_lawful
  ready := show radioReadyFrame =
    frameBytes (command readyName (socketTypeProperty [0x52, 0x41, 0x44, 0x49, 0x4F] (by decide)).enc) by decide
  add := show RadioConnection.joinName ≠ pingName by decide
  remove := show RadioConnection.leaveName ≠ pingName by decide
  asks := fun _ => RadioConnection.role_asks
  nothing := GroupTable.stores_new
  record := by
    intro t s f h
    simp only [GroupTable.ask, radioEndpoint]
    cases groupAsk f with
    | add g => exact (GroupTable.call_refines t s (.join g) h).2
    | remove g => exact (GroupTable.call_refines t s (.leave g) h).2
    | other => exact h
  wants := by
    intro t s key h
    exact (t.matchesGroup_iff key).trans (h.mem key)

namespace Adapter

variable {σ τ T : Type} {cap : Nat} [Transport T] {P : Policy τ} {tgt : Target} {m : Mechanism} {E : Endpoint σ}
  {ask : τ → DecodedFrame → τ} {Holds : τ → σ → Prop} {check : List UInt8 → List UInt8 → Bool} {u : List UInt8} {s : Stage σ}

/-! ## Calls -/

/-- A publish whose pieces the transport takes. -/
theorem publish_taken {a : Adapter τ cap T} {key payload : List UInt8} (hs : a.conn.state = .established)
    (hm : P.role.matchesKey a.conn.table key = true) (hfit : (publishBytes key payload).length < tgt.size)
    (htakes : TakesAll (a.publish P tgt key payload).2.1) :
    acceptedBytes (a.publish P tgt key payload).2.1 = publishBytes key payload ∧
      (a.publish P tgt key payload).2.2 = .ok (publishBytes key payload).length := by
  obtain ⟨th, ph, hok, hth, hph⟩ := publishHeaders_ok hs hm payload
  have htotal := publishTotal_ok hfit
  unfold Adapter.publish at htakes ⊢
  rw [hok] at htakes ⊢
  simp only at htakes ⊢
  rcases a.writeEach_cases [.piece (th.take (topicHeader key).length), .piece key, .piece (ph.take (payloadHeader payload).length),
    .piece payload] with ⟨t, hw, _⟩ | ⟨t, done, x, left, e, _, hw, _⟩
  · rw [hw]
    refine ⟨?_, htotal⟩
    simp only [acceptedBytes_sent, hth, hph, List.flatMap_cons, List.flatMap_nil, Sent.bytes, publishBytes, List.append_nil,
      List.append_assoc]
  · rw [hw] at htakes
    exact absurd ⟨e, by simp⟩ (htakes x)

/-- The bytes of a message. -/
theorem wireOf_message (key payload : List UInt8) : wireOf (message key payload) = publishBytes key payload :=
  congrArg (frameBytes ⟨true, false, key⟩ ++ ·) (List.append_nil _)

/-- An established connection keeps what its peer wants. -/
theorem stands_kept {c : Conn τ cap} (h : Stands E P.role Holds check tgt m u s c) (hs : s.isEstablished = true) :
    ∃ minor kept, s = .established minor kept ∧ Holds c.table kept := by
  cases h with
  | established _ _ hheld => exact ⟨_, _, rfl, hheld⟩
  | _ => cases hs

/-- A publish is the endpoint's. -/
theorem publish_seen (I : E.Implements P.role ask Holds) {a : Adapter τ cap T}
    (h : Stands E P.role Holds check tgt m u s a.conn) {key payload : List UInt8}
    (hfit : a.conn.state = .established → (publishBytes key payload).length < tgt.size)
    (htakes : TakesAll (a.publish P tgt key payload).2.1) :
    ∃ w, E.Step m s (.publish key payload) w s ∧
      Sees ⟨a, .publish key payload, (step P tgt a (.publish key payload)).2, (step P tgt a (.publish key payload)).1⟩
        [.publish key payload] [w] s := by
  -- Nothing goes out.
  have hnone : ∀ (refused : Bool), (a.publish P tgt key payload).2.1 = [] →
      (a.publish P tgt key payload).2.2 = (if refused then .error (.err .wrongState) else .ok 0) →
      Sees ⟨a, .publish key payload, (step P tgt a (.publish key payload)).2, (step P tgt a (.publish key payload)).1⟩
        [.publish key payload] [⟨[], refused⟩] s := by
    intro refused hout hres
    refine ⟨⟨rfl, ?_⟩, ?_⟩
    · simp only [Adapter.step, hres, hout]
      cases refused <;> rfl
    · simp only [Adapter.step, hout]
      rfl
  cases hs : s.isEstablished with
  | false =>
    have hne : a.conn.state ≠ .established := by
      rw [Ne, h.established_iff, hs]
      decide
    have hp := publish_refused P tgt hne key payload
    exact ⟨⟨[], true⟩, .early hs, hnone true (by rw [hp]) (by rw [hp]; rfl)⟩
  | true =>
    have hst : a.conn.state = .established := h.established_iff.mpr hs
    obtain ⟨minor, kept, rfl, hheld⟩ := stands_kept h hs
    · cases hm : P.role.matchesKey a.conn.table key with
      | true =>
        obtain ⟨hacc, hres⟩ := publish_taken hst hm (hfit hst) htakes
        refine ⟨⟨message key payload, false⟩, .wanted ((I.wants key hheld).mp hm), ⟨rfl, ?_⟩, ?_⟩
        · simp only [Adapter.step, hres, hacc]
          rfl
        · exact hacc.trans (by rw [← wireOf_message, framesOf, List.flatMap_singleton])
      | false =>
        have hno : ¬E.wants kept key := by
          rw [← I.wants key hheld, hm]
          decide
        have hp : a.publish P tgt key payload = (a, [], .ok 0) := by
          unfold Adapter.publish
          rw [publishHeaders_none hst hm]
        exact ⟨⟨[], false⟩, .unwanted hno, hnone false (by rw [hp]) (by rw [hp]; rfl)⟩

/-- What a poll that succeeds returns. -/
theorem Steady.poll_value {a : Adapter τ cap T} (hs : Steady m a) {b : Bool} (h : (a.poll P tgt).2.2 = .ok b) :
    b = (a.poll P tgt).1.established := by
  rw [hs.poll_eq P tgt] at h ⊢
  obtain ⟨h1, _, h3⟩ := returning_spec (pollBuffer P tgt a) established
  rw [h3] at h
  rw [h1]
  cases hf : (pollBuffer P tgt a).fault with
  | some f =>
    rw [hf] at h
    cases h
  | none =>
    rw [hf] at h
    exact (Except.ok.inj h).symm

/-! ## Runs -/

/-- Where a driver is with the endpoint after the calls `h`: the connection is that of the driver, unless the last call
panicked. -/
def Tracks (E : Endpoint σ) (R : Role τ) (Holds : τ → σ → Prop) (check : List UInt8 → List UInt8 → Bool) (tgt : Target)
    (m : Mechanism) (h : List (Call τ cap T)) (a : Adapter τ cap T) (is : List Occasion) (s : Stage σ) : Prop :=
  ∃ t u c, consumedBytes (trace h) = t ++ u ∧ Spelled (Occasion.IsWire R check tgt cap m) is t ∧
    Stands E R Holds check tgt m u s c ∧ ((∀ ev ∈ h, halts ev.res = false) → c = a.conn ∧ Steady m a)

/-- A call of a driver. -/
theorem Tracks.step (L : P.Lawful m) (I : E.Implements P.role ask Holds) {h : List (Call τ cap T)} {a : Adapter τ cap T}
    {is : List Occasion} (op : Op) (hlive : ∀ ev ∈ h, halts ev.res = false)
    (k : Tracks E P.role Holds check tgt m h a is s) (htakes : TakesAll (Adapter.step P tgt a op).2.1)
    (hfit : a.conn.state = .established → ∀ key payload, op = .publish key payload →
      (publishBytes key payload).length < tgt.size) :
    ∃ js us s', Run.Path (E.Step m) s js us s' ∧ Sees ⟨a, op, (Adapter.step P tgt a op).2, (Adapter.step P tgt a op).1⟩ js us s' ∧
      Tracks E P.role Holds check tgt m (h ++ [⟨a, op, (Adapter.step P tgt a op).2, (Adapter.step P tgt a op).1⟩])
        (Adapter.step P tgt a op).1 (is ++ js) s' := by
  obtain ⟨t, u, c, hconsumed, hspell, hst, hsteady⟩ := k
  obtain ⟨rfl, hs⟩ := hsteady hlive
  have htrace : consumedBytes (trace (h ++ [⟨a, op, (Adapter.step P tgt a op).2, (Adapter.step P tgt a op).1⟩])) =
      t ++ (u ++ consumedBytes (Adapter.step P tgt a op).2.1) := by
    rw [trace_snoc, consumedBytes_append, hconsumed, List.append_assoc]
  have hlast : (∀ ev ∈ h ++ [⟨a, op, (Adapter.step P tgt a op).2, (Adapter.step P tgt a op).1⟩], halts ev.res = false) →
      halts (Adapter.step P tgt a op).2 = false := fun hall => hall _ (List.mem_append_right _ (List.mem_singleton_self _))
  cases op with
  | publish key payload =>
    obtain ⟨w, hstep, hsees⟩ := publish_seen I hst (fun he => hfit he key payload rfl) htakes
    obtain ⟨t', hp, _, _, hc, _⟩ := a.publish_spec P tgt key payload
    have hnone : consumedBytes (Adapter.step P tgt a (.publish key payload)).2.1 = [] := hc
    have hconn : (a.publish P tgt key payload).1.conn = a.conn := by
      rw [hp]
      rfl
    refine ⟨_, _, s, .single hstep, hsees, t, u, a.conn, ?_, ?_, hst, fun hall => ⟨hconn.symm, hs.step L tgt _ (hlast hall)⟩⟩
    · rw [htrace, hnone, List.append_nil]
    · have happ := hspell.append (.single (k := Occasion.publish key payload) rfl)
      rwa [List.append_nil] at happ
  | poll =>
    obtain ⟨c', hdeeds, hend⟩ := hs.poll_deeds L tgt htakes
    obtain ⟨js, us, s', hpath, hpolled, ⟨t', u', hc, hspell', hst'⟩, hacc⟩ := hst.deeds I hdeeds
    have hc : u ++ consumedBytes (Adapter.step P tgt a .poll).2.1 = t' ++ u' := hc
    have hconn : ∀ b, (a.poll P tgt).2.2 = .ok b → c' = (a.poll P tgt).1.conn := by
      intro b hb
      rcases hend with he | ⟨f, hf, _⟩
      · exact he
      · rw [hb] at hf
        cases hf
    refine ⟨js, us, s', hpath, ⟨⟨hpolled, ?_⟩, hacc⟩, t ++ t', u', c', ?_, hspell.append hspell', hst', fun hall => ?_⟩
    · intro b hb
      have hb : (a.poll P tgt).2.2 = .ok b := by simpa [Adapter.step] using hb
      rw [hs.poll_value hb, established, ← hconn b hb, Bool.eq_iff_iff, beq_iff_eq]
      exact hst'.established_iff
    · rw [htrace, hc, List.append_assoc]
    · refine ⟨?_, hs.step L tgt _ (hlast hall)⟩
      rcases hend with he | ⟨f, hf, hab⟩
      · exact he
      · have hl := hlast hall
        simp only [Adapter.step, halts, Returned.fault, hf] at hl
        exact absurd (hab.symm.trans hl) (by decide)

/-- A driver that has started stands in the greeting. -/
theorem start_stands {R : Role τ} {auth : Auth} {t : T} {tr : List IoEvent} {a0 : Adapter τ cap T}
    (h0 : start (Conn.init R m auth) t = (tr, .ok a0)) : Stands E R Holds auth.check tgt m [] .greeting a0.conn := by
  obtain ⟨_, hconn, _⟩ := start_spec h0
  rw [hconn]
  exact .greeting rfl rfl rfl rfl ⟨Nat.zero_le _, Nat.zero_le _, .inl rfl⟩ (by decide) rfl

/-- A driver that has started enacts its endpoint, if the messages that it can send have lengths that add up. -/
theorem enacts_of_fits (L : P.Lawful m) (I : E.Implements P.role ask Holds) {auth : Auth} {t : T} {tr : List IoEvent}
    {a0 a : Adapter τ cap T} (h0 : start (Conn.init P.role m auth) t = (tr, .ok a0)) {h : List (Call τ cap T)}
    (hr : DriverRun P tgt a0 h a) (htakes : TakesAll (trace h))
    (hfit : ∀ ev ∈ h, ev.pre.conn.state = .established → ∀ key payload, ev.op = .publish key payload →
      (publishBytes key payload).length < tgt.size) :
    ∃ is ws s, Enacts E P.role auth.check tgt m h is ws s ∧ Tracks E P.role Holds auth.check tgt m h a is s := by
  have hstart : Tracks E P.role Holds auth.check tgt m ([] : List (Call τ cap T)) a0 [] .greeting :=
    ⟨[], [], a0.conn, rfl, .nil, start_stands h0, fun _ => ⟨rfl, start_steady h0⟩⟩
  let Good : Call τ cap T → Prop := fun ev => TakesAll ev.res.1 ∧ (ev.pre.conn.state = .established →
    ∀ key payload, ev.op = .publish key payload → (publishBytes key payload).length < tgt.size)
  have hgood : ∀ ev ∈ h, Good ev := by
    intro ev hev
    refine ⟨?_, hfit ev hev⟩
    rintro x ⟨e, he⟩
    exact htakes x ⟨e, List.mem_flatMap.mpr ⟨ev, hev, he⟩⟩
  have hrel : ∀ (h : List (Call τ cap T)) a is s, Tracks E P.role Holds auth.check tgt m h a is s →
      Spells E P.role auth.check tgt m h is s := by
    intro h a is s k
    obtain ⟨t, u, c, hc, hspell, hst, _⟩ := k
    exact ⟨t, u, hc, hspell, fun i w s' wire hstep hw hne => hst.no_more hstep hw hne⟩
  exact hr.matched (Tracks E P.role Holds auth.check tgt m) Good hstart
    (fun h a is s op hlive k hg => k.step L I op hlive hg.1 hg.2) hrel hgood

/-- A driver that has started enacts its endpoint. -/
theorem enacts_of_run (L : P.Lawful m) (I : E.Implements P.role ask Holds) {auth : Auth} {t : T} {tr : List IoEvent}
    {a0 a : Adapter τ cap T} (h0 : start (Conn.init P.role m auth) t = (tr, .ok a0)) {h : List (Call τ cap T)}
    (hr : DriverRun P tgt a0 h a) (htakes : TakesAll (trace h)) (hcount : SumsFit tgt h) :
    ∃ is ws s, Enacts E P.role auth.check tgt m h is ws s ∧ Tracks E P.role Holds auth.check tgt m h a is s := by
  refine enacts_of_fits L I h0 hr htakes fun ev hev _ key payload hop => ?_
  have hmem : (key, payload) ∈ messages h := List.mem_filterMap.mpr ⟨ev, hev, by rw [hop]; rfl⟩
  have hsum := hcount _ hmem
  have h1 := frameHeader_length_le (headerBits true false) key.length
  have h2 := frameHeader_length_le (headerBits false false) payload.length
  rw [publishBytes_length, topicHeader, payloadHeader]
  simp only at hsum
  omega

end Adapter

open Adapter

/-- What follows for every lawful driver holds of every driver. -/
theorem everyDriver_of_lawful {V : Type → Nat → Type} [FixedVec V] {T : Type} [Transport T] {tgt : Target}
    {tableCap nameCap frameCap : Nat} {check : List UInt8 → List UInt8 → Bool} {t : T}
    {Q : ∀ {σ τ : Type}, Endpoint σ → Policy τ → (List UInt8 → List UInt8 → Bool) → Mechanism → List IoEvent →
      List (Call τ frameCap T) → Adapter τ frameCap T → Prop}
    (hQ : ∀ {σ τ : Type} {E : Endpoint σ} {P : Policy τ} {m : Mechanism} {ask : τ → DecodedFrame → τ} {Holds : τ → σ → Prop}
      {auth : Auth} {tr : List IoEvent} {a0 a : Adapter τ frameCap T} {h : List (Call τ frameCap T)}, P.Lawful m →
      E.Implements P.role ask Holds → start (Conn.init P.role m auth) t = (tr, .ok a0) → DriverRun P tgt a0 h a →
      Q E P auth.check m tr h a) :
    EveryDriver V tgt tableCap nameCap frameCap check t Q where
  null := fun _ _ h0 _ _ hr => hQ (Driver.policy_lawful .null) (pubEndpoint_implemented _ _) h0 hr
  plain := fun _ _ h0 _ _ hr => hQ (Driver.policy_lawful .plain) (pubEndpoint_implemented _ _) h0 hr
  radio := fun _ _ h0 _ _ hr => hQ RadioDriver.policy_lawful (radioEndpoint_implemented _ _) h0 hr
  radioAsync := fun _ _ h0 _ _ hr => hQ RadioDriver.asyncPolicy_lawful (radioEndpoint_implemented _ _) h0 hr

/-- In every run of a driver in which the transport takes all that is written and the lengths of every message add up, whatever
the peer sends, the transport accepts our greeting and then what the endpoint answers, call by call, to what the driver has
consumed and to what the user publishes. -/
theorem endpoints_enacted (V : Type → Nat → Type) [FixedVec V] (T : Type) [Transport T] (tgt : Target)
    (tableCap nameCap frameCap : Nat) (check : List UInt8 → List UInt8 → Bool) (t : T) :
    EveryDriver V tgt tableCap nameCap frameCap check t fun E P check m tr h _ => TakesAll (trace h) → SumsFit tgt h →
      acceptedBytes tr = greetingBytes m ∧ ∃ is ws s, Enacts E P.role check tgt m h is ws s :=
  everyDriver_of_lawful fun L I h0 hr htakes hfit => by
    obtain ⟨is, ws, s, hm, _⟩ := enacts_of_run L I h0 hr htakes hfit
    exact ⟨(start_tracked h0).1, is, ws, s, hm⟩

/-- A DISH peer of version 3.1 that joins the group "a" and sends a PING, in two pieces. -/
def joiningPeer : Slices :=
  ⟨[.data 0xFF ((Peer.subGreeting ++ Peer.dishReady).drop 1), .data 0x04 ((Peer.dishJoin [0x61] ++
    Peer.commandFrame pingName [0, 9, 0x42]).drop 1)]⟩

/-- The driver that this peer talks to, with its greeting written. -/
def joiningPeerDriver : RadioDriver BVec 2 8 32 Slices :=
  ⟨{ RadioConnection.new with ourGreetingSent := true }, joiningPeer, List.Vector.replicate 512 0, 0⟩

/-- A run of this driver: the first publish comes too early, the second is for the group of the peer, and the third is not. -/
def joiningCalls : List (Call (GroupTable BVec 2 8) 32 Slices) :=
  (Run.exec (Adapter.step RadioDriver.asyncPolicy ⟨.w32, true⟩) halts joiningPeerDriver
    [.publish [0x61] [0], .poll, .poll, .poll, .publish [0x61] [1, 2], .publish [0x62] [3]]).1

/-- The driver behind this run. -/
def joinedDriver : RadioDriver BVec 2 8 32 Slices :=
  (Run.exec (Adapter.step RadioDriver.asyncPolicy ⟨.w32, true⟩) halts joiningPeerDriver
    [.publish [0x61] [0], .poll, .poll, .poll, .publish [0x61] [1, 2], .publish [0x62] [3]]).2

theorem joiningCalls_run : DriverRun RadioDriver.asyncPolicy ⟨.w32, true⟩ joiningPeerDriver joiningCalls joinedDriver :=
  Run.runs_exec _ _

theorem joiningCalls_taken : TakesAll (trace joiningCalls) := takesAll_of_all (by decide +kernel)

theorem joiningCalls_fit : SumsFit ⟨.w32, true⟩ joiningCalls := by
  unfold SumsFit
  decide +kernel

/-- The peer is sent our READY, a PONG, and the message for its group. -/
theorem endpoints_enacted_joined :
    acceptedBytes (trace joiningCalls) = radioReadyFrame ++ Conn.pongFrame [0x42] ++ publishBytes [0x61] [1, 2] ∧
      ∃ is ws s, Enacts (radioEndpoint 2 8) (RadioConnection.role : Role (GroupTable BVec 2 8)) Auth.unit.check ⟨.w32, true⟩
        .null joiningCalls is ws s :=
  ⟨by decide +kernel, ((endpoints_enacted BVec Slices ⟨.w32, true⟩ 2 8 32 (fun _ _ => true) joiningPeer).radioAsync _ _ rfl _ _
    joiningCalls_run joiningCalls_taken joiningCalls_fit).2⟩

end Mzmq
