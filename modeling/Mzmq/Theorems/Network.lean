import Mzmq.Lemmas.Network
import Mzmq.Theorems.Endpoint
import Mzmq.Theorems.ExactlyOnce

/-!
# Two publishers

Nothing that a driver of this library says before it is connected brings the handshake of another one further: READY announces
a PUB or a RADIO, which neither a PUB nor a RADIO talks to, and WELCOME and ERROR are for clients. So two drivers that are
connected to each other stay apart (`publishers_stay_apart`). At every moment what one end has written is what the other has
read, what has arrived there, and what is in flight (`Linked`); and as long as each end is apart, it has written nothing else.
-/

namespace Mzmq

open Checked Consumer Adapter

/-! ## What a publisher says, and what it listens to -/

/-- What an endpoint says before it is connected. -/
def Endpoint.Opens {σ : Type} (E : Endpoint σ) (f : DecodedFrame) : Prop := f = E.ready ∨ f = command welcomeName [] ∨ f = refusal

namespace Network

variable {σ τ : Type} {cap : Nat}

/-- A frame that does not bring a handshake any further. -/
structure Ignored (R : Role τ) (tgt : Target) (f : DecodedFrame) : Prop where
  wire : Mzmq.IsWire tgt (frameBytes f) f
  ready : ∀ t, R.parseReady tgt f.isCommand f.body ≠ .ok t
  hello : ∀ u p, parseHelloFrom f.isCommand f.body ≠ .ok (u, p)

/-- A step that does not lead to a connection, and what is said in it. -/
theorem step_opens {E : Endpoint σ} {m : Mechanism} {s s' : Stage σ} {i : Occasion} {w : Reply} (h : E.Step m s i w s')
    (hs : s'.isEstablished = false) : s.isEstablished = false ∧ ∀ f ∈ w.frames, E.Opens f := by
  cases h with
  | greeted => exact ⟨rfl, fun f hf => .inl (List.mem_singleton.mp hf)⟩
  | greetedPlain => exact ⟨rfl, fun f hf => (by cases hf)⟩
  | hello =>
    refine ⟨rfl, fun f hf => ?_⟩
    rcases List.mem_cons.mp hf with rfl | hf
    · exact .inr (.inl rfl)
    · exact .inl (List.mem_singleton.mp hf)
  | ready => cases hs
  | readyPlain => cases hs
  | heard => cases hs
  | gaveUp _ hne => exact ⟨hne, fun f hf => .inr (.inr (List.mem_singleton.mp hf))⟩
  | wanted _ => cases hs
  | unwanted _ => cases hs
  | early _ => exact ⟨hs, fun f hf => (by cases hf)⟩

/-- An endpoint that is not connected has said nothing else. -/
theorem path_opens {E : Endpoint σ} {m : Mechanism} {s s' : Stage σ} {is : List Occasion} {ws : List Reply}
    (h : Run.Path (E.Step m) s is ws s') (hs : s'.isEstablished = false) :
    s.isEstablished = false ∧ ∀ f ∈ framesOf ws, E.Opens f := by
  induction h with
  | nil => exact ⟨hs, fun f hf => (by cases hf)⟩
  | cons hstep _ ih =>
    obtain ⟨hmid, hrest⟩ := ih hs
    obtain ⟨hfirst, hsaid⟩ := step_opens hstep hmid
    refine ⟨hfirst, fun f hf => ?_⟩
    rw [framesOf, List.flatMap_cons] at hf
    rcases List.mem_append.mp hf with hf | hf
    · exact hsaid f hf
    · exact hrest f hf

/-- What an endpoint has before it when it hears a publisher: the greeting, frames that it ignores, or nothing it cares for. -/
def Before (m' : Mechanism) (fs : List DecodedFrame) (t : List UInt8) : Stage σ → Prop
  | .greeting => t <+: greetingBytes m' ++ wireOf fs
  | .opening _ => t <+: wireOf fs
  | .failed => True
  | _ => False

theorem before_not_established {m' : Mechanism} {fs : List DecodedFrame} {t : List UInt8} {s : Stage σ} (h : Before m' fs t s) :
    s.isEstablished = false := by
  cases s with
  | established _ _ => exact h.elim
  | _ => rfl

theorem greetingBytes_length (m : Mechanism) : (greetingBytes m).length = 64 := by cases m <;> decide

variable {R : Role τ} {check : List UInt8 → List UInt8 → Bool} {tgt : Target} {m m' : Mechanism} {fs : List DecodedFrame}

/-- No frame that is ignored is a READY or a HELLO that is accepted. -/
theorem first_ignored (hfs : ∀ f ∈ fs, Ignored R tgt f) {wire t : List UInt8} {f : DecodedFrame} (hw : Mzmq.IsWire tgt wire f)
    (hp : wire ++ t <+: wireOf fs) : Ignored R tgt f := by
  have hwire : wire <+: wireOf fs := (List.prefix_append wire t).trans hp
  cases fs with
  | nil =>
    rw [wireOf, List.flatMap_nil, List.prefix_nil] at hwire
    subst hwire
    obtain ⟨_, _, _, _, hw, _⟩ := hw
    cases hw
  | cons g gs =>
    have hg := hfs g List.mem_cons_self
    have hfirst : frameBytes g <+: wireOf (g :: gs) := by
      rw [wireOf, List.flatMap_cons]
      exact List.prefix_append _ _
    obtain ⟨_, rfl⟩ := FrameDecoder.isWire_first hw hg.wire hwire hfirst
    exact hg

/-- An endpoint that hears nothing but the greeting and frames that it ignores is not connected. -/
theorem path_before {E : Endpoint σ} (hfs : ∀ f ∈ fs, Ignored R tgt f) {s s' : Stage σ} {is : List Occasion} {ws : List Reply}
    (h : Run.Path (E.Step m) s is ws s') : ∀ {t : List UInt8}, Spelling.Spelled (Occasion.IsWire R check tgt cap m) is t →
      Before m' fs t s → s'.isEstablished = false := by
  induction h with
  | nil => exact fun _ hb => before_not_established hb
  | cons hstep _ ih =>
    intro t hspell hb
    cases hspell with
    | cons hw hrest =>
    refine ih hrest ?_
    -- A frame that brings the handshake further is none of those that are ignored.
    have hready : ∀ {wire t : List UInt8}, AcceptedReady R tgt wire → ¬wire ++ t <+: wireOf fs := by
      rintro wire t ⟨f, hw, _, _, ty, hty⟩ hp
      exact (first_ignored hfs hw hp).ready ty hty
    have hhello : ∀ {wire t : List UInt8}, AcceptedHello check tgt wire → ¬wire ++ t <+: wireOf fs := by
      rintro wire t ⟨f, hw, _, u, p, hup, _⟩ hp
      exact (first_ignored hfs hw hp).hello u p hup
    have hgreeted : ∀ {wire t : List UInt8} {minor : UInt8}, Greeted m wire minor →
        wire ++ t <+: greetingBytes m' ++ wireOf fs → t <+: wireOf fs := by
      rintro wire t minor ⟨buf, rfl, _⟩ hp
      have hlen : buf.toList.length = (greetingBytes m').length := by
        rw [greetingBytes_length, List.Vector.toList_length]
      have hsame : buf.toList = greetingBytes m' :=
        (List.prefix_of_prefix_length_le ((List.prefix_append _ _).trans hp) (List.prefix_append _ _) (by omega)).eq_of_length hlen
      rw [hsame] at hp
      exact (List.prefix_append_right_inj _).mp hp
    cases hstep with
    | greeted => exact hgreeted hw hb
    | greetedPlain => exact hgreeted hw hb
    | hello => exact (hhello hw.1 hb).elim
    | ready => exact (hready hw.1 hb).elim
    | readyPlain => exact hb.elim
    | heard => exact hb.elim
    | gaveUp _ _ => trivial
    | wanted _ => exact hb.elim
    | unwanted _ => exact hb.elim
    | early _ =>
      have hnil : _ = [] := hw
      rw [hnil] at hb
      exact hb

/-! ## The drivers of the library -/

/-- What the drivers of the library say before they are connected: the READYs of PUB and RADIO, WELCOME and ERROR. -/
def said : List DecodedFrame :=
  [(pubEndpoint 0 0).ready, (radioEndpoint 0 0).ready, command welcomeName [], refusal]

theorem pub_ready_said (subCap prefixCap : Nat) : (pubEndpoint subCap prefixCap).ready ∈ said := List.mem_cons_self

theorem radio_ready_said (groupCap groupLenCap : Nat) : (radioEndpoint groupCap groupLenCap).ready ∈ said :=
  List.mem_cons_of_mem _ List.mem_cons_self

theorem said_short : ∀ f ∈ said, f.isCommand = true ∧ f.more = false ∧ f.body.length < 2 ^ 32 := by decide +kernel

theorem parseReadyFrom_said (tgt : Target) : ∀ f ∈ said, (parseReadyFrom tgt f.isCommand f.body).isOk = false := by
  rcases tgt with ⟨_ | _, _ | _⟩ <;> decide +kernel

theorem parseReadyRadioFrom_said (tgt : Target) : ∀ f ∈ said, (parseReadyRadioFrom tgt f.isCommand f.body).isOk = false := by
  rcases tgt with ⟨_ | _, _ | _⟩ <;> decide +kernel

theorem parseHelloFrom_said : ∀ f ∈ said, (parseHelloFrom f.isCommand f.body).isOk = false := by decide +kernel

/-- A connection whose parser takes none of the READYs ignores all that drivers of the library say. -/
theorem ignored_of_said {τ : Type} {R : Role τ} {tgt : Target} {f : DecodedFrame} (hf : f ∈ said)
    (hready : (R.parseReady tgt f.isCommand f.body).isOk = false) : Ignored R tgt f := by
  obtain ⟨_, hmore, hlen⟩ := said_short f hf
  refine ⟨isWire_frameHeader (fun _ => hmore) (hlen.trans_le tgt.size_ge), fun t ht => ?_, fun u p hup => ?_⟩
  · rw [ht] at hready
    cases hready
  · have hhello := parseHelloFrom_said f hf
    rw [hup] at hhello
    cases hhello

/-- What is needed of a driver of the library: it is lawful, implements an endpoint, says nothing else before it is connected,
and ignores what the drivers of the library say. -/
structure Speaks {σ τ : Type} {cap : Nat} (P : Policy τ) (c : Conn τ cap) (E : Endpoint σ) (m : Mechanism)
    (ask : τ → DecodedFrame → τ) (Holds : τ → σ → Prop) (auth : Auth) : Prop where
  lawful : P.Lawful m
  implements : E.Implements P.role ask Holds
  starts : c = Conn.init P.role m auth
  announces : E.ready ∈ said
  ignores : ∀ tgt, ∀ f ∈ said, Ignored P.role tgt f

theorem Speaks.opens {σ τ : Type} {cap : Nat} {P : Policy τ} {c : Conn τ cap} {E : Endpoint σ} {m : Mechanism}
    {ask : τ → DecodedFrame → τ} {Holds : τ → σ → Prop} {auth : Auth} (S : Speaks P c E m ask Holds auth) {f : DecodedFrame}
    (h : E.Opens f) : f ∈ said := by
  rcases h with rfl | rfl | rfl
  · exact S.announces
  · simp [said]
  · simp [said]

theorem speaks_of_publisher {V : Type → Nat → Type} [FixedVec V] {tableCap nameCap frameCap : Nat}
    {check : List UInt8 → List UInt8 → Bool} {τ : Type} {P : Policy τ} {c : Conn τ frameCap}
    (h : Publisher V tableCap nameCap frameCap check P c) :
    ∃ (σ : Type) (E : Endpoint σ) (m : Mechanism) (ask : τ → DecodedFrame → τ) (Holds : τ → σ → Prop) (auth : Auth),
      Speaks P c E m ask Holds auth := by
  have hpub : ∀ tgt, ∀ f ∈ said, Ignored (Driver.policy : Policy (SubTable V tableCap nameCap)).role tgt f :=
    fun tgt f hf => ignored_of_said hf (parseReadyFrom_said tgt f hf)
  have hradio : ∀ tgt, ∀ f ∈ said, Ignored (RadioDriver.policy : Policy (GroupTable V tableCap nameCap)).role tgt f :=
    fun tgt f hf => ignored_of_said hf (parseReadyRadioFrom_said tgt f hf)
  cases h with
  | null =>
    exact ⟨_, _, _, _, _, _, Driver.policy_lawful .null, pubEndpoint_implemented _ _, rfl, pub_ready_said _ _, hpub⟩
  | plain =>
    exact ⟨_, _, _, _, _, _, Driver.policy_lawful .plain, pubEndpoint_implemented _ _, rfl, pub_ready_said _ _, hpub⟩
  | radio =>
    exact ⟨_, _, _, _, _, _, RadioDriver.policy_lawful, radioEndpoint_implemented _ _, rfl, radio_ready_said _ _, hradio⟩
  | radioAsync =>
    exact ⟨_, _, _, _, _, _, RadioDriver.asyncPolicy_lawful, radioEndpoint_implemented _ _, rfl, radio_ready_said _ _, hradio⟩

/-! ## One end -/

section Ends

variable {σ τ : Type} {cap : Nat} {P : Policy τ} {c : Conn τ cap} {E : Endpoint σ} {m m' : Mechanism}
  {ask : τ → DecodedFrame → τ} {Holds : τ → σ → Prop} {auth : Auth} {tgt : Target}

/-- An end that is not connected, with what it has written and what it has read: greeting and frames that are said before a
connection stands. -/
structure Apart (E : Endpoint σ) (R : Role τ) (Holds : τ → σ → Prop) (check : List UInt8 → List UInt8 → Bool) (tgt : Target)
    (m : Mechanism) (n : Node τ cap) (h : List (Call τ cap Pipe)) (is : List Occasion) (ws : List Reply) (s : Stage σ) : Prop where
  path : Run.Path (E.Step m) .greeting is ws s
  apart : s.isEstablished = false
  tracks : Tracks E R Holds check tgt m h n.driver is s
  accepted : acceptedBytes (trace h) = wireOf (framesOf ws)
  once : ExactlyOnce (trace h)
  live : n.down = false → (∀ ev ∈ h, halts ev.res = false) ∧ Synced m (trace h) n.driver

variable {n : Node τ cap} {h : List (Call τ cap Pipe)} {is : List Occasion} {ws : List Reply} {s : Stage σ}
  {check : List UInt8 → List UInt8 → Bool}

/-- The network does not touch the driver. -/
theorem Apart.over {R : Role τ} (k : Apart E R Holds check tgt m n h is ws s) (t : Pipe) :
    Apart E R Holds check tgt m { n with driver := { n.driver with transport := t } } h is ws s := by
  obtain ⟨path, apart, ⟨t', u, c, hc, hspell, hst, hsteady⟩, accepted, once, live⟩ := k
  refine ⟨path, apart, ⟨t', u, c, hc, hspell, hst, fun hlive => ?_⟩, accepted, once, fun hup => ?_⟩
  · obtain ⟨hconn, hs⟩ := hsteady hlive
    exact ⟨hconn, hs.conn, hs.mechanism, hs.fits⟩
  · obtain ⟨hlive, hsync⟩ := live hup
    exact ⟨hlive, ⟨hsync.steady.conn, hsync.steady.mechanism, hsync.steady.fits⟩, hsync.sync⟩

/-- The connection of an end that is apart and not down is not established. -/
theorem Apart.not_established {R : Role τ} (k : Apart E R Holds check tgt m n h is ws s) (hup : n.down = false) :
    n.driver.conn.state ≠ .established := by
  obtain ⟨_, _, c, _, _, hst, hsteady⟩ := k.tracks
  obtain ⟨rfl, _⟩ := hsteady (k.live hup).1
  rw [Ne, hst.established_iff, k.apart]
  decide

/-- A driver that has read nothing but a greeting and what drivers of the library say is not connected. -/
theorem Speaks.apart (S : Speaks P c E m ask Holds auth) {fs : List DecodedFrame} (hfs : ∀ f ∈ fs, f ∈ said)
    {h : List (Call τ cap Pipe)} {a : Adapter τ cap Pipe} {is : List Occasion} {ws : List Reply} {s : Stage σ}
    (hpath : Run.Path (E.Step m) .greeting is ws s) (k : Tracks E P.role Holds auth.check tgt m h a is s)
    (honce : ExactlyOnce (trace h)) (hread : receivedBytes (trace h) <+: greetingBytes m' ++ wireOf fs) :
    s.isEstablished = false := by
  obtain ⟨t, u, _, hc, hspell, _⟩ := k
  have hconsumed : t ++ u <+: receivedBytes (trace h) := hc ▸ honce _ (List.prefix_refl _)
  exact path_before (fun f hf => S.ignores tgt f (hfs f hf)) hpath hspell
    (((List.prefix_append t u).trans hconsumed).trans hread)

/-- What a call returns that does not lead to a connection. -/
theorem unconnected_of_sees {a : Adapter τ cap Pipe} {op : Op} {s s' : Stage σ} {js : List Occasion} {us : List Reply}
    (hpath : Run.Path (E.Step m) s js us s') (hsees : Sees ⟨a, op, (a.step P tgt op).2, (a.step P tgt op).1⟩ js us s')
    (hs : s'.isEstablished = false) : Unconnected (a.step P tgt op).2.2 := by
  have hreturns := hsees.call
  cases op with
  | poll =>
    intro hb
    have htrue := hreturns.2 true (congrArg Returned.polled hb)
    rw [hs] at htrue
    cases htrue
  | publish key payload =>
    obtain ⟨rfl, hres⟩ := hreturns
    have hrefused : us.any Reply.refused = true := by
      cases hpath with
      | cons hstep hrest =>
      cases hrest
      cases hstep with
      | wanted _ => cases hs
      | unwanted _ => cases hs
      | early _ => rfl
    rw [hrefused] at hres
    exact Returned.published.inj hres

/-- A call of an end, which has only the greeting and frames that it ignores before it. -/
theorem Apart.call (S : Speaks P c E m ask Holds auth) (k : Apart E P.role Holds auth.check tgt m n h is ws s) (op : Op)
    {fs : List DecodedFrame} (hfs : ∀ f ∈ fs, f ∈ said)
    (hin : receivedBytes (trace h) ++ n.driver.transport.inbox <+: greetingBytes m' ++ wireOf fs) :
    (∀ r, (n.call P tgt op).2 = some r → Unconnected r) ∧ ∃ h' is' ws' s' x y,
      Apart E P.role Holds auth.check tgt m (n.call P tgt op).1 h' is' ws' s' ∧
      acceptedBytes (trace h') = acceptedBytes (trace h) ++ x ∧ receivedBytes (trace h') = receivedBytes (trace h) ++ y ∧
      (n.call P tgt op).1.driver.transport.outbox = n.driver.transport.outbox ++ x ∧
      n.driver.transport.inbox = y ++ (n.call P tgt op).1.driver.transport.inbox := by
  cases hdown : n.down with
  | true =>
    have hcall : n.call P tgt op = (n, none) := if_pos hdown
    rw [hcall]
    exact ⟨fun r hr => (by cases hr), h, is, ws, s, [], [], k, (List.append_nil _).symm, (List.append_nil _).symm,
      (List.append_nil _).symm, rfl⟩
  | false =>
    obtain ⟨hlive, hsync⟩ := k.live hdown
    have hcall : n.call P tgt op = (⟨(n.driver.step P tgt op).1, halts (n.driver.step P tgt op).2⟩,
        some (n.driver.step P tgt op).2.2) := if_neg (by rw [hdown]; decide)
    obtain ⟨hout, hinbox, htakes⟩ := Pipe.step_moved P tgt n.driver op
    have hne := k.not_established hdown
    obtain ⟨js, us, s', hpath, hsees, htracks⟩ :=
      k.tracks.step S.lawful S.implements op hlive htakes fun hest => absurd hest hne
    obtain ⟨honce, hsync'⟩ : ExactlyOnce (trace h ++ (n.driver.step P tgt op).2.1) ∧ _ :=
      hsync.step S.lawful k.once op fun x hx => (htakes x hx).elim
    have hwhole := k.path.append hpath
    -- All that the end has consumed was in the pipe.
    have hread : receivedBytes (trace h) ++ receivedBytes (n.driver.step P tgt op).2.1 <+: greetingBytes m' ++ wireOf fs := by
      refine List.IsPrefix.trans ?_ hin
      rw [hinbox, ← List.append_assoc]
      exact List.prefix_append _ _
    have hapart : s'.isEstablished = false :=
      S.apart hfs hwhole htracks (by rwa [trace_snoc]) (by rwa [trace_snoc, receivedBytes_append])
    have hacc := hsees.accepted
    rw [hcall]
    refine ⟨?_, h ++ [⟨n.driver, op, (n.driver.step P tgt op).2, (n.driver.step P tgt op).1⟩], is ++ js, ws ++ us, s',
      acceptedBytes (n.driver.step P tgt op).2.1, receivedBytes (n.driver.step P tgt op).2.1, ?_, ?_, ?_, hout, hinbox⟩
    · rintro r hr
      cases hr
      exact unconnected_of_sees hpath hsees hapart
    · refine ⟨hwhole, hapart, htracks, ?_, ?_, fun hup => ⟨?_, ?_⟩⟩
      · rw [trace_snoc, acceptedBytes_append, k.accepted, framesOf_append, wireOf_append]
        exact congrArg _ hacc
      · rw [trace_snoc]
        exact honce
      · intro ev hev
        rcases List.mem_append.mp hev with hev | hev
        · exact hlive ev hev
        · rw [List.mem_singleton.mp hev]
          exact hup
      · rw [trace_snoc]
        exact hsync' hup
    · rw [trace_snoc, acceptedBytes_append]
    · rw [trace_snoc, receivedBytes_append]

end Ends

/-! ## Two ends -/

section Pair

variable {σ τ σ' τ' : Type} {cap cap' : Nat} {P : Policy τ} {c : Conn τ cap} {E : Endpoint σ} {m m' : Mechanism}
  {ask : τ → DecodedFrame → τ} {Holds : τ → σ → Prop} {auth : Auth} {tgt : Target} {Q : Policy τ'} {c' : Conn τ' cap'}
  {E' : Endpoint σ'} {ask' : τ' → DecodedFrame → τ'} {Holds' : τ' → σ' → Prop} {auth' : Auth} {tgt' : Target}

/-- Two ends that are apart. What one has written the other has read, or it has arrived there, or it is in flight. -/
def Linked (E : Endpoint σ) (R : Role τ) (Holds : τ → σ → Prop) (check : List UInt8 → List UInt8 → Bool) (tgt : Target)
    (m : Mechanism) (E' : Endpoint σ') (R' : Role τ') (Holds' : τ' → σ' → Prop) (check' : List UInt8 → List UInt8 → Bool)
    (tgt' : Target) (m' : Mechanism) (a : Node τ cap) (b : Node τ' cap') : Prop :=
  ∃ h is ws s h' is' ws' s', Apart E R Holds check tgt m a h is ws s ∧ Apart E' R' Holds' check' tgt' m' b h' is' ws' s' ∧
    greetingBytes m ++ acceptedBytes (trace h) =
      receivedBytes (trace h') ++ b.driver.transport.inbox ++ a.driver.transport.outbox ∧
    greetingBytes m' ++ acceptedBytes (trace h') =
      receivedBytes (trace h) ++ a.driver.transport.inbox ++ b.driver.transport.outbox

variable {a : Node τ cap} {b : Node τ' cap'}

theorem Linked.symm {R : Role τ} {R' : Role τ'} {check check' : List UInt8 → List UInt8 → Bool}
    (k : Linked E R Holds check tgt m E' R' Holds' check' tgt' m' a b) :
    Linked E' R' Holds' check' tgt' m' E R Holds check tgt m b a := by
  obtain ⟨h, is, ws, s, h', is', ws', s', ha, hb, hab, hba⟩ := k
  exact ⟨h', is', ws', s', h, is, ws, s, hb, ha, hba, hab⟩

/-- A call at one end. -/
theorem Linked.call (S : Speaks P c E m ask Holds auth) (S' : Speaks Q c' E' m' ask' Holds' auth')
    (k : Linked E P.role Holds auth.check tgt m E' Q.role Holds' auth'.check tgt' m' a b) (op : Op) :
    (∀ r, (a.call P tgt op).2 = some r → Unconnected r) ∧
      Linked E P.role Holds auth.check tgt m E' Q.role Holds' auth'.check tgt' m' (a.call P tgt op).1 b := by
  obtain ⟨h, is, ws, s, h', is', ws', s', ha, hb, hab, hba⟩ := k
  have hsaid : ∀ f ∈ framesOf ws', f ∈ said := fun f hf => S'.opens ((path_opens hb.path hb.apart).2 f hf)
  have hin : receivedBytes (trace h) ++ a.driver.transport.inbox <+: greetingBytes m' ++ wireOf (framesOf ws') := by
    rw [← hb.accepted, hba]
    exact List.prefix_append _ _
  obtain ⟨hret, h2, is2, ws2, s2, x, y, ha2, hacc, hrec, hout, hinbox⟩ := ha.call S op hsaid hin
  refine ⟨hret, h2, is2, ws2, s2, h', is', ws', s', ha2, hb, ?_, ?_⟩
  · rw [hacc, hout, ← List.append_assoc, hab, List.append_assoc _ _ x]
  · rw [hrec, hba, hinbox, List.append_assoc (receivedBytes (trace h)) y]

/-- A delivery from one end to the other. -/
theorem Linked.deliver {R : Role τ} {R' : Role τ'} {check check' : List UInt8 → List UInt8 → Bool}
    (k : Linked E R Holds check tgt m E' R' Holds' check' tgt' m' a b) (n : Nat) :
    Linked E R Holds check tgt m E' R' Holds' check' tgt' m' (a.deliver n b).1 (a.deliver n b).2 := by
  obtain ⟨h, is, ws, s, h', is', ws', s', ha, hb, hab, hba⟩ := k
  refine ⟨h, is, ws, s, h', is', ws', s', ha.over _, hb.over _, ?_, hba⟩
  rw [hab, Node.deliver]
  simp only [List.append_assoc, List.take_append_drop]

/-- An end that has started, over an empty pipe: its greeting is in flight. -/
theorem start_apart (tgt : Target) (S : Speaks P c E m ask Holds auth) {tr : List IoEvent}
    (h0 : start c (⟨[], []⟩ : Pipe) = (tr, .ok a.driver)) :
    Apart E P.role Holds auth.check tgt m a [] [] [] .greeting ∧ a.driver.transport = ⟨[], greetingBytes m⟩ := by
  rw [S.starts] at h0
  obtain ⟨_, _, _, _, hlen, _⟩ := start_spec h0
  refine ⟨⟨.nil, rfl, ⟨[], [], a.driver.conn, rfl, .nil, start_stands h0, fun _ => ⟨rfl, start_steady h0⟩⟩, rfl, ?_,
    fun _ => ⟨by simp, start_steady h0, .inr ?_⟩⟩, ?_⟩
  · intro p hp
    rw [trace_nil, List.prefix_nil] at hp
    rw [hp]
    exact List.prefix_refl _
  · rw [buffered, hlen, List.take_zero, List.append_nil]
    rfl
  · unfold start at h0
    rw [send_one (Conn.sendGreeting_init ..)] at h0
    have hd := Except.ok.inj (congrArg Prod.snd h0)
    rw [← hd]
    rfl

end Pair

/-- Two drivers of this library that talk to one another never come together, whatever is called, however long, and however
the network delivers what they write: no poll says that the connection is established, and every publish is refused. -/
theorem publishers_stay_apart {V V' : Type → Nat → Type} [FixedVec V] [FixedVec V']
    {tableCap nameCap frameCap tableCap' nameCap' frameCap' : Nat} {check check' : List UInt8 → List UInt8 → Bool} {τ τ' : Type}
    {P : Policy τ} {Q : Policy τ'} {c : Conn τ frameCap} {c' : Conn τ' frameCap'}
    (hP : Publisher V tableCap nameCap frameCap check P c) (hQ : Publisher V' tableCap' nameCap' frameCap' check' Q c')
    {tgt tgt' : Target} {n0 n : Network τ τ' frameCap frameCap'} (h0 : Started c c' n0)
    {h : List (Run.Event (Network τ τ' frameCap frameCap') NetworkOp (Option Returned))}
    (hr : NetworkRun P Q tgt tgt' n0 h n) :
    (∀ ev ∈ h, ∀ r, ev.res = some r → Unconnected r) ∧ (n.left.down = false → n.left.driver.conn.state ≠ .established) ∧
      (n.right.down = false → n.right.driver.conn.state ≠ .established) := by
  obtain ⟨_, E, m, _, Holds, auth, S⟩ := speaks_of_publisher hP
  obtain ⟨_, E', m', _, Holds', auth', S'⟩ := speaks_of_publisher hQ
  have hinv : (∀ ev ∈ h, ∀ r, ev.res = some r → Unconnected r) ∧
      Linked E P.role Holds auth.check tgt m E' Q.role Holds' auth'.check tgt' m' n.left n.right := by
    refine hr.invariant (fun h n => (∀ ev ∈ h, ∀ r, ev.res = some r → Unconnected r) ∧
      Linked E P.role Holds auth.check tgt m E' Q.role Holds' auth'.check tgt' m' n.left n.right) ?_ ?_
    · obtain ⟨⟨_, hl⟩, _, ⟨_, hr⟩, _⟩ := h0
      obtain ⟨hleft, hlpipe⟩ := start_apart tgt S hl
      obtain ⟨hright, hrpipe⟩ := start_apart tgt' S' hr
      refine ⟨by simp, _, _, _, _, _, _, _, _, hleft, hright, ?_, ?_⟩
      · rw [hlpipe, hrpipe]
        exact List.append_nil _
      · rw [hlpipe, hrpipe]
        exact List.append_nil _
    · rintro h n op _ ⟨hres, k⟩
      have hnew : (∀ r, (n.step P Q tgt tgt' op).2 = some r → Unconnected r) ∧
          Linked E P.role Holds auth.check tgt m E' Q.role Holds' auth'.check tgt' m' (n.step P Q tgt tgt' op).1.left
            (n.step P Q tgt tgt' op).1.right := by
        cases op with
        | left op => exact k.call S S' op
        | right op =>
          obtain ⟨hret, k'⟩ := k.symm.call S' S op
          exact ⟨hret, k'.symm⟩
        | toRight i => exact ⟨fun r hr => (by cases hr), k.deliver i⟩
        | toLeft i => exact ⟨fun r hr => (by cases hr), (k.symm.deliver i).symm⟩
      refine ⟨fun ev hev => ?_, hnew.2⟩
      rcases List.mem_append.mp hev with hev | hev
      · exact hres ev hev
      · rw [List.mem_singleton.mp hev]
        exact hnew.1
  obtain ⟨hres, _, _, _, _, _, _, _, _, hleft, hright, _⟩ := hinv
  exact ⟨hres, hleft.not_established, hright.not_established⟩

/-- A PUB driver and a RADIO driver, with their greetings in flight. -/
def strangers : Network (SubTable BVec 2 8) (GroupTable BVec 2 8) 32 32 :=
  ⟨⟨⟨{ Connection.new with ourGreetingSent := true }, ⟨[], encodeGreeting⟩, List.Vector.replicate 512 0, 0⟩, false⟩,
    ⟨⟨{ RadioConnection.new with ourGreetingSent := true }, ⟨[], encodeGreeting⟩, List.Vector.replicate 512 0, 0⟩, false⟩⟩

/-- What happens to them: the greetings arrive, then the READYs. -/
def strangersRun : List (Run.Event (Network (SubTable BVec 2 8) (GroupTable BVec 2 8) 32 32) NetworkOp (Option Returned)) ×
    Network (SubTable BVec 2 8) (GroupTable BVec 2 8) 32 32 :=
  Run.exec (step Driver.policy RadioDriver.policy ⟨.w32, true⟩ ⟨.w32, true⟩) (fun _ => false) strangers
    [.toRight 64, .right .poll, .toLeft 40, .left .poll, .toLeft 53, .left .poll, .left .poll, .toRight 99, .right .poll]

theorem strangers_started : Started Connection.new RadioConnection.new strangers := ⟨⟨_, rfl⟩, rfl, ⟨_, rfl⟩, rfl⟩

/-- They give one another up. -/
theorem publishers_stay_apart_strangers :
    (strangersRun.2.left.driver.conn.state = .failed ∧ strangersRun.2.right.driver.conn.state = .failed) ∧
      ∀ ev ∈ strangersRun.1, ∀ r, ev.res = some r → Unconnected r :=
  ⟨by decide +kernel, (publishers_stay_apart (.null : Publisher BVec 2 8 32 (fun _ _ => true) _ _)
    (.radio : Publisher BVec 2 8 32 (fun _ _ => true) _ _) strangers_started (Run.runs_exec _ _)).1⟩

end Network

end Mzmq
