import Mzmq.Theorems.Conforming

/-!
# The programs that wait for a handshake

Over a transport that delivers what a conforming peer sends, the README's loop and that of `pub_hello.rs` and `embassy_pub.rs`
come to the end of the handshake within a number of polls that depends on what is still to be read alone:
`handshakes_complete`. And the example then publishes its message, if the peer has asked for it: `pub_hello_publishes`.
-/

namespace Mzmq

open Checked Consumer Conn Spelling

/-- A feed of an established connection leaves it established. -/
theorem Conn.feed_stays_established {τ : Type} {cap : Nat} (R : Role τ) (tgt : Target) {c : Conn τ cap}
    (hs : c.state = .established) (input : List UInt8) : (c.feed R tgt input).1.state = .established := by
  rw [feed_established R tgt input hs]
  refine feedFrame_keeps (fun c => c.state = .established) (fun d => hs) (fun d f => ?_) tgt input
  obtain ⟨t, pong, he, _⟩ := onEstablished_spec R (c.withDecoder d) f
  rw [he]
  exact hs

namespace Adapter

/-- What a poll sends leaves the state. -/
theorem Sends.state {τ : Type} {cap : Nat} {R : Role τ} {op : Conn τ cap → Outcome (Conn τ cap) Sent ConnError} (h : Sends R op)
    (c : Conn τ cap) : (op c).state.state = c.state := by
  cases h with
  | ready =>
    unfold sendReady
    rcases writeReady_spec R c (List.replicate 32 0) with ⟨out, he, _⟩ | ⟨out, e, he⟩ <;> rw [he]
  | welcome =>
    unfold sendWelcome
    rcases writeWelcome_spec c (List.replicate welcomeFrame.length 0) with ⟨out, he, _⟩ | ⟨out, e, he⟩ <;> rw [he]
  | pong =>
    obtain ⟨pong, hp⟩ := writePong_spec c (List.replicate 23 0)
    rcases hw : c.writePong (List.replicate 23 0) with ⟨c', out, f | _ | n⟩ <;> rw [hw] at hp <;>
      simp only [sendPong, hw, show c' = _ from hp]

/-- A poll of an established driver leaves it established. -/
theorem poll_stays_established {τ T : Type} {cap : Nat} [Transport T] (P : Policy τ) (tgt : Target) {a : Adapter τ cap T}
    (hs : a.conn.state = .established) : (a.poll P tgt).1.conn.state = .established := by
  have hkeeps : Keeps P tgt (fun _ (c : Conn τ cap) => c.state = .established) fun _ c => c.state = .established := {
    idle := fun h _ => h
    stop := fun h => h
    feed := fun {_ _ input _ _} h hf => by
      have := Conn.feed_stays_established P.role tgt h input
      rwa [hf] at this
    reject := fun {_ _ input _ _} h hf => by
      have := Conn.feed_stays_established P.role tgt h input
      rwa [hf] at this
    error := fun {_ _ input _ _ _} h hf _ _ => by
      have := Conn.feed_stays_established P.role tgt h input
      rwa [hf] at this
    send := fun {_ c _} h hop => by
      have hst := (hop.state c).trans h
      rcases hop.not_error c with hout | ⟨s, hout, hf, _, _⟩
      · exact .inl ⟨hout, fun _ => hst, fun _ => hst⟩
      · exact .inr ⟨s, hout, hf, hst, fun _ _ => hst⟩ }
  obtain ⟨hok, herr⟩ := @Keeps.poll _ _ _ _ _ _ _ _ [] _ hkeeps hs
  cases hr : (a.poll P tgt).2.2 with
  | ok v => exact hok v hr
  | error f => exact herr f hr

section Delivering

variable {τ T : Type} {cap : Nat} [Delivers T] {P : Policy τ} {tgt : Target} {m : Mechanism} {c0 : Conn τ cap}
  {stream : List UInt8} {a : Adapter τ cap T}

/-- How much a driver has still to do: the reads that fail, the bytes to be read, and the bytes in its buffer. -/
def toCome (a : Adapter τ cap T) : Nat :=
  Delivers.failures a.transport + (Delivers.rest a.transport).length + a.rxLen

/-- A driver on its course through `stream`: what it has not received is what its transport will deliver. -/
def Expects (P : Policy τ) (tgt : Target) (m : Mechanism) (c0 : Conn τ cap) (stream : List UInt8) (a : Adapter τ cap T) : Prop :=
  ∃ r, Course P tgt m c0 r a ∧ r ++ Delivers.rest a.transport = stream

/-- At the end of the stream, the connection is where the session is. -/
theorem Expects.settled (k : Expects P tgt m c0 stream a) (hrest : Delivers.rest a.transport = []) (h0 : a.rxLen = 0) :
    ∃ sent, sessionSteps P.role tgt c0 stream = ⟨a.conn, sent, none⟩ := by
  obtain ⟨r, k, hr⟩ := k
  rw [hrest, List.append_nil] at hr
  rw [← hr]
  exact k.settled h0

/-- What a poll can come to: it has drained something; or a read has failed; or it has found the end of the input. -/
inductive PollTurn (P : Policy τ) (tgt : Target) (a : Adapter τ cap T) : Prop where
  | drained : (a.poll P tgt).2.2 = .ok (a.poll P tgt).1.established → toCome (a.poll P tgt).1 < toCome a →
      Delivers.failures (a.poll P tgt).1.transport ≤ Delivers.failures a.transport → PollTurn P tgt a
  | readFailed (kind : Nat) : (a.poll P tgt).2.2 = .error (.err (.ioError kind)) → (a.poll P tgt).1.conn = a.conn →
      toCome (a.poll P tgt).1 < toCome a → 0 < Delivers.failures a.transport → PollTurn P tgt a
  | ended : (a.poll P tgt).2.2 = .error (.err (.ioError 0)) → (a.poll P tgt).1.conn = a.conn → Delivers.rest a.transport = [] →
      a.rxLen = 0 → PollTurn P tgt a

/-- A drain over a transport that delivers. -/
theorem Course.drain_delivers (L : P.Lawful m) {r : List UInt8} (k : Course P tgt m c0 r a) (hpos : 0 < a.rxLen)
    (hfine : (sessionSteps P.role tgt c0 r).fault = none) :
    (drainBuffer P tgt a).fault = none ∧ Course P tgt m c0 r (drainBuffer P tgt a).state ∧
      (drainBuffer P tgt a).state.rxLen < a.rxLen ∧
      Delivers.rest (drainBuffer P tgt a).state.transport = Delivers.rest a.transport ∧
      Delivers.failures (drainBuffer P tgt a).state.transport ≤ Delivers.failures a.transport := by
  obtain ⟨hf, hcourse⟩ := k.drain L (.inr not_refusal) hfine
  obtain ⟨_, ⟨_, _, _, hlt, hrest, hfail, _⟩ | ⟨hne, _⟩⟩ := drain_future L tgt k.quiet k.mechanism hpos k.fits
  · exact ⟨hf, hcourse, hlt, hrest, hfail⟩
  · exact absurd hf hne

/-- A poll keeps to the course, and comes closer to the end of the stream until it has reached it. -/
theorem Expects.poll (L : P.Lawful m) (k : Expects P tgt m c0 stream a)
    (hfine : (sessionSteps P.role tgt c0 stream).fault = none) :
    Expects P tgt m c0 stream (a.poll P tgt).1 ∧ PollTurn P tgt a := by
  obtain ⟨r, k, hr⟩ := k
  rcases k.steady.poll_cases L tgt with ⟨hpos, hp⟩ | ⟨h0, t, kind, hread, hp⟩ | ⟨h0, t, hread, hp⟩ |
    ⟨h0, t, bs, a', hread, hne, hc, ht, hpos, hfit, hbuf, hp⟩
  · obtain ⟨hf, hcourse, hlt, hrest, hfail⟩ := k.drain_delivers L hpos (fine_of_front ⟨_, hr⟩ hfine)
    obtain ⟨e1, e2, e3⟩ := returning_spec (drainBuffer P tgt a) established
    rw [hf] at e3
    refine ⟨⟨r, by rw [hp, e1]; exact hcourse, by rw [hp, e1, hrest, hr]⟩, .drained ?_ ?_ ?_⟩
    · rw [hp, e1, e3]
    · rw [hp, e1, toCome, toCome, hrest]
      omega
    · rw [hp, e1]
      exact hfail
  · obtain ⟨hrest, hfail⟩ := Delivers.read_error hread
    refine ⟨⟨r, by rw [hp]; exact k.moved t, by rw [hp]; exact (congrArg (r ++ ·) hrest).trans hr⟩,
      .readFailed kind (by rw [hp]) (by rw [hp]; rfl) ?_ (by omega)⟩
    rw [hp]
    simp only [toCome, Adapter.moved, hrest]
    omega
  · obtain ⟨hrest, _⟩ := Delivers.read_rest hread
    exact ⟨⟨r, by rw [hp]; exact k.moved t, by rw [hp]; exact (congrArg (r ++ ·) hrest.symm).trans hr⟩,
      .ended (by rw [hp]) (by rw [hp]; rfl) (Delivers.read_end (by decide) hread) h0⟩
  · obtain ⟨hrest, hfail⟩ := Delivers.read_rest hread
    rw [hrest, ← List.append_assoc] at hr
    obtain ⟨hf, hcourse, hlt, hrest', hfail'⟩ := (k.read h0 hc hfit hbuf).drain_delivers L hpos (fine_of_front ⟨_, hr⟩ hfine)
    rw [Outcome.andThen_none rfl] at hp
    obtain ⟨e1, e2, e3⟩ := returning_spec (⟨(drainBuffer P tgt a').state,
      [.received bs] ++ (drainBuffer P tgt a').out, (drainBuffer P tgt a').fault⟩ : Outcome _ _ _) established
    rw [hf] at e3
    rw [ht] at hrest' hfail'
    have hlen : a'.rxLen = bs.length := by rw [← hbuf, buffered_length hfit]
    have hbytes := congrArg List.length hrest
    rw [List.length_append] at hbytes
    have hsome := List.length_pos_iff.mpr hne
    refine ⟨⟨r ++ bs, by rw [hp, e1]; exact hcourse, by rw [hp, e1]; simp only [hrest', hr]⟩, .drained ?_ ?_ ?_⟩
    · rw [hp, e1, hf, e3]
    · rw [hp, e1]
      simp only [toCome, hrest']
      omega
    · rw [hp, e1]
      exact Nat.le_trans hfail' hfail

/-! ## The loops -/

variable {c : Conn τ cap} {sent : List Sent}

/-- The README's loop comes to the end of the handshake, if no read fails. The induction is on the number of polls. -/
theorem connect_done (L : P.Lawful m) (hend : sessionSteps P.role tgt c0 stream = ⟨c, sent, none⟩) (hc : c.state = .established)
    (n : Nat) : ∀ {a : Adapter τ cap T}, Expects P tgt m c0 stream a → a.conn.state ≠ .established →
      Delivers.failures a.transport = 0 → toCome a < n →
      (connect P tgt n a).fault = none ∧ (connect P tgt n a).state.conn.state = .established := by
  induction n with
  | zero =>
    intro a _ _ _ h
    omega
  | succ n ih =>
    intro a k hne hfail hn
    obtain ⟨k', hturn⟩ := k.poll L (by rw [hend])
    unfold connect
    rcases hp : a.poll P tgt with ⟨a', tr, r⟩
    cases hturn with
    | drained hres hlt hle =>
      rw [hp] at k' hres hlt hle
      simp only at k' hres hlt hle
      subst hres
      cases hest : a'.established with
      | true => exact ⟨rfl, by simpa [established] using hest⟩
      | false =>
        have hfail' : Delivers.failures a'.transport = 0 := by omega
        have hn' : toCome a' < n := by omega
        simp only
        rw [Outcome.andThen_none rfl]
        exact ih k' (by simpa [established] using hest) hfail' hn'
    | readFailed kind _ _ _ hpos => omega
    | ended _ _ hrest h0 =>
      obtain ⟨_, hs⟩ := k.settled hrest h0
      rw [hend] at hs
      cases hs
      exact absurd hc hne

/-- The loop of the examples comes to the end of the handshake. -/
theorem waitEstablished_done (L : P.Lawful m) (hend : sessionSteps P.role tgt c0 stream = ⟨c, sent, none⟩)
    (hc : c.state = .established) (n : Nat) : ∀ {a : Adapter τ cap T}, Expects P tgt m c0 stream a → a.conn.state ≠ .established →
      toCome a < n → (waitEstablished P tgt n a).2.2 = .ok true ∧ Expects P tgt m c0 stream (waitEstablished P tgt n a).1 ∧
        (waitEstablished P tgt n a).1.conn.state = .established ∧ toCome (waitEstablished P tgt n a).1 ≤ toCome a := by
  induction n with
  | zero =>
    intro a _ _ h
    omega
  | succ n ih =>
    intro a k hne hn
    obtain ⟨k', hturn⟩ := k.poll L (by rw [hend])
    unfold waitEstablished
    rcases hp : a.poll P tgt with ⟨a', tr, r⟩
    -- What the rest of the loop comes to.
    have hrest : a'.conn.state ≠ .established → toCome a' < toCome a →
        (behind tr (waitEstablished P tgt n a')).2.2 = .ok true ∧
          Expects P tgt m c0 stream (behind tr (waitEstablished P tgt n a')).1 ∧
          (behind tr (waitEstablished P tgt n a')).1.conn.state = .established ∧
          toCome (behind tr (waitEstablished P tgt n a')).1 ≤ toCome a := by
      intro hne' hlt
      rw [hp] at k'
      have hn' : toCome a' < n := by omega
      obtain ⟨h1, h2, h3, h4⟩ := ih k' hne' hn'
      exact ⟨h1, h2, h3, Nat.le_trans h4 (Nat.le_of_lt hlt)⟩
    cases hturn with
    | drained hres hlt hle =>
      rw [hp] at k' hres hlt
      simp only at k' hres hlt
      subst hres
      cases hest : a'.established with
      | true => exact ⟨rfl, k', by simpa [established] using hest, Nat.le_of_lt hlt⟩
      | false => exact hrest (by simpa [established] using hest) hlt
    | readFailed kind hres hconn hlt =>
      rw [hp] at hres hconn hlt
      simp only at hres hconn hlt
      subst hres
      exact hrest (by rw [hconn]; exact hne) hlt
    | ended _ _ hstop h0 =>
      obtain ⟨_, hs⟩ := k.settled hstop h0
      rw [hend] at hs
      cases hs
      exact absurd hc hne

/-- A publish over a transport that delivers. -/
theorem publish_delivers {key payload : List UInt8} (hs : a.conn.state = .established)
    (hfit : (publishBytes key payload).length < tgt.size) :
    (P.role.matchesKey a.conn.table key = true ∧ acceptedBytes (a.publish P tgt key payload).2.1 = publishBytes key payload ∧
      (a.publish P tgt key payload).2.2 = .ok (publishBytes key payload).length) ∨
    P.role.matchesKey a.conn.table key = false ∧ a.publish P tgt key payload = (a, [], .ok 0) := by
  cases hm : P.role.matchesKey a.conn.table key with
  | true =>
    refine .inl ⟨rfl, publish_taken hs hm hfit ?_⟩
    rintro x ⟨e, he⟩
    rcases a.publish_cases P tgt key payload with ⟨r, h⟩ | ⟨hdrs, _, _, hout⟩
    · rw [h] at he
      cases he
    · rw [hout] at he
      rcases a.writeEach_cases (pieces key payload hdrs) with ⟨t, hw, _⟩ | ⟨_, _, _, _, _, _, _, _, hr, _⟩
      · rw [hw] at he
        simp at he
      · exact absurd hr not_refusal
  | false =>
    refine .inr ⟨rfl, ?_⟩
    unfold Adapter.publish
    rw [publishHeaders_none hs hm]

/-- A turn of the second loop whose poll does not abort and whose publish sends nothing. -/
theorem publishRetrying_again {key payload : List UInt8} {n : Nat} {a' : Adapter τ cap T} {tr : List IoEvent}
    (hp : ∀ f, (a.poll P tgt).2.2 = .error f → f.aborts = false)
    (hq : (a.poll P tgt).1.publish P tgt key payload = (a', tr, .ok 0)) :
    publishRetrying P tgt key payload (n + 1) a =
      behind (a.poll P tgt).2.1 (behind tr (publishRetrying P tgt key payload n a')) := by
  rw [publishRetrying]
  cases hr : (a.poll P tgt).2.2 with
  | ok b => simp only [hq]
  | error f =>
    cases f with
    | err e => simp only [hq]
    | panic => cases hp _ hr
    | hang => cases hp _ hr

/-- A turn of the second loop whose poll does not abort and whose publish sends something. -/
theorem publishRetrying_sends {key payload : List UInt8} {n size : Nat} {a' : Adapter τ cap T} {tr : List IoEvent}
    (hp : ∀ f, (a.poll P tgt).2.2 = .error f → f.aborts = false)
    (hq : (a.poll P tgt).1.publish P tgt key payload = (a', tr, .ok (size + 1))) :
    publishRetrying P tgt key payload (n + 1) a = behind (a.poll P tgt).2.1 (a', tr, .ok (size + 1)) := by
  rw [publishRetrying]
  cases hr : (a.poll P tgt).2.2 with
  | ok b => simp only [hq]
  | error f =>
    cases f with
    | err e => simp only [hq]
    | panic => cases hp _ hr
    | hang => cases hp _ hr

/-- The second loop of the example publishes, if the peer asks for the topic in the end. -/
theorem publishRetrying_done (L : P.Lawful m) (hend : sessionSteps P.role tgt c0 stream = ⟨c, sent, none⟩)
    {key payload : List UInt8} (hm : P.role.matchesKey c.table key = true)
    (hfit : (publishBytes key payload).length < tgt.size) (n : Nat) :
    ∀ {a : Adapter τ cap T}, Expects P tgt m c0 stream a → a.conn.state = .established → toCome a < n →
      (publishRetrying P tgt key payload n a).2.2 = .ok (publishBytes key payload).length ∧
        publishBytes key payload <:+ acceptedBytes (publishRetrying P tgt key payload n a).2.1 := by
  induction n with
  | zero =>
    intro a _ _ h
    omega
  | succ n ih =>
    intro a k hs hn
    obtain ⟨k', hturn⟩ := k.poll L (by rw [hend])
    have hs' := poll_stays_established P tgt hs
    have hpos := publishBytes_pos key payload
    obtain ⟨size, hsize⟩ : ∃ size, (publishBytes key payload).length = size + 1 := ⟨_, (Nat.sub_one_add_one_eq_of_pos hpos).symm⟩
    -- A poll that ends the transport has put the connection at the end of the session, where the publish matches.
    have hpoll : (∀ f, (a.poll P tgt).2.2 = .error f → f.aborts = false) ∧
        (toCome (a.poll P tgt).1 < toCome a ∨ (a.poll P tgt).1.conn = c) := by
      cases hturn with
      | drained hres hlt => exact ⟨by simp [hres], .inl hlt⟩
      | readFailed kind hres _ hlt => exact ⟨by simp [hres, Fault.aborts], .inl hlt⟩
      | ended hres hconn hrest h0 =>
        obtain ⟨_, hsession⟩ := k.settled hrest h0
        rw [hend] at hsession
        cases hsession
        exact ⟨by simp [hres, Fault.aborts], .inr hconn⟩
    obtain ⟨hp, hprogress⟩ := hpoll
    rcases publish_delivers (P := P) hs' hfit with ⟨_, hacc, hres⟩ | ⟨hno, he⟩
    · rcases hq : (a.poll P tgt).1.publish P tgt key payload with ⟨a', tr, r⟩
      rw [hq] at hacc hres
      simp only at hacc hres
      rw [hsize] at hres
      subst hres
      rw [publishRetrying_sends hp hq, hsize]
      refine ⟨rfl, ?_⟩
      rw [behind, acceptedBytes_append, ← hacc]
      exact List.suffix_append _ _
    · rw [publishRetrying_again hp he]
      rcases hprogress with hlt | hconn
      · obtain ⟨h1, h2⟩ := ih k' hs' (by omega)
        refine ⟨h1, ?_⟩
        simp only [behind, List.nil_append]
        rw [acceptedBytes_append]
        exact h2.trans (List.suffix_append _ _)
      · rw [hconn, hm] at hno
        cases hno

/-- A driver keeps to its course in every run. -/
theorem expects_of_run (L : P.Lawful m) {R : Role τ} {auth : Auth} {t : T} {tr : List IoEvent} {a0 : Adapter τ cap T}
    (h0 : start (Conn.init R m auth) t = (tr, .ok a0)) {h : List (Call τ cap T)} (hr : DriverRun P tgt a0 h a)
    (hfine : (sessionSteps P.role tgt a0.conn (Delivers.rest t)).fault = none) :
    Expects P tgt m a0.conn (Delivers.rest t) a := by
  refine hr.state_invariant (Expects P tgt m a0.conn (Delivers.rest t)) ?_ ?_
  · obtain ⟨_, _, _, _, _, hw⟩ := start_spec h0
    exact ⟨[], start_course h0, hw.rest.1⟩
  · intro a op k
    cases op with
    | poll => exact (k.poll L hfine).1
    | publish key payload =>
      obtain ⟨r, k, hr⟩ := k
      obtain ⟨t, he, hw, _⟩ := a.publish_spec P tgt key payload
      refine ⟨r, ?_, ?_⟩
      · simp only [step, he]
        exact k.moved t
      · simp only [step, he]
        exact (congrArg (r ++ ·) hw.rest.1).trans hr

/-- Over a transport that delivers, every driver starts. -/
theorem start_delivers (R : Role τ) (m : Mechanism) (auth : Auth) (t : T) :
    ∃ tr a, start (Conn.init R m auth : Conn τ cap) t = (tr, .ok a) ∧
      toCome a ≤ Delivers.failures t + (Delivers.rest t).length := by
  obtain ⟨g, hg⟩ : ∃ g, (Conn.init R m auth : Conn τ cap).sendGreeting =
    ⟨{ Conn.init R m auth with ourGreetingSent := true }, [g], none⟩ := ⟨_, rfl⟩
  have hstart : ∃ tr a, start (Conn.init R m auth : Conn τ cap) t = (tr, .ok a) := by
    unfold start
    rw [send_one hg]
    rcases write_cases (moved (⟨Conn.init R m auth, t, List.Vector.replicate 512 0, 0⟩ : Adapter τ cap T)
      { Conn.init R m auth with ourGreetingSent := true } t) g with ⟨t', hw, _⟩ | ⟨_, _, _, _, hr, _⟩
    · simp only [hw]
      exact ⟨_, _, rfl⟩
    · exact absurd hr not_refusal
  obtain ⟨tr, a, h⟩ := hstart
  obtain ⟨_, _, _, _, h0, hw⟩ := start_spec h
  obtain ⟨hrest, hfail⟩ := hw.rest
  refine ⟨tr, a, h, ?_⟩
  rw [toCome, hrest, h0]
  omega

end Delivering

end Adapter

open Adapter

/-- Over a transport that delivers the beginning of what a conforming peer sends, with a complete handshake, both loops that wait
for the handshake come to its end, from every reachable driver that is not established yet, with one poll more than there are
failing reads, bytes to be read and bytes in the buffer: that of the examples whatever reads fail in between, and that of the
README if none does. -/
theorem handshakes_complete (V : Type → Nat → Type) [FixedVec V] (T : Type) [Delivers T] (tgt : Target)
    (tableCap nameCap frameCap : Nat) (check : List UInt8 → List UInt8 → Bool) (t : T) :
    EveryDriver V tgt tableCap nameCap frameCap check t fun E P check m _ _ d => ∀ stream s hs s',
      Conforms E P.role check tgt frameCap m stream s → Delivers.rest t <+: stream →
      Conforms E P.role check tgt frameCap m hs s' → s'.isEstablished = true → hs <+: Delivers.rest t → d.established = false →
      ∀ n, toCome d < n → ((waitEstablished P tgt n d).2.2 = .ok true ∧ (waitEstablished P tgt n d).1.established = true) ∧
        (Delivers.failures d.transport = 0 →
          (connect P tgt n d).fault = none ∧ (connect P tgt n d).state.established = true) := by
  refine everyDriver_of_lawful fun L I h0 hr stream s hs s' hconf hpre hh he hcomplete hnot n hn => ?_
  obtain ⟨c, sent, hsession, _⟩ := start_conforms I h0 hconf
  have hfine := fine_of_front hpre (by rw [hsession])
  have hest := established_of_handshake I h0 hh he hcomplete hfine
  have hend : ∃ c sent, sessionSteps _ tgt _ (Delivers.rest t) = ⟨c, sent, none⟩ ∧ c.state = .established :=
    ⟨_, _, by rw [← hfine], hest⟩
  obtain ⟨c, sent, hend, hc⟩ := hend
  have k := expects_of_run L h0 hr hfine
  have hne := beq_eq_false_iff_ne.mp hnot
  obtain ⟨h1, _, h3, _⟩ := waitEstablished_done L hend hc n k hne hn
  refine ⟨⟨h1, by simpa [established] using h3⟩, fun hfail => ?_⟩
  obtain ⟨h4, h5⟩ := connect_done L hend hc n k hne hfail hn
  exact ⟨h4, by simpa [established] using h5⟩

/-- The loop of the examples brings the driver of `joiningPeer` to the end of the handshake. -/
theorem handshakes_complete_joined :
    (waitEstablished RadioDriver.asyncPolicy ⟨.w32, true⟩ 300 joiningPeerDriver).2.2 = .ok true := by
  obtain ⟨hhs, kept, hstream⟩ := joiningPeer_conforms
  exact ((handshakes_complete BVec Slices ⟨.w32, true⟩ 2 8 32 (fun _ _ => true) joiningPeer).radioAsync _ _ rfl [] joiningPeerDriver
    .nil _ _ _ _ hstream (List.prefix_refl _) hhs rfl (by decide +kernel) (by decide +kernel) 300 (by decide +kernel)).1.1

/-- Over a transport that delivers what a conforming peer sends, `pub_hello.rs` and `embassy_pub.rs` publish their message, if the
peer asks for it in the end, whatever reads fail in between and in whatever pieces the bytes come: it is the last that the
transport accepts. One turn more than there are failing reads and bytes to be read is enough for each of the two loops. -/
theorem pub_hello_publishes (V : Type → Nat → Type) [FixedVec V] (T : Type) [Delivers T] (tgt : Target)
    (subCap prefixCap frameCap : Nat) (t : T) (minor : UInt8) (kept : Multiset (List UInt8))
    (hconf : Conforms (pubEndpoint subCap prefixCap) (Connection.role : Role (SubTable V subCap prefixCap)) Auth.unit.check tgt
      frameCap .null (Delivers.rest t) (.established minor kept))
    (hwants : ∃ p ∈ kept, p <+: PubHello.topic) :
    ∃ tr d, (Driver.new t : List IoEvent × Res ConnError (Driver V subCap prefixCap frameCap T)) = (tr, .ok d) ∧
      ∀ polls turns, Delivers.failures t + (Delivers.rest t).length < polls →
        Delivers.failures t + (Delivers.rest t).length < turns →
        (PubHello.handshake tgt polls turns d).2.2 = .published (publishBytes PubHello.topic PubHello.payload).length ∧
          publishBytes PubHello.topic PubHello.payload <:+ acceptedBytes (PubHello.handshake tgt polls turns d).2.1 := by
  obtain ⟨tr, d, h0, hcome⟩ := @start_delivers _ _ frameCap _ (Connection.role : Role (SubTable V subCap prefixCap)) .null .unit t
  refine ⟨tr, d, h0, fun polls turns hpolls hturns => ?_⟩
  have L : (Driver.policy : Policy (SubTable V subCap prefixCap)).Lawful .null := Driver.policy_lawful .null
  have I := pubEndpoint_implemented (V := V) subCap prefixCap
  obtain ⟨c, sent, hend, _, hst⟩ := start_conforms (P := Driver.policy) I h0 hconf
  have hc : c.state = .established := hst.established_iff.mpr rfl
  have hm : Connection.role.matchesKey c.table PubHello.topic = true := by
    cases hst with
    | established _ _ hheld => exact (I.wants _ hheld).mpr hwants
  have k : Expects Driver.policy tgt .null d.conn (Delivers.rest t) d := expects_of_run L h0 .nil (by
    rw [show sessionSteps _ _ _ _ = _ from hend])
  have hnew : d.conn.state ≠ .established := by
    rw [(start_spec h0).2.1]
    exact State.noConfusion
  obtain ⟨h1, h2, h3, h4⟩ := waitEstablished_done L hend hc polls k hnew (by omega)
  have hfit : (publishBytes PubHello.topic PubHello.payload).length < tgt.size := by
    have hlen : (publishBytes PubHello.topic PubHello.payload).length = 14 := by decide
    have := tgt.size_ge
    omega
  obtain ⟨h5, h6⟩ := publishRetrying_done L hend hm hfit turns h2 h3 (by omega)
  have hsize : (publishBytes PubHello.topic PubHello.payload).length = 13 + 1 := by decide
  rw [hsize] at h5 ⊢
  rcases hwait : waitEstablished Driver.policy tgt polls d with ⟨d', tr', r⟩
  rw [hwait] at h1 h5 h6
  simp only at h1 h5 h6
  subst h1
  rcases hretry : publishRetrying Driver.policy tgt PubHello.topic PubHello.payload turns d' with ⟨d'', tr'', r⟩
  rw [hretry] at h5 h6
  simp only at h5 h6
  subst h5
  simp only [PubHello.handshake, hwait, hretry, behind, true_and]
  rw [acceptedBytes_append]
  exact h6.trans (List.suffix_append _ _)

/-- A SUB peer that subscribes to "he", with failed reads in between. -/
def helloPeer : Slices :=
  ⟨[.fail 4, .data 0xFF ((Peer.subGreeting ++ Peer.subReady.take 9).drop 1), .fail 4,
    .data (Peer.subReady.getD 9 0) ((Peer.subReady ++ Peer.subSubscribe [0x68, 0x65]).drop 10)]⟩

theorem pub_hello_publishes_he :
    ∃ tr d, (Driver.new helloPeer : List IoEvent × Res ConnError (Driver BVec 2 8 32 Slices)) = (tr, .ok d) ∧
      (PubHello.handshake ⟨.w32, true⟩ 300 300 d).2.2 = .published 14 := by
  have hgreeted : Greeted .null Peer.subGreeting 1 := ⟨⟨Peer.subGreeting, by decide⟩, rfl, _, rfl, rfl⟩
  have hready : IsWire ⟨.w32, true⟩ Peer.subReady ⟨false, true, Peer.subReady.drop 2⟩ := ⟨0x04, [25], rfl, rfl, rfl, rfl, rfl, rfl⟩
  have hsubscribe : IsWire ⟨.w32, true⟩ (Peer.subSubscribe [0x68, 0x65]) ⟨false, true, (Peer.subSubscribe [0x68, 0x65]).drop 2⟩ :=
    ⟨0x04, [12], rfl, rfl, rfl, rfl, rfl, rfl⟩
  have hrest : helloPeer.rest = Peer.subGreeting ++ (Peer.subReady ++ Peer.subSubscribe [0x68, 0x65]) := by decide +kernel
  have hconf : Conforms (pubEndpoint 2 8) (Connection.role : Role (SubTable BVec 2 8)) Auth.unit.check ⟨.w32, true⟩ 32 .null
      helloPeer.rest (.established 1 ((pubEndpoint 2 8).record 0 ⟨false, true, (Peer.subSubscribe [0x68, 0x65]).drop 2⟩)) := by
    rw [hrest]
    refine ⟨_, _, .cons .greeted (.cons .ready (.single .heard)), by simp [Occasion.isPeers],
      .cons (k := Occasion.greeted 1) hgreeted (.cons (k := Occasion.ready) ?_
        (.single (k := Occasion.heard _) ⟨hsubscribe, by decide⟩))⟩
    exact ⟨⟨_, hready, rfl, by decide, _, rfl⟩, _, hready, by decide⟩
  obtain ⟨tr, d, h0, hall⟩ := pub_hello_publishes BVec Slices ⟨.w32, true⟩ 2 8 32 helloPeer 1 _ hconf
    ⟨[0x68, 0x65], by decide +kernel, by decide⟩
  exact ⟨tr, d, h0, (hall 300 300 (by decide +kernel) (by decide +kernel)).1⟩

end Mzmq
