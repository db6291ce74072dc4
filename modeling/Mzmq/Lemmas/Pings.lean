import Mzmq.KeepAlive
import Mzmq.Lemmas.Command
import Mzmq.Lemmas.Feeding
import Mzmq.Lemmas.Outbound

/-!
# PING and PONG

What a PING leaves to be sent (`Conn.owed`), and that the decoder reads a PONG back (`echoes_pongFrame`).
-/

namespace Mzmq

open Checked Consumer

/-! ## PONG frames -/

/-- A PONG frame is read back with its context. -/
theorem echoes_pongFrame (ctx : List UInt8) : Echoes ctx (Conn.pongFrame (ctx.take 16)) := by
  intro tgt cap hcap
  have hlen : (ctx.take 16).length = min 16 ctx.length := List.length_take
  have hw : IsWire tgt (Conn.pongFrame (ctx.take 16)) ⟨false, true, commandBody pongName (ctx.take 16)⟩ := by
    have hshort := isWire_short tgt pongName (ctx.take 16) (by
      simp only [pongName, List.length_cons, List.length_nil]
      omega)
    have hsize : 1 + pongName.length + (ctx.take 16).length = 5 + (ctx.take 16).length := rfl
    rw [hsize] at hshort
    exact hshort
  have hbody : (commandBody pongName (ctx.take 16)).length ≤ cap := by
    simp only [commandBody, pongName, List.length_cons, List.length_append, List.length_nil]
    omega
  obtain ⟨d, hd, _⟩ := FrameDecoder.feed_wire (d := (FrameDecoder.new : FrameDecoder cap)) FrameDecoder.inv_new rfl hw hbody []
  rw [List.append_nil] at hd
  exact ⟨d, hd⟩

theorem pings_append (fs gs : List DecodedFrame) : pings (fs ++ gs) = pings fs ++ pings gs := List.filterMap_append

/-- A PING by its name. -/
theorem pingContext_some {f : DecodedFrame} (hc : f.isCommand = true) (hn : Named f.body pingName) :
    pingContext f = some ((f.body.drop 5).drop 2) :=
  if_pos ⟨hc, (isPrefixOf_iff_named (by decide)).mpr hn⟩

theorem pingContext_none {f : DecodedFrame} (h : ¬(f.isCommand = true ∧ Named f.body pingName)) : pingContext f = none :=
  if_neg fun ⟨hc, hp⟩ => h ⟨hc, (isPrefixOf_iff_named (by decide)).mp hp⟩

/-- What is due for the PINGs among some frames. -/
def pongsFor (minor : UInt8) (fs : List DecodedFrame) : List (List UInt8) :=
  if minor ≥ 1 then (pings fs).map fun ctx => Conn.pongFrame (ctx.take 16) else []

theorem pongsFor_some {minor : UInt8} {f : DecodedFrame} {ctx : List UInt8} (hm : minor ≥ 1) (h : pingContext f = some ctx) :
    pongsFor minor [f] = [Conn.pongFrame (ctx.take 16)] := by
  simp only [pongsFor, if_pos hm, pings, List.filterMap_cons, h, List.filterMap_nil, List.map_cons, List.map_nil]

theorem pongsFor_none {minor : UInt8} {f : DecodedFrame} (h : pingContext f = none ∨ ¬minor ≥ 1) : pongsFor minor [f] = [] := by
  rcases h with h | h
  · simp only [pongsFor, pings, List.filterMap_cons, h, List.filterMap_nil, List.map_nil, ite_self]
  · rw [pongsFor, if_neg h]

theorem pongsFor_nil (minor : UInt8) : pongsFor minor [] = [] := ite_self []

theorem pongsFor_append (minor : UInt8) (fs gs : List DecodedFrame) :
    pongsFor minor (fs ++ gs) = pongsFor minor fs ++ pongsFor minor gs := by
  simp only [pongsFor, pings_append, List.map_append]
  split <;> rfl

/-- They answer the PINGs. -/
theorem answers_pongsFor (minor : UInt8) (fs : List DecodedFrame) : Answers minor fs (pongsFor minor fs) := by
  unfold Answers pongsFor
  by_cases hm : minor ≥ 1
  · rw [if_pos hm, if_pos hm, List.forall₂_map_right_iff, List.forall₂_same]
    exact fun ctx _ => echoes_pongFrame ctx
  · rw [if_neg hm, if_neg hm]

namespace Conn

variable {τ : Type} {cap : Nat} {R : Role τ} {tgt : Target}

/-- The PONG that is pending. -/
def owed (c : Conn τ cap) : List (List UInt8) :=
  match c.pendingPong with
  | none => []
  | some (ctx, n) => [pongFrame (ctx.toList.take n)]

/-- A PONG is queued with the first sixteen bytes of the context. -/
theorem queuePong_owed (c : Conn τ cap) (payload : List UInt8) :
    ∃ pong, queuePong c payload = (c.withTable c.table pong, .ok ()) ∧
      (c.withTable c.table pong).owed = [pongFrame ((payload.drop 2).take 16)] := by
  have hmin : (payload.drop 2).take (min (payload.drop 2).length 16) = (payload.drop 2).take 16 := by
    rw [Nat.min_comm, ← List.take_eq_take_min]
  have hlen : ((payload.drop 2).take 16).length = min (payload.drop 2).length 16 := by
    rw [List.length_take, Nat.min_comm]
  obtain ⟨ctx, hc, hb⟩ := copyInto_ok (ε := ConnError) (List.Vector.replicate 16 (0 : UInt8)) 0
    ((payload.drop 2).take (min (payload.drop 2).length 16)) (by rw [hmin, hlen]; omega)
  refine ⟨some (ctx, min (payload.drop 2).length 16), by simp only [queuePong, hc]; rfl, ?_⟩
  have htake := take_splice_zero (List.Vector.replicate 16 (0 : UInt8)).toList ((payload.drop 2).take 16)
  rw [hmin] at hb
  rw [hlen, ← hb] at htake
  simp only [owed, withTable, htake]

theorem owed_of_none {c : Conn τ cap} (h : c.pendingPong = none) : c.owed = [] := by
  simp only [owed, h]

/-- A frame leaves the PONG that it calls for, if none was pending. -/
theorem onEstablished_owed (hadd : R.addName ≠ pingName) (hremove : R.removeName ≠ pingName) {c : Conn τ cap}
    (hp : c.pendingPong = none) (f : DecodedFrame) : ∃ t pong, onEstablished R c f = (c.withTable t pong, .ok ()) ∧
      (c.withTable t pong).owed = pongsFor c.peerVersionMinor [f] := by
  -- Whatever does no more than change the table leaves none.
  have hquiet : ∀ t, onEstablished R c f = (c.withTable t c.pendingPong, .ok ()) →
      (pingContext f = none ∨ ¬c.peerVersionMinor ≥ 1) → ∃ t pong, onEstablished R c f = (c.withTable t pong, .ok ()) ∧
        (c.withTable t pong).owed = pongsFor c.peerVersionMinor [f] := by
    intro t he hno
    refine ⟨t, c.pendingPong, he, ?_⟩
    rw [pongsFor_none hno]
    exact owed_of_none (c := c.withTable t c.pendingPong) hp
  by_cases hcmd : f.isCommand = true
  · have hon : onEstablished R c f = onCommand R c f.body := if_pos hcmd
    by_cases hname : ∃ name, Named f.body name
    · obtain ⟨name, hn⟩ := hname
      rw [onCommand_named R c hn] at hon
      have hother : name ≠ pingName → pingContext f = none := by
        intro hne
        exact pingContext_none fun h => hne (hn.unique h.2)
      by_cases h1 : name = R.addName
      · rw [if_pos h1] at hon
        exact hquiet _ hon (.inl (hother (by rw [h1]; exact hadd)))
      · by_cases h2 : name = R.removeName
        · rw [if_neg h1, if_pos h2] at hon
          exact hquiet _ hon (.inl (hother (by rw [h2]; exact hremove)))
        · rw [if_neg h1, if_neg h2] at hon
          by_cases h3 : name = pingName ∧ c.peerVersionMinor ≥ 1
          · rw [if_pos h3] at hon
            obtain ⟨rfl, hm⟩ := h3
            obtain ⟨pong, hq, howed⟩ := queuePong_owed c (f.body.drop (1 + pingName.length))
            refine ⟨c.table, pong, hon.trans hq, ?_⟩
            rw [howed, pongsFor_some hm (pingContext_some hcmd hn)]
            rfl
          · rw [if_neg h3] at hon
            refine hquiet c.table hon ?_
            by_cases hping : name = pingName
            · exact .inr fun hm => h3 ⟨hping, hm⟩
            · exact .inl (hother hping)
    · rw [onCommand_unnamed R c hname] at hon
      exact hquiet c.table hon (.inl (pingContext_none fun h => hname ⟨_, h.2⟩))
  · exact hquiet _ (if_neg hcmd) (.inl (pingContext_none fun h => hcmd h.1))

end Conn
end Mzmq
