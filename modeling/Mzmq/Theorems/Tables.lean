import Mzmq.Lib.Refine
import Mzmq.Lemmas.Tables
import Mzmq.Tables

/-!
# The tables refine what they are for

Whatever calls are made on a new table, it answers as the bounded multiset or the bounded set does, and stores what that
holds: the order in which `swap_remove` leaves the entries does not show.
-/

namespace Mzmq

open Refine

variable {V : Type → Nat → Type} [FixedVec V] {maxEntries maxLen : Nat}

/-! ## Subscriptions -/

namespace SubTable

/-- The table stores the copies of the multiset. -/
def Holds (t : SubTable V maxEntries maxLen) (s : Multiset (List UInt8)) : Prop := t.keys = s

/-- Every call on a table that stores the multiset gets its answer, and leaves what it leaves. -/
theorem call_refines : Refines (fun t : SubTable V maxEntries maxLen => t.call) (subSpec maxEntries maxLen) Holds := by
  rintro t s k rfl
  cases k with
  | subscribe p =>
    simp only [call, subSpec]
    rcases t.subscribe_cases p with ⟨hlong, he⟩ | ⟨hfit, hfull, he⟩ | ⟨hfit, hroom, hok, hk⟩
    · rw [he, if_pos hlong]
      exact ⟨rfl, rfl⟩
    · rw [he, if_neg (Nat.not_lt.mpr hfit), if_pos hfull]
      exact ⟨rfl, rfl⟩
    · rw [if_neg (Nat.not_lt.mpr hfit), if_neg (Nat.ne_of_lt hroom)]
      exact ⟨hok, hk⟩
  | cancel p => exact ⟨rfl, t.keys_cancel p⟩

/-- A subscription that fails changes nothing. -/
theorem subscribe_error {t : SubTable V maxEntries maxLen} {p : List UInt8} {e : SubError}
    (h : (t.subscribe p).2 = .error e) : (t.subscribe p).1 = t := by
  rcases t.subscribe_cases p with ⟨_, he⟩ | ⟨_, _, he⟩ | ⟨_, _, hok, _⟩
  · rw [he]
  · rw [he]
  · rw [hok] at h
    cases h

end SubTable

/-- A subscription table is a bounded multiset: over all calls it gives the multiset's answers, stores its copies, is as large
as it, and matches the topics that some member is a prefix of; and a call that fails changes nothing. -/
theorem subTable_refines_multiset (V : Type → Nat → Type) [FixedVec V] (maxEntries maxPrefixLen : Nat) (ks : List SubCall) :
    let r := calls SubTable.call (SubTable.new : SubTable V maxEntries maxPrefixLen) ks
    let s := calls (subSpec maxEntries maxPrefixLen) 0 ks
    let stored : Multiset (List UInt8) := ↑((FixedVec.asSlice r.1.entries).map FixedVec.asSlice)
    r.2 = s.2 ∧ (∀ p, stored.count p = s.1.count p) ∧
      r.1.len = s.1.card ∧ s.1.card ≤ maxEntries ∧
      (∀ topic, r.1.matchesTopic topic = true ↔ ∃ p ∈ s.1, p <+: topic) ∧
      ∀ p e, (r.1.subscribe p).2 = .error e → (r.1.subscribe p).1 = r.1 := by
  intro r s stored
  obtain ⟨hans, hend⟩ := SubTable.call_refines.calls ks (SubTable.new : SubTable V maxEntries maxPrefixLen) 0
    SubTable.keys_new
  have hkeys : r.1.keys = s.1 := hend
  have hstored : r.1.keys = stored := by rw [SubTable.keys, keysOf, FixedVec.bag, Multiset.map_coe]
  have hlen : r.1.len = s.1.card := by rw [← hkeys, SubTable.card_keys]
  refine ⟨hans, ?_, hlen, ?_, ?_, fun p e => SubTable.subscribe_error⟩
  · intro p
    rw [← hstored, hkeys]
  · rw [← hlen]
    exact FixedVec.length_le r.1.entries
  · intro topic
    rw [← hkeys]
    exact r.1.matchesTopic_iff topic

/-! ## Groups -/

namespace GroupTable

/-- Every call on a table that stores the set gets its answer, and leaves what it leaves. -/
theorem call_refines : Refines (fun t : GroupTable V maxEntries maxLen => t.call) (groupSpec maxEntries maxLen) Stores := by
  intro t s k h
  cases k with
  | join g =>
    simp only [call, groupSpec]
    rcases t.join_cases g with ⟨hlong, he⟩ | ⟨hfit, hmem, he⟩ | ⟨hfit, hno, hfull, he⟩ | ⟨hfit, hno, hroom, hok, hk⟩
    · rw [he, if_pos hlong]
      exact ⟨rfl, h⟩
    · rw [he, if_neg (Nat.not_lt.mpr hfit), if_pos ((h.mem g).mp hmem)]
      exact ⟨rfl, h⟩
    · rw [he, if_neg (Nat.not_lt.mpr hfit), if_neg (fun hg => hno ((h.mem g).mpr hg)), if_pos (h.card ▸ hfull)]
      exact ⟨rfl, h⟩
    · rw [if_neg (Nat.not_lt.mpr hfit), if_neg (fun hg => hno ((h.mem g).mpr hg)), if_neg (h.card ▸ Nat.ne_of_lt hroom)]
      exact ⟨hok, h.join hno hk⟩
  | leave g => exact ⟨rfl, h.leave (t.keys_leave g)⟩

/-- A JOIN that fails, or whose group is there, changes nothing. -/
theorem join_same {t : GroupTable V maxEntries maxLen} {g : List UInt8} (h : (t.join g).2 ≠ .ok () ∨ g ∈ t.keys) :
    (t.join g).1 = t := by
  rcases t.join_cases g with ⟨_, he⟩ | ⟨_, _, he⟩ | ⟨_, _, _, he⟩ | ⟨_, hno, _, hok, _⟩
  · rw [he]
  · rw [he]
  · rw [he]
  · rcases h with h | h
    · exact absurd hok h
    · exact absurd h hno

end GroupTable

/-- A group table is a bounded set: over all calls it gives the set's answers, stores its members and each of them once, is as
large as it, and matches its members; and a call that fails, or joins a member, changes nothing. -/
theorem groupTable_refines_set (V : Type → Nat → Type) [FixedVec V] (maxEntries maxGroupLen : Nat) (ks : List GroupCall) :
    let r := calls GroupTable.call (GroupTable.new : GroupTable V maxEntries maxGroupLen) ks
    let s := calls (groupSpec maxEntries maxGroupLen) ∅ ks
    let stored := (FixedVec.asSlice r.1.entries).map FixedVec.asSlice
    r.2 = s.2 ∧
      stored.Nodup ∧ stored.length ≤ maxEntries ∧ (∀ g ∈ stored, g.length ≤ maxGroupLen) ∧ (∀ g, g ∈ stored ↔ g ∈ s.1) ∧
      (∀ g, r.1.matchesGroup g = true ↔ g ∈ s.1) ∧ r.1.len = s.1.card ∧
      ∀ g, (r.1.join g).2 ≠ .ok () ∨ g ∈ s.1 → (r.1.join g).1 = r.1 := by
  intro r s stored
  obtain ⟨hans, hend⟩ := GroupTable.call_refines.calls ks (GroupTable.new : GroupTable V maxEntries maxGroupLen) ∅
    GroupTable.stores_new
  have hst : r.1.Stores s.1 := hend
  have hkeys : r.1.keys = ↑stored := by rw [GroupTable.keys, keysOf, FixedVec.bag, Multiset.map_coe]
  have hmem : ∀ g, g ∈ stored ↔ g ∈ s.1 := by
    intro g
    rw [← hst.mem g, hkeys, Multiset.mem_coe]
  refine ⟨hans, ?_, ?_, ?_, hmem, ?_, ?_, ?_⟩
  · rw [← Multiset.coe_nodup, ← hkeys]
    exact hst.nodup
  · rw [List.length_map]
    exact FixedVec.length_le r.1.entries
  · intro g hg
    obtain ⟨e, _, rfl⟩ := List.mem_map.mp hg
    exact FixedVec.length_le e
  · intro g
    rw [r.1.matchesGroup_iff, hst.mem]
  · rw [← hst.card, GroupTable.card_keys]
  · intro g hg
    rw [← hst.mem g] at hg
    exact GroupTable.join_same hg

/-- A full table refuses a new group, and answers for a member as before; LEAVE makes room. -/
example : (calls GroupTable.call (GroupTable.new : GroupTable BVec 1 2)
    [.join [0x61], .join [0x62], .join [0x61], .leave [0x61], .join [0x62], .join [0x61, 0x62, 0x63]]).2 =
      [.ok (), .error .tableFull, .ok (), .ok (), .ok (), .error .groupTooLong] := by decide

end Mzmq
