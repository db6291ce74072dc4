import Mzmq.Filter

/-!
# The tables store what the peer asks for

The multiset of the keys in a table (`keys`) against what the peer asked for: a subscription table never holds more than the
net counts, and holds just them while they fit; a group table never holds a group twice, nor one that the peer is not in,
and holds all of them while they fit.
-/

namespace Mzmq

variable {V : Type → Nat → Type} [FixedVec V] {maxEntries maxLen : Nat}

/-! ## Entries and keys -/

section Keys

open FixedVec

variable {n m : Nat}

/-- The keys that a vector of entries stands for. -/
def keysOf (v : V (V UInt8 m) n) : Multiset (List UInt8) := (bag v).map asSlice

theorem mem_keysOf {v : V (V UInt8 m) n} {p : List UInt8} : p ∈ keysOf v ↔ ∃ e ∈ asSlice v, asSlice e = p := by
  simp [keysOf, bag]

theorem keysOf_empty : keysOf (empty : V (V UInt8 m) n) = 0 := by
  rw [keysOf, bag, asSlice_empty]
  rfl

theorem card_keysOf (v : V (V UInt8 m) n) : (keysOf v).card = (asSlice v).length := by
  simp [keysOf, bag]

/-- What a push leaves: the key is added, if there is room. -/
theorem keysOf_push (v : V (V UInt8 m) n) (p : List UInt8) (h : p.length ≤ m) :
    ((keysOf v).card < n ∧ ∃ v', push v (ofSlice p h) = (v', true) ∧ keysOf v' = p ::ₘ keysOf v) ∨
      push v (ofSlice p h) = (v, false) ∧ (keysOf v).card = n := by
  rw [keysOf, Multiset.card_map]
  rcases push_cases v (ofSlice p h) with ⟨hroom, hok, hb⟩ | hfull
  · refine .inl ⟨hroom, _, Prod.ext rfl hok, ?_⟩
    rw [keysOf, hb, Multiset.map_cons, asSlice_ofSlice]
  · exact .inr hfull

/-- What taking out the first entry with a key leaves: one copy less, if there is one. -/
theorem keysOf_remove (v : V (V UInt8 m) n) (p : List UInt8) :
    (∃ i, (asSlice v).findIdx? (fun e => asSlice e = p) = some i ∧ keysOf (swapRemove v i) = (keysOf v).erase p) ∨
      (asSlice v).findIdx? (fun e => asSlice e = p) = none ∧ p ∉ keysOf v := by
  cases hf : (asSlice v).findIdx? (fun e => asSlice e = p) with
  | some i =>
    obtain ⟨hlt, hi, _⟩ := List.findIdx?_eq_some_iff_getElem.mp hf
    refine .inl ⟨i, rfl, ?_⟩
    rw [keysOf, bag_swapRemove asSlice hlt, of_decide_eq_true hi]
    rfl
  | none =>
    refine .inr ⟨rfl, ?_⟩
    rw [mem_keysOf]
    rintro ⟨e, he, hp⟩
    have := List.findIdx?_eq_none_iff.mp hf e he
    simp [hp] at this

end Keys

/-! ## Subscriptions -/

namespace SubTable

def keys (t : SubTable V maxEntries maxLen) : Multiset (List UInt8) := keysOf t.entries

theorem keys_new : (new : SubTable V maxEntries maxLen).keys = 0 := keysOf_empty

theorem card_keys (t : SubTable V maxEntries maxLen) : t.keys.card = t.len := card_keysOf t.entries

/-- What `subscribe` can do, and when. -/
theorem subscribe_cases (t : SubTable V maxEntries maxLen) (p : List UInt8) :
    (maxLen < p.length ∧ t.subscribe p = (t, .error .prefixTooLong)) ∨
      (p.length ≤ maxLen ∧ t.keys.card = maxEntries ∧ t.subscribe p = (t, .error .tableFull)) ∨
      (p.length ≤ maxLen ∧ t.keys.card < maxEntries ∧ (t.subscribe p).2 = .ok () ∧
        (t.subscribe p).1.keys = p ::ₘ t.keys) := by
  unfold subscribe
  by_cases hlen : p.length > maxLen
  · rw [dif_pos hlen]
    exact .inl ⟨hlen, rfl⟩
  · have hle : p.length ≤ maxLen := Nat.le_of_not_lt hlen
    rw [dif_neg hlen]
    rcases keysOf_push t.entries p hle with ⟨hroom, v, hp, hk⟩ | ⟨hp, hc⟩
    · rw [hp]
      exact .inr (.inr ⟨hle, hroom, rfl, hk⟩)
    · rw [hp]
      exact .inr (.inl ⟨hle, hc, rfl⟩)

/-- SUBSCRIBE adds its prefix, unless the prefix is too long or the table is full. -/
theorem keys_subscribe (t : SubTable V maxEntries maxLen) (p : List UInt8) :
    (t.subscribe p).1.keys = p ::ₘ t.keys ∨
      (t.subscribe p).1 = t ∧ (maxLen < p.length ∨ t.keys.card = maxEntries) := by
  rcases t.subscribe_cases p with ⟨hlong, he⟩ | ⟨_, hfull, he⟩ | ⟨_, _, _, hk⟩
  · exact .inr ⟨congrArg Prod.fst he, .inl hlong⟩
  · exact .inr ⟨congrArg Prod.fst he, .inr hfull⟩
  · exact .inl hk

/-- CANCEL takes one copy of its prefix away, if there is one. -/
theorem keys_cancel (t : SubTable V maxEntries maxLen) (p : List UInt8) : (t.cancel p).keys = t.keys.erase p := by
  unfold cancel
  rcases keysOf_remove t.entries p with ⟨i, hf, hk⟩ | ⟨hf, hno⟩
  · rw [hf]
    exact hk
  · rw [hf]
    exact (Multiset.erase_of_notMem hno).symm

/-- A topic matches when some stored prefix is a prefix of it. -/
theorem matchesTopic_iff (t : SubTable V maxEntries maxLen) (topic : List UInt8) :
    t.matchesTopic topic = true ↔ ∃ p ∈ t.keys, p <+: topic := by
  unfold matchesTopic keys
  rw [List.any_eq_true]
  constructor
  · rintro ⟨e, he, hp⟩
    exact ⟨FixedVec.asSlice e, mem_keysOf.mpr ⟨e, he, rfl⟩, List.isPrefixOf_iff_prefix.mp hp⟩
  · rintro ⟨p, hp, hpre⟩
    obtain ⟨e, he, rfl⟩ := mem_keysOf.mp hp
    exact ⟨e, he, List.isPrefixOf_iff_prefix.mpr hpre⟩

/-- What a frame does to the table. -/
def ask (t : SubTable V maxEntries maxLen) (f : DecodedFrame) : SubTable V maxEntries maxLen :=
  match subAsk f with
  | .add p => (t.subscribe p).1
  | .remove p => t.cancel p
  | .other => t

/-- A table that holds no more than the net counts still does after a frame. -/
theorem ask_le {t : SubTable V maxEntries maxLen} {s : Multiset (List UInt8)} (h : t.keys ≤ s) (f : DecodedFrame) :
    (t.ask f).keys ≤ countAsk s f := by
  unfold ask countAsk
  cases subAsk f with
  | add p =>
    rcases t.keys_subscribe p with hk | ⟨hk, _⟩
    · simp only [hk]
      exact Multiset.cons_le_cons p h
    · simp only [hk]
      exact h.trans (Multiset.le_cons_self s p)
  | remove p =>
    simp only [keys_cancel]
    exact Multiset.erase_le_erase p h
  | other => exact h

/-- A table that holds just the net counts still does after a frame, when they fit. -/
theorem ask_eq {t : SubTable V maxEntries maxLen} {s : Multiset (List UInt8)} (h : t.keys = s) {f : DecodedFrame}
    (hcard : (countAsk s f).card ≤ maxEntries) (hlen : ∀ p, subAsk f = .add p → p.length ≤ maxLen) :
    (t.ask f).keys = countAsk s f := by
  unfold ask
  unfold countAsk at hcard ⊢
  cases ha : subAsk f with
  | add p =>
    rw [ha] at hcard
    rcases t.keys_subscribe p with hk | ⟨_, hlong | hfull⟩
    · simp only [hk, h]
    · have := hlen p ha
      omega
    · rw [h] at hfull
      simp only [Multiset.card_cons] at hcard
      omega
  | remove p => simp only [keys_cancel, h]
  | other => exact h

/-- The table after frames of the peer. -/
def askAll (t : SubTable V maxEntries maxLen) (fs : List DecodedFrame) : SubTable V maxEntries maxLen := fs.foldl ask t

/-- No history of frames makes the table hold more than the net counts. -/
theorem askAll_le (fs : List DecodedFrame) : ((new : SubTable V maxEntries maxLen).askAll fs).keys ≤ netCounts fs := by
  induction fs using List.reverseRecOn with
  | nil =>
    rw [askAll, List.foldl_nil, keys_new]
    exact Multiset.zero_le _
  | append_singleton fs f ih =>
    unfold askAll netCounts at ih ⊢
    rw [List.foldl_concat, List.foldl_concat]
    exact ask_le ih f

/-- As long as the net counts fit, the table holds just them. -/
theorem askAll_eq (fs : List DecodedFrame) (hcard : ∀ gs, gs <+: fs → (netCounts gs).card ≤ maxEntries)
    (hlen : ∀ f ∈ fs, ∀ p, subAsk f = .add p → p.length ≤ maxLen) :
    ((new : SubTable V maxEntries maxLen).askAll fs).keys = netCounts fs := by
  induction fs using List.reverseRecOn with
  | nil => exact keys_new
  | append_singleton fs f ih =>
    have hpre : ∀ gs, gs <+: fs → (netCounts gs).card ≤ maxEntries :=
      fun gs hg => hcard gs (hg.trans (List.prefix_append fs [f]))
    have ih := ih hpre fun g hg => hlen g (List.mem_append_left _ hg)
    have hlast := hcard _ (List.prefix_refl _)
    unfold askAll netCounts at ih hlast ⊢
    rw [List.foldl_concat] at hlast
    rw [List.foldl_concat, List.foldl_concat]
    exact ask_eq ih hlast (hlen f (by simp))

end SubTable

/-! ## Groups -/

namespace GroupTable

def keys (t : GroupTable V maxEntries maxLen) : Multiset (List UInt8) := keysOf t.entries

theorem keys_new : (new : GroupTable V maxEntries maxLen).keys = 0 := keysOf_empty

/-- A group matches when it is stored. -/
theorem matchesGroup_iff (t : GroupTable V maxEntries maxLen) (group : List UInt8) :
    t.matchesGroup group = true ↔ group ∈ t.keys := by
  unfold matchesGroup keys
  rw [List.any_eq_true, mem_keysOf]
  simp

theorem card_keys (t : GroupTable V maxEntries maxLen) : t.keys.card = t.len := card_keysOf t.entries

/-- What `join` can do, and when. -/
theorem join_cases (t : GroupTable V maxEntries maxLen) (g : List UInt8) :
    (maxLen < g.length ∧ t.join g = (t, .error .groupTooLong)) ∨
      (g.length ≤ maxLen ∧ g ∈ t.keys ∧ t.join g = (t, .ok ())) ∨
      (g.length ≤ maxLen ∧ g ∉ t.keys ∧ t.keys.card = maxEntries ∧ t.join g = (t, .error .tableFull)) ∨
      (g.length ≤ maxLen ∧ g ∉ t.keys ∧ t.keys.card < maxEntries ∧ (t.join g).2 = .ok () ∧
        (t.join g).1.keys = g ::ₘ t.keys) := by
  unfold join
  by_cases hlen : g.length > maxLen
  · rw [dif_pos hlen]
    exact .inl ⟨hlen, rfl⟩
  · have hle : g.length ≤ maxLen := Nat.le_of_not_lt hlen
    rw [dif_neg hlen]
    by_cases hmem : (FixedVec.asSlice t.entries).any (fun e => FixedVec.asSlice e = g) = true
    · rw [if_pos hmem]
      exact .inr (.inl ⟨hle, (matchesGroup_iff t g).mp hmem, rfl⟩)
    · rw [if_neg hmem]
      have hno : g ∉ t.keys := fun h => hmem ((matchesGroup_iff t g).mpr h)
      rcases keysOf_push t.entries g hle with ⟨hroom, v, hp, hk⟩ | ⟨hp, hc⟩
      · rw [hp]
        exact .inr (.inr (.inr ⟨hle, hno, hroom, rfl, hk⟩))
      · rw [hp]
        exact .inr (.inr (.inl ⟨hle, hno, hc, rfl⟩))

/-- JOIN adds its group, unless it is there, or too long, or the table is full. -/
theorem keys_join (t : GroupTable V maxEntries maxLen) (g : List UInt8) :
    (g ∉ t.keys ∧ (t.join g).1.keys = g ::ₘ t.keys) ∨
      (t.join g).1 = t ∧ (g ∈ t.keys ∨ maxLen < g.length ∨ t.keys.card = maxEntries) := by
  rcases t.join_cases g with ⟨hlong, he⟩ | ⟨_, hmem, he⟩ | ⟨_, _, hfull, he⟩ | ⟨_, hno, _, _, hk⟩
  · exact .inr ⟨congrArg Prod.fst he, .inr (.inl hlong)⟩
  · exact .inr ⟨congrArg Prod.fst he, .inl hmem⟩
  · exact .inr ⟨congrArg Prod.fst he, .inr (.inr hfull)⟩
  · exact .inl ⟨hno, hk⟩

/-- LEAVE takes one copy of its group away, if there is one. -/
theorem keys_leave (t : GroupTable V maxEntries maxLen) (g : List UInt8) : (t.leave g).keys = t.keys.erase g := by
  unfold leave
  rcases keysOf_remove t.entries g with ⟨i, hf, hk⟩ | ⟨hf, hno⟩
  · rw [hf]
    exact hk
  · rw [hf]
    exact (Multiset.erase_of_notMem hno).symm

/-- What a frame does to the table. -/
def ask (t : GroupTable V maxEntries maxLen) (f : DecodedFrame) : GroupTable V maxEntries maxLen :=
  match groupAsk f with
  | .add g => (t.join g).1
  | .remove g => t.leave g
  | .other => t

/-- The table stores groups of the set, none of them twice. -/
structure Within (t : GroupTable V maxEntries maxLen) (s : Finset (List UInt8)) : Prop where
  nodup : t.keys.Nodup
  mem : ∀ g ∈ t.keys, g ∈ s

/-- The table stores the set. -/
structure Stores (t : GroupTable V maxEntries maxLen) (s : Finset (List UInt8)) : Prop where
  nodup : t.keys.Nodup
  mem : ∀ g, g ∈ t.keys ↔ g ∈ s

/-- A table within the set is within it after a frame. -/
theorem Within.ask {t : GroupTable V maxEntries maxLen} {s : Finset (List UInt8)} (h : t.Within s) (f : DecodedFrame) :
    (t.ask f).Within (joinAsk s f) := by
  unfold GroupTable.ask joinAsk
  cases groupAsk f with
  | add g =>
    rcases t.keys_join g with ⟨hno, hk⟩ | ⟨hk, _⟩
    · constructor
      · rw [hk]
        exact Multiset.nodup_cons.mpr ⟨hno, h.nodup⟩
      · intro g' hg'
        rw [hk, Multiset.mem_cons] at hg'
        rcases hg' with rfl | hg'
        · exact Finset.mem_insert_self _ _
        · exact Finset.mem_insert_of_mem (h.mem g' hg')
    · simp only [hk]
      exact ⟨h.nodup, fun g' hg' => Finset.mem_insert_of_mem (h.mem g' hg')⟩
  | remove g =>
    constructor
    · rw [keys_leave]
      exact h.nodup.erase g
    · intro g' hg'
      rw [keys_leave, h.nodup.mem_erase_iff] at hg'
      exact Finset.mem_erase.mpr ⟨hg'.1, h.mem g' hg'.2⟩
  | other => exact h

/-- The table that stores a set has as many entries as the set has members. -/
theorem Stores.card {t : GroupTable V maxEntries maxLen} {s : Finset (List UInt8)} (h : t.Stores s) :
    t.keys.card = s.card := by
  have he : s.val = t.keys := by
    rw [Multiset.Nodup.ext s.nodup h.nodup]
    intro g
    exact (h.mem g).symm
  rw [← he]
  rfl

/-- A new table stores the empty set. -/
theorem stores_new : (new : GroupTable V maxEntries maxLen).Stores ∅ := by
  constructor
  · rw [keys_new]
    exact Multiset.nodup_zero
  · intro g
    rw [keys_new]
    exact iff_of_false (Multiset.notMem_zero g) (Finset.notMem_empty g)

/-- A group that is not there yet, stored once, is one more member. -/
theorem Stores.join {t t' : GroupTable V maxEntries maxLen} {s : Finset (List UInt8)} (h : t.Stores s) {g : List UInt8}
    (hno : g ∉ t.keys) (hk : t'.keys = g ::ₘ t.keys) : t'.Stores (insert g s) := by
  constructor
  · rw [hk]
    exact Multiset.nodup_cons.mpr ⟨hno, h.nodup⟩
  · intro g'
    rw [hk, Multiset.mem_cons, h.mem, Finset.mem_insert]

/-- Without one copy of a group, that group is no member. -/
theorem Stores.leave {t t' : GroupTable V maxEntries maxLen} {s : Finset (List UInt8)} (h : t.Stores s) {g : List UInt8}
    (hk : t'.keys = t.keys.erase g) : t'.Stores (s.erase g) := by
  constructor
  · rw [hk]
    exact h.nodup.erase g
  · intro g'
    rw [hk, h.nodup.mem_erase_iff, h.mem, Finset.mem_erase]

/-- A table that stores the set stores it after a frame, when it fits. -/
theorem Stores.ask {t : GroupTable V maxEntries maxLen} {s : Finset (List UInt8)} (h : t.Stores s) {f : DecodedFrame}
    (hcard : (joinAsk s f).card ≤ maxEntries) (hlen : ∀ g, groupAsk f = .add g → g.length ≤ maxLen) :
    (t.ask f).Stores (joinAsk s f) := by
  unfold GroupTable.ask
  unfold joinAsk at hcard ⊢
  cases ha : groupAsk f with
  | add g =>
    rw [ha] at hcard
    rcases t.keys_join g with ⟨hno, hk⟩ | ⟨hk, hmem | hlong | hfull⟩
    · exact h.join hno hk
    · simp only [hk]
      have hs : insert g s = s := Finset.insert_eq_of_mem ((h.mem g).mp hmem)
      rw [hs]
      exact h
    · have := hlen g ha
      omega
    · -- A full table that stores the set leaves no room in the set for another group.
      simp only [hk]
      rw [h.card] at hfull
      have hin : g ∈ s := by
        by_contra hno
        simp only [Finset.card_insert_of_notMem hno] at hcard
        omega
      rw [Finset.insert_eq_of_mem hin]
      exact h
  | remove g => exact h.leave (t.keys_leave g)
  | other => exact h

/-- The table after frames of the peer. -/
def askAll (t : GroupTable V maxEntries maxLen) (fs : List DecodedFrame) : GroupTable V maxEntries maxLen := fs.foldl ask t

/-- No history of frames makes the table store a group that the peer is not in. -/
theorem askAll_within (fs : List DecodedFrame) : ((new : GroupTable V maxEntries maxLen).askAll fs).Within (joined fs) := by
  induction fs using List.reverseRecOn with
  | nil =>
    constructor
    · rw [askAll, List.foldl_nil, keys_new]
      exact Multiset.nodup_zero
    · intro g hg
      rw [askAll, List.foldl_nil, keys_new] at hg
      exact absurd hg (Multiset.notMem_zero g)
  | append_singleton fs f ih =>
    unfold askAll joined at ih ⊢
    rw [List.foldl_concat, List.foldl_concat]
    exact ih.ask f

/-- As long as the groups fit, the table stores just them. -/
theorem askAll_stores (fs : List DecodedFrame) (hcard : ∀ gs, gs <+: fs → (joined gs).card ≤ maxEntries)
    (hlen : ∀ f ∈ fs, ∀ g, groupAsk f = .add g → g.length ≤ maxLen) :
    ((new : GroupTable V maxEntries maxLen).askAll fs).Stores (joined fs) := by
  induction fs using List.reverseRecOn with
  | nil => exact stores_new
  | append_singleton fs f ih =>
    have hpre : ∀ gs, gs <+: fs → (joined gs).card ≤ maxEntries :=
      fun gs hg => hcard gs (hg.trans (List.prefix_append fs [f]))
    have ih := ih hpre fun g hg => hlen g (List.mem_append_left _ hg)
    have hlast := hcard _ (List.prefix_refl _)
    unfold askAll joined at ih hlast ⊢
    rw [List.foldl_concat] at hlast
    rw [List.foldl_concat, List.foldl_concat]
    exact ih.ask hlast (hlen f (by simp))

end GroupTable
end Mzmq
