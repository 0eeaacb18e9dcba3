import Mathlib.Data.Finset.Card

/-! # Tables of slots

A table is an array of slots, some of them live. It grows by doubling up to a
ceiling, new slots being empty, and is compacted by moving its live slots to
the front in their order. The entries that matter are the live ones, so the
lemmas below say what each operation does to them.
-/

namespace WendyLite.SlotTable

open List

/-- Double `capacity` until it holds `count`, saturating at `maximum`. The
first argument bounds the number of doublings. -/
def growCapacity (maximum count : Nat) : Nat → Nat → Nat
  | 0, capacity => capacity
  | fuel + 1, capacity =>
    if capacity < count then
      growCapacity maximum count fuel
        (if capacity > maximum / 2 then maximum else capacity * 2)
    else capacity

lemma le_growCapacity {maximum count : Nat} (fits : count ≤ maximum) (fuel capacity : Nat)
    (positive : 0 < capacity) (enough : count ≤ capacity + fuel) :
    count ≤ growCapacity maximum count fuel capacity := by
  induction fuel generalizing capacity with
  | zero => simpa [growCapacity] using enough
  | succ fuel ih =>
    rw [growCapacity]
    split
    · apply ih <;> split <;> omega
    omega

lemma growCapacity_le {maximum count : Nat} (fuel capacity : Nat) (bounded : capacity ≤ maximum) :
    growCapacity maximum count fuel capacity ≤ maximum := by
  induction fuel generalizing capacity with
  | zero => simpa [growCapacity] using bounded
  | succ fuel ih =>
    rw [growCapacity]
    split
    · apply ih
      split <;> omega
    exact bounded

def grow (empty : Slot) (capacity : Nat) (table : List Slot) : List Slot :=
  table ++ List.replicate (capacity - table.length) empty

@[simp] lemma length_grow (empty : Slot) (capacity : Nat) (table : List Slot) :
    (grow empty capacity table).length = max table.length capacity := by
  simp only [grow, length_append, length_replicate]
  omega

section Live

variable (live : Slot → Bool) (empty : Slot)

def compact (table : List Slot) : List Slot :=
  grow empty table.length (table.filter live)

variable {live empty}

lemma filter_grow (dead : live empty = false) (capacity : Nat) (table : List Slot) :
    (grow empty capacity table).filter live = table.filter live := by
  simp [grow, filter_append, dead]

lemma filter_compact (dead : live empty = false) (table : List Slot) :
    (compact live empty table).filter live = table.filter live := by
  rw [compact, filter_grow dead, filter_filter]
  simp

lemma mem_live_of_filter_eq {before after : List Slot}
    (same : after.filter live = before.filter live) {slot : Slot}
    (alive : live slot = true) : slot ∈ after ↔ slot ∈ before := by
  have transfer : slot ∈ after.filter live ↔ slot ∈ before.filter live := by rw [same]
  simpa [mem_filter, alive] using transfer

lemma find?_eq_of_filter_eq {before after : List Slot}
    (same : after.filter live = before.filter live) {accept : Slot → Bool}
    (onlyLive : ∀ slot, accept slot = true → live slot = true) :
    after.find? accept = before.find? accept := by
  have throughFilter : ∀ table : List Slot,
      table.find? accept = (table.filter live).find? accept := by
    intro table
    rw [find?_filter]
    congr 1
    funext slot
    cases accepted : accept slot with
    | false => simp
    | true => simp [onlyLive slot accepted]
  rw [throughFilter after, throughFilter before, same]

end Live

/-! ## Keys of the live slots -/

section Keys

variable (live : Slot → Bool) (key : Slot → Key)

def keys (table : List Slot) : List Key := (table.filter live).map key

variable {live key}

lemma mem_keys :
    value ∈ keys live key table ↔ ∃ slot ∈ table, live slot = true ∧ key slot = value := by
  simp [keys, mem_filter, and_assoc]

lemma keys_append (left right : List Slot) :
    keys live key (left ++ right) = keys live key left ++ keys live key right := by
  simp [keys]

lemma keys_cons (slot : Slot) (table : List Slot) : keys live key (slot :: table) =
      if live slot then key slot :: keys live key table else keys live key table := by
  by_cases alive : live slot = true <;> simp [keys, alive]

variable {index : Nat} {old : Slot}

lemma set_eq_append (located : table[index]? = some old) (slot : Slot) :
    ∃ left right, table = left ++ old :: right ∧ left.length = index ∧
      table.set index slot = left ++ slot :: right := by
  obtain ⟨bound, value⟩ := List.getElem?_eq_some_iff.mp located
  refine ⟨table.take index, table.drop (index + 1), ?_, ?_, ?_⟩
  · rw [← value]
    simp
  · rw [length_take]
    omega
  exact set_eq_take_append_cons_drop.trans (if_pos bound)

lemma located_of_findIdx? {table : List Slot} {accept : Slot → Bool}
    (found : table.findIdx? accept = some index) :
    ∃ slot, table[index]? = some slot ∧ accept slot = true := by
  obtain ⟨bound, accepted, _⟩ := findIdx?_eq_some_iff_getElem.mp found
  exact ⟨table[index], getElem?_eq_getElem bound, accepted⟩

variable {slot : Slot}

lemma mem_set_of_ne {table : List Slot} {other : Slot}
    (located : table[index]? = some old) (mem : other ∈ table) (different : other ≠ old) :
    other ∈ table.set index slot := by
  obtain ⟨left, right, split, _, written⟩ := set_eq_append located slot
  rw [written]
  rw [split] at mem
  simp only [mem_append, mem_cons] at mem ⊢
  tauto

lemma located_set {table : List Slot} (located : table[index]? = some old) (slot : Slot) :
    (table.set index slot)[index]? = some slot := by
  obtain ⟨bound, _⟩ := List.getElem?_eq_some_iff.mp located
  exact getElem?_set_self bound

lemma mem_set_self {table : List Slot}
    (located : table[index]? = some old) : slot ∈ table.set index slot := by
  obtain ⟨left, right, _, _, written⟩ := set_eq_append located slot
  rw [written]
  simp

lemma modify_cases (table : List Slot) (index : Nat) (change : Slot → Slot) :
    table.modify index change = table ∨ ∃ old, table[index]? = some old ∧
        table.modify index change = table.set index (change old) := by
  rw [modify_eq_set_getElem?]
  cases located : table[index]? with
  | none => exact .inl rfl
  | some old => exact .inr ⟨old, rfl, rfl⟩

/-- Overwriting a slot by one with a fresh key, or with the key it had, keeps
the live keys distinct. -/
lemma nodup_keys_set (located : table[index]? = some old) (distinct : (keys live key table).Nodup)
    (fresh : live slot = true →
      key slot ∉ keys live key table ∨ (live old = true ∧ key old = key slot)) :
    (keys live key (table.set index slot)).Nodup := by
  obtain ⟨left, right, split, _, written⟩ := set_eq_append located slot
  subst split
  rw [written]
  rw [keys_append, keys_cons] at distinct ⊢
  have without : (keys live key left ++ keys live key right).Nodup := by
    refine List.Nodup.sublist (List.Sublist.append_left ?_ _) distinct
    split
    · exact sublist_cons_self _ _
    exact List.Sublist.refl _
  by_cases alive : live slot = true
  · rw [if_pos alive]
    apply nodup_middle.mpr
    apply nodup_cons.mpr
    refine ⟨?_, without⟩
    obtain absent | ⟨oldAlive, sameKey⟩ := fresh alive
    · intro present
      apply absent
      rw [keys_append, keys_cons]
      split <;> simp only [mem_append, mem_cons] at present ⊢ <;> tauto
    rw [if_pos oldAlive] at distinct
    rw [← sameKey]
    exact (nodup_cons.mp (nodup_middle.mp distinct)).1
  rw [if_neg alive]
  exact without

/-- Rewriting slots in place, never reviving one and never changing a key,
leaves a sublist of the live keys. -/
lemma keys_map_sublist (rewrite : Slot → Slot)
    (keepsKey : ∀ slot, live (rewrite slot) = true → live slot = true ∧
      key (rewrite slot) = key slot) (table : List Slot) :
    (keys live key (table.map rewrite)).Sublist (keys live key table) := by
  induction table with
  | nil => simp [keys]
  | cons slot rest ih =>
    rw [map_cons, keys_cons, keys_cons]
    by_cases alive : live (rewrite slot) = true
    · have kept := keepsKey slot alive
      rw [if_pos alive, if_pos kept.1, kept.2]
      exact ih.cons_cons _
    rw [if_neg alive]
    split
    · exact ih.cons _
    exact ih

lemma keys_map_of_same
    (same : ∀ slot, live (rewrite slot) = live slot ∧ key (rewrite slot) = key slot)
    (table : List Slot) : keys live key (table.map rewrite) = keys live key table := by
  induction table with
  | nil => rfl
  | cons slot rest ih =>
    rw [map_cons, keys_cons, keys_cons, (same slot).1, (same slot).2, ih]

lemma keys_modify_of_same
    (same : ∀ slot, live (change slot) = live slot ∧ key (change slot) = key slot)
    (table : List Slot) (index : Nat) :
    keys live key (table.modify index change) = keys live key table := by
  obtain unchanged | ⟨old, located, written⟩ := modify_cases table index change
  · rw [unchanged]
  obtain ⟨left, right, split, _, written'⟩ := set_eq_append located (change old)
  rw [written, written', split, keys_append, keys_append, keys_cons, keys_cons, (same old).1,
    (same old).2]

lemma filter_set_of_free {table : List Slot}
    (located : table[index]? = some old) (free : live old = false) (dead : live slot = false) :
    (table.set index slot).filter live = table.filter live := by
  obtain ⟨left, right, split, _, written⟩ := set_eq_append located slot
  rw [written, split]
  simp [filter_append, free, dead]

lemma eq_of_key_eq (distinct : (keys live key table).Nodup) {left right : Slot}
    (leftMem : left ∈ table) (rightMem : right ∈ table) (leftAlive : live left = true)
    (rightAlive : live right = true) (equal : key left = key right) : left = right :=
  inj_on_of_nodup_map distinct
    (mem_filter.mpr ⟨leftMem, leftAlive⟩)
    (mem_filter.mpr ⟨rightMem, rightAlive⟩) equal

lemma find?_eq_of_perm {before after : List Slot}
    (same : (after.filter live).Perm (before.filter live)) (distinct : (keys live key before).Nodup)
    {accept : Slot → Bool} {value : Key}
    (keyed : ∀ slot, accept slot = true → live slot = true ∧ key slot = value) :
    after.find? accept = before.find? accept := by
  have members : ∀ slot, live slot = true → (slot ∈ after ↔ slot ∈ before) := by
    intro slot alive
    simpa [mem_filter, alive] using same.mem_iff (a := slot)
  cases found : before.find? accept with
  | none =>
    rw [find?_eq_none] at found ⊢
    intro slot mem accepted
    exact found slot ((members slot (keyed slot accepted).1).mp mem) accepted
  | some slot =>
    have accepted := find?_some found
    have mem := (members slot (keyed slot accepted).1).mpr (mem_of_find?_eq_some found)
    obtain ⟨other, at_⟩ := Option.isSome_iff_exists.mp
      (find?_isSome.mpr ⟨slot, mem, accepted⟩)
    have accepted' := find?_some at_
    have member' := (members other (keyed other accepted').1).mp (mem_of_find?_eq_some at_)
    rw [at_, eq_of_key_eq distinct member' (mem_of_find?_eq_some found)
      (keyed other accepted').1 (keyed slot accepted).1
      ((keyed other accepted').2.trans (keyed slot accepted).2.symm)]

end Keys

/-! ## Free slots -/

/-- A full table of slots with distinct keys has as many keys as slots, so a
table whose keys stay below `maximum` has a free slot or room to grow. -/
lemma exists_free_or_lt [DecidableEq Key] {live : Slot → Bool} {key : Slot → Key}
    {table : List Slot} {maximum : Nat} (distinct : (keys live key table).Nodup)
    (few : (keys live key table).toFinset.card < maximum) :
    (∃ slot ∈ table, live slot = false) ∨ table.length < maximum := by
  by_contra none
  rw [not_or, not_lt] at none
  have full : table.filter live = table := by
    apply filter_eq_self.mpr
    intro slot mem
    by_contra dead
    exact none.1 ⟨slot, mem, by simpa using dead⟩
  rw [toFinset_card_of_nodup distinct, keys, length_map, full] at few
  omega

/-! ## Proper tables -/

/-- Every live slot is as it should be, no two live slots have one key, and the
table is within its ceiling. -/
structure Proper (live : Slot → Bool) (key : Slot → Key) (maximum : Nat) (ok : Slot → Prop)
    (table : List Slot) : Prop where
  each : ∀ slot ∈ table, live slot = true → ok slot
  distinct : (keys live key table).Nodup
  length_le : table.length ≤ maximum

namespace Proper

variable {live : Slot → Bool} {key : Slot → Key} {maximum : Nat} {ok ok' : Slot → Prop}
  {table : List Slot}

lemma nil : Proper live key maximum ok [] where
  each := by simp
  distinct := by simp [keys]
  length_le := by simp

lemma imp (proper : Proper live key maximum ok table)
    (weaken : ∀ slot, live slot = true → ok slot → ok' slot) : Proper live key maximum ok' table :=
  { proper with each := fun slot mem alive => weaken slot alive (proper.each slot mem alive) }

lemma of_filter_eq (proper : Proper live key maximum ok table) {after : List Slot}
    (same : after.filter live = table.filter live) (short : after.length ≤ maximum) :
    Proper live key maximum ok after where
  each slot mem alive := proper.each slot ((mem_live_of_filter_eq same alive).mp mem) alive
  distinct := by
    rw [keys, same]
    exact proper.distinct
  length_le := short

variable {slot : Slot}

section

variable (proper : Proper live key maximum ok table)
include proper

lemma set (located : table[index]? = some old) (good : live slot = true → ok slot)
    (fresh : live slot = true →
      key slot ∉ keys live key table ∨ (live old = true ∧ key old = key slot)) :
    Proper live key maximum ok (table.set index slot) where
  each other mem alive := by
    obtain before | rfl := mem_or_eq_of_mem_set mem
    · exact proper.each other before alive
    exact good alive
  distinct := nodup_keys_set located proper.distinct fresh
  length_le := by
    rw [length_set]
    exact proper.length_le

lemma set_same (located : table[index]? = some old)
    (keeps : live slot = true → live old = true ∧ key old = key slot ∧ (ok old → ok slot)) :
    Proper live key maximum ok (table.set index slot) :=
  proper.set located
    (fun alive =>
      (keeps alive).2.2 (proper.each old (mem_of_getElem? located) (keeps alive).1))
    (fun alive => .inr ⟨(keeps alive).1, (keeps alive).2.1⟩)

lemma modify (index : Nat) (change : Slot → Slot) (keeps : ∀ old, live (change old) = true →
      live old = true ∧ key old = key (change old) ∧ (ok old → ok (change old))) :
    Proper live key maximum ok (table.modify index change) := by
  obtain unchanged | ⟨old, located, written⟩ := modify_cases table index change
  · rw [unchanged]
    exact proper
  rw [written]
  exact proper.set_same located (keeps old)

lemma retire (index : Nat)
    (dead : live slot = false) : Proper live key maximum ok (table.set index slot) := by
  cases located : table[index]? with
  | none =>
    rw [set_eq_of_length_le (List.getElem?_eq_none_iff.mp located)]
    exact proper
  | some old =>
    exact proper.set located (fun alive => absurd alive (by simp [dead]))
      (fun alive => absurd alive (by simp [dead]))

lemma map (rewrite : Slot → Slot) (keeps : ∀ slot, live (rewrite slot) = true →
      live slot = true ∧ key (rewrite slot) = key slot ∧ (ok slot → ok' (rewrite slot))) :
    Proper live key maximum ok' (table.map rewrite) where
  each slot mem alive := by
    obtain ⟨old, oldMember, rfl⟩ := mem_map.mp mem
    have kept := keeps old alive
    exact kept.2.2 (proper.each old oldMember kept.1)
  distinct :=
    List.Nodup.sublist
      (keys_map_sublist rewrite (fun slot alive => ⟨(keeps slot alive).1, (keeps slot alive).2.1⟩)
        table)
      proper.distinct
  length_le := by
    rw [length_map]
    exact proper.length_le

lemma concat (good : live slot = true → ok slot) (fresh : key slot ∉ keys live key table)
    (room : table.length + 1 ≤ maximum) : Proper live key maximum ok (table ++ [slot]) where
  each other mem alive := by
    obtain before | last := mem_append.mp mem
    · exact proper.each other before alive
    rw [mem_singleton.mp last] at alive ⊢
    exact good alive
  distinct := by
    rw [keys_append, keys_cons]
    split
    · refine nodup_append'.mpr ⟨proper.distinct, by simp [keys], ?_⟩
      intro value before last
      simp only [keys, filter_nil, map_nil, mem_singleton] at last
      exact fresh (last ▸ before)
    simpa [keys] using proper.distinct
  length_le := by simpa using room

lemma append_empty {free : List Slot}
    {empty : Slot} (dead : live empty = false) (allEmpty : ∀ slot ∈ free, slot = empty)
    (fits : (table ++ free).length ≤ maximum) : Proper live key maximum ok (table ++ free) := by
  have none : free.filter live = [] := by
    apply filter_eq_nil_iff.mpr
    intro slot mem
    simp [allEmpty slot mem, dead]
  refine proper.of_filter_eq ?_ fits
  rw [filter_append, none, append_nil]

lemma perm {after : List Slot}
    (permuted : after.Perm table) : Proper live key maximum ok after where
  each slot mem alive := proper.each slot (permuted.mem_iff.mp mem) alive
  distinct := (((permuted.filter live).map key).nodup_iff).mpr proper.distinct
  length_le := by
    rw [permuted.length_eq]
    exact proper.length_le

end

end Proper

end WendyLite.SlotTable
