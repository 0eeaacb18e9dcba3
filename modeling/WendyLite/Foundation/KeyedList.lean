import Mathlib.Algebra.Order.BigOperators.Group.List
import Mathlib.Algebra.Order.Ring.Nat

/-! # Lists addressed by a key

A linked list whose entries are reached through pointers is a list whose
entries are reached through a key that no two of them share. Editing an entry in
place and unlinking it keep the others as they are, so a sum over the list
changes by that entry alone.
-/

namespace WendyLite.KeyedList

open List

variable {Entry Key : Type} [DecidableEq Key] (key : Entry → Key)

def lookup (value : Key) (entries : List Entry) : Option Entry :=
  entries.find? fun entry => key entry = value

def alter (value : Key) (change : Entry → Entry) (entries : List Entry) : List Entry :=
  entries.map fun entry => if key entry = value then change entry else entry

def erase (value : Key) (entries : List Entry) : List Entry :=
  entries.filter fun entry => key entry ≠ value

variable {key} {value other : Key} {entries : List Entry} {entry : Entry}
variable {change : Entry → Entry}

lemma mem_of_lookup (found : lookup key value entries = some entry) : entry ∈ entries :=
  mem_of_find?_eq_some found

lemma key_of_lookup (found : lookup key value entries = some entry) : key entry = value := by
  simpa using find?_some found

lemma lookup_eq_none
    : lookup key value entries = none ↔ ∀ entry ∈ entries, key entry ≠ value := by
  simp [lookup]

lemma lookup_of_mem (distinct : (entries.map key).Nodup) (mem : entry ∈ entries) :
    lookup key (key entry) entries = some entry := by
  induction entries with
  | nil => cases mem
  | cons head rest ih =>
    rw [map_cons, nodup_cons] at distinct
    rw [lookup, find?_cons]
    obtain rfl | inRest := mem_cons.mp mem
    · simp
    have different : key head ≠ key entry := fun same =>
      distinct.1 (same ▸ mem_map_of_mem inRest)
    simpa [different, lookup] using ih distinct.2 inRest

lemma eq_of_key_eq (distinct : (entries.map key).Nodup) {first second : Entry}
    (inFirst : first ∈ entries) (inSecond : second ∈ entries) (same : key first = key second) :
    first = second := by
  have found := lookup_of_mem distinct inFirst
  rw [same, lookup_of_mem distinct inSecond] at found
  exact (Option.some.inj found).symm

/-! ## Editing in place -/

lemma mem_alter : entry ∈ alter key value change entries ↔
    ∃ old ∈ entries, (if key old = value then change old else old) = entry :=
  mem_map

lemma mem_alter_of_ne (mem : entry ∈ entries) (different : key entry ≠ value) :
    entry ∈ alter key value change entries :=
  mem_alter.mpr ⟨entry, mem, if_neg different⟩

lemma of_mem_alter (distinct : (entries.map key).Nodup) (mem : entry ∈ entries) {other : Entry}
    (inAfter : other ∈ alter key (key entry) change entries) :
    other = change entry ∨ (other ∈ entries ∧ key other ≠ key entry) := by
  obtain ⟨before, inBefore, equal⟩ := mem_alter.mp inAfter
  split at equal
  next same =>
    cases eq_of_key_eq distinct inBefore mem same
    exact .inl equal.symm
  rename_i different
  exact .inr (equal ▸ ⟨inBefore, different⟩)

lemma mem_alter_self (mem : entry ∈ entries) :
    change entry ∈ alter key (key entry) change entries :=
  mem_alter.mpr ⟨entry, mem, if_pos rfl⟩

lemma map_alter {Value : Type} {view : Entry → Value}
    (keeps : ∀ entry, view (change entry) = view entry) :
    (alter key value change entries).map view = entries.map view := by
  rw [alter, map_map]
  apply map_congr_left
  intro entry _
  rw [Function.comp_apply]
  split
  · exact keeps entry
  rfl

lemma length_alter : (alter key value change entries).length = entries.length := length_map _

lemma alter_of_absent (absent : ∀ entry ∈ entries, key entry ≠ value) :
    alter key value change entries = entries := by
  rw [alter]
  conv_rhs => rw [← map_id entries]
  apply map_congr_left
  intro entry mem
  exact if_neg (absent entry mem)

lemma lookup_alter (keeps : ∀ entry, key (change entry) = key entry) :
    lookup key other (alter key value change entries) = (lookup key other entries).map fun entry =>
        if key entry = value then change entry else entry := by
  rw [lookup, alter, find?_map]
  congr 2
  funext entry
  simp only [Function.comp_apply]
  split <;> simp [keeps]

variable {weight : Entry → Nat}

omit [DecidableEq Key] in
lemma split_at_key (distinct : (entries.map key).Nodup) (mem : entry ∈ entries) :
    ∃ front back, entries = front ++ entry :: back ∧
      (∀ other ∈ front, key other ≠ key entry) ∧ ∀ other ∈ back, key other ≠ key entry := by
  obtain ⟨front, back, rfl⟩ := append_of_mem mem
  rw [map_append, map_cons, nodup_append, nodup_cons] at distinct
  exact ⟨front, back, rfl,
    fun other inFront => distinct.2.2 _ (mem_map_of_mem inFront) _ mem_cons_self,
    fun other inBack same => distinct.2.1.1 (same ▸ mem_map_of_mem inBack)⟩

lemma sum_alter (distinct : (entries.map key).Nodup) (mem : entry ∈ entries) :
    ((alter key (key entry) change entries).map weight).sum + weight entry =
      (entries.map weight).sum + weight (change entry) := by
  obtain ⟨front, back, rfl, before, after⟩ := split_at_key distinct mem
  have altered : alter key (key entry) change (front ++ entry :: back) =
      front ++ change entry :: back := by
    rw [alter, map_append, map_cons, if_pos rfl, ← alter, ← alter, alter_of_absent before,
      alter_of_absent after]
  rw [altered]
  simp only [map_append, map_cons, sum_append, sum_cons]
  omega

lemma sum_alter_le (less : ∀ entry ∈ entries, weight (change entry) ≤ weight entry) :
    ((alter key value change entries).map weight).sum ≤ (entries.map weight).sum := by
  rw [alter, map_map]
  apply sum_le_sum
  intro entry mem
  rw [Function.comp_apply]
  split
  · exact less entry mem
  exact le_refl _

/-! ## Unlinking -/

lemma mem_erase : entry ∈ erase key value entries ↔ entry ∈ entries ∧ key entry ≠ value := by
  simp [erase]

lemma erase_sublist : (erase key value entries).Sublist entries := filter_sublist

lemma nodup_erase {Value : Type} {view : Entry → Value} (distinct : (entries.map view).Nodup) :
    ((erase key value entries).map view).Nodup :=
  (erase_sublist.map view).nodup distinct

lemma sum_erase (distinct : (entries.map key).Nodup) (mem : entry ∈ entries) :
    ((erase key (key entry) entries).map weight).sum + weight entry = (entries.map weight).sum := by
  obtain ⟨front, back, rfl, before, after⟩ := split_at_key distinct mem
  have erased : erase key (key entry) (front ++ entry :: back) = front ++ back := by
    rw [erase, filter_append, filter_cons_of_neg (by simp),
      filter_eq_self.mpr (by simpa using before), filter_eq_self.mpr (by simpa using after)]
  rw [erased]
  simp only [map_append, map_cons, sum_append, sum_cons]
  omega

lemma sum_erase_le : ((erase key value entries).map weight).sum ≤ (entries.map weight).sum :=
  List.Sublist.sum_le_sum (erase_sublist.map weight) fun _ _ => Nat.zero_le _

lemma length_erase (distinct : (entries.map key).Nodup) (mem : entry ∈ entries) :
    (erase key (key entry) entries).length + 1 = entries.length := by
  have counted : ((erase key (key entry) entries).map fun _ => 1).sum + 1 =
      (entries.map fun _ => 1).sum := sum_erase distinct mem
  simpa using counted

end WendyLite.KeyedList
