import Mathlib.Data.List.Basic
import Mathlib.Data.List.Induction
import Mathlib.Data.List.Nodup
import Mathlib.Logic.Function.Basic

/-! Lists of records that carry their own key. -/

namespace Atelia.Listing

variable {Record Key : Type} [DecidableEq Key] {key : Record → Key} {records other : List Record}
  {record updated : Record} {own : Key}

def find (key : Record → Key) (records : List Record) (own : Key) : Option Record :=
  records.find? fun record => key record = own

theorem mem_of_find (found : find key records own = some record) :
    record ∈ records ∧ key record = own := by
  have chosen := List.find?_some found
  exact ⟨List.mem_of_find?_eq_some found, of_decide_eq_true chosen⟩

theorem find_cons (record : Record) (records : List Record) (own : Key) :
    find key (record :: records) own =
      if key record = own then some record else find key records own := by
  rw [find, List.find?_cons]
  by_cases same : key record = own <;> simp [same, find]

/-- With distinct keys every record is found. -/
theorem find_of_mem (distinct : (records.map key).Nodup) (member : record ∈ records) :
    find key records (key record) = some record := by
  induction records with
  | nil => cases member
  | cons first rest ih =>
    rw [List.map_cons, List.nodup_cons] at distinct
    rw [find_cons]
    rcases List.mem_cons.mp member with rfl | later
    · rw [if_pos rfl]
    · rw [if_neg, ih distinct.2 later]
      intro same
      exact distinct.1 (same ▸ List.mem_map_of_mem later)

theorem find_eq_some (distinct : (records.map key).Nodup) :
    find key records own = some record ↔ record ∈ records ∧ key record = own := by
  constructor
  · exact mem_of_find
  · rintro ⟨member, rfl⟩
    exact find_of_mem distinct member

/-- What is found in a list with distinct keys does not depend on its order. -/
theorem find_perm (distinct : (records.map key).Nodup) (same : other.Perm records) :
    find key other = find key records := by
  have distinctOther : (other.map key).Nodup := (same.map key).nodup_iff.mpr distinct
  funext own
  ext record
  rw [find_eq_some distinct, find_eq_some distinctOther, same.mem_iff]

/-- Replace the first record of a key. -/
theorem find_set_findIdx (found : find key records own = some record) (keyed : key updated = own) :
    find key (records.set (records.findIdx fun record => key record = own) updated) =
      Function.update (find key records) own (some updated) := by
  induction records with
  | nil => cases found
  | cons first rest ih =>
    rw [find_cons] at found
    rw [List.findIdx_cons]
    by_cases here : key first = own
    · simp only [here, decide_true, cond_true, List.set_cons_zero]
      funext other
      rw [find_cons, keyed]
      by_cases same : own = other
      · rw [if_pos same, same, Function.update_self]
      · rw [if_neg same, Function.update_of_ne (Ne.symm same), find_cons, here, if_neg same]
    · rw [if_neg here] at found
      simp only [here, decide_false, cond_false, List.set_cons_succ]
      funext other
      rw [find_cons, ih found]
      by_cases same : other = own
      · subst same
        rw [if_neg here, Function.update_self, Function.update_self]
      · rw [Function.update_of_ne same, Function.update_of_ne same, find_cons]

theorem set_findIdx_self (found : find key records own = some record) :
    records.set (records.findIdx fun record => key record = own) record = records := by
  induction records with
  | nil => cases found
  | cons first rest ih =>
    rw [find_cons] at found
    rw [List.findIdx_cons]
    by_cases here : key first = own
    · rw [if_pos here] at found
      obtain rfl := Option.some.inj found
      simp only [here, decide_true, cond_true, List.set_cons_zero]
    · rw [if_neg here] at found
      simp only [here, decide_false, cond_false, List.set_cons_succ, ih found]

/-- Replace the record at an index, when keys are distinct. -/
theorem find_set {index : Nat} (distinct : (records.map key).Nodup)
    (present : records[index]? = some record) (keyed : key updated = key record) :
    find key (records.set index updated) =
      Function.update (find key records) (key record) (some updated) := by
  induction records generalizing index with
  | nil => cases present
  | cons first rest ih =>
    rw [List.map_cons, List.nodup_cons] at distinct
    cases index with
    | zero =>
      obtain rfl : first = record := Option.some.inj present
      rw [List.set_cons_zero]
      funext other
      rw [find_cons, keyed]
      by_cases same : key first = other
      · rw [if_pos same, same, Function.update_self]
      · rw [if_neg same, Function.update_of_ne (Ne.symm same), find_cons, if_neg same]
    | succ index =>
      have inside : rest[index]? = some record := present
      have different : key first ≠ key record := by
        intro same
        exact distinct.1 (same ▸ List.mem_map_of_mem (List.mem_of_getElem? inside))
      rw [List.set_cons_succ]
      funext other
      rw [find_cons, ih distinct.2 inside]
      by_cases same : other = key record
      · subst same
        rw [if_neg different, Function.update_self, Function.update_self]
      · rw [Function.update_of_ne same, Function.update_of_ne same, find_cons]

/-- Add a record for a key that has none. -/
theorem find_append_new (fresh : find key records (key record) = none) :
    find key (records ++ [record]) = Function.update (find key records) (key record)
      (some record) := by
  funext other
  rw [find, List.find?_append]
  by_cases same : other = key record
  · subst same
    rw [find] at fresh
    simp [fresh]
  · have absent : [record].find? (fun record => key record = other) = none := by
      simp [Ne.symm same]
    rw [absent, Option.or_none, Function.update_of_ne same, find]

omit [DecidableEq Key] in
theorem map_set {index : Nat} (present : records[index]? = some record)
    (keyed : key updated = key record) :
    (records.set index updated).map key = records.map key := by
  obtain ⟨inside, rfl⟩ := List.getElem?_eq_some_iff.mp present
  have length : index < (records.map key).length := by rwa [List.length_map]
  have same : key updated = (records.map key)[index] := by rw [keyed, List.getElem_map]
  rw [List.map_set, same, List.set_getElem_self length]

/-- The records of the positions of a list. -/
theorem filterMap_range_getElem? (records : List Record) :
    (List.range records.length).filterMap (records[·]?) = records := by
  induction records using List.reverseRecOn with
  | nil => rfl
  | append_singleton records record ih =>
    have earlier : ∀ index ∈ List.range records.length,
        (records ++ [record])[index]? = records[index]? := fun index member =>
      List.getElem?_append_left (List.mem_range.mp member)
    rw [List.length_append, List.length_singleton, List.range_succ, List.filterMap_append,
      List.filterMap_congr earlier, ih]
    simp

end Atelia.Listing
