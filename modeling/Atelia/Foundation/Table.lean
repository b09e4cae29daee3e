import Std.Data.ExtTreeMap.Lemmas
import Mathlib.Data.List.Perm.Basic
import Mathlib.Data.List.Nodup
import Mathlib.Order.Defs.LinearOrder

/-! Finite maps of records. -/

namespace Atelia

variable {K V : Type} [Ord K]

/-- A finite map from keys to records. -/
abbrev Table (K V : Type) [Ord K] : Type := Std.ExtTreeMap K V compare

namespace Table

variable [Std.TransOrd K]

/-- The stored records in key order. -/
def records (table : Table K V) : List V :=
  table.toList.map Prod.snd

/-- Every record is stored under the key it carries. -/
def KeyedBy (key : V → K) (table : Table K V) : Prop :=
  ∀ (name : K) (record : V), table[name]? = some record → key record = name

theorem contains_iff (table : Table K V) (name : K) :
    table.contains name = true ↔ ∃ record, table[name]? = some record := by
  rw [Std.ExtTreeMap.contains_eq_isSome_getElem?, Option.isSome_iff_exists]

theorem contains_eq_false_iff (table : Table K V) (name : K) :
    table.contains name = false ↔ table[name]? = none := by
  rw [Std.ExtTreeMap.contains_eq_isSome_getElem?, Option.isSome_eq_false_iff, Option.isNone_iff_eq_none]

theorem empty_lookup (name : K) : (∅ : Table K V)[name]? = none := by
  simp

variable {key : V → K}

theorem KeyedBy.empty : KeyedBy key (∅ : Table K V) := by
  intro name record found
  simp at found

variable [Std.LawfulEqOrd K]

theorem lookup_insert [DecidableEq K] (table : Table K V) (name other : K) (record : V) :
    (table.insert name record)[other]? = if name = other then some record else table[other]? := by
  simp [Std.ExtTreeMap.getElem?_insert]

@[simp] theorem lookup_insert_same (table : Table K V) (name : K) (record : V) :
    (table.insert name record)[name]? = some record := by
  simp

variable {record : V} {name other : K} {table : Table K V}

theorem lookup_insert_other (different : name ≠ other) :
    (table.insert name record)[other]? = table[other]? := by
  simp [Std.ExtTreeMap.getElem?_insert, different]

theorem lookup_insert_cases {found : V} (stored : (table.insert name record)[other]? = some found) :
    table[other]? = some found ∨ record = found := by
  by_cases same : name = other
  · subst same
    rw [lookup_insert_same] at stored
    exact .inr (Option.some.inj stored)
  · rw [lookup_insert_other same] at stored
    exact .inl stored

/-- Inserting under a fresh key keeps every record that was stored. -/
theorem lookup_insert_fresh {stored : V} (fresh : table[name]? = none)
    (found : table[other]? = some stored) : (table.insert name record)[other]? = some stored := by
  rw [lookup_insert_other, found]
  rintro rfl
  simp [fresh] at found

theorem insert_insert_same (table : Table K V) (name : K) (first second : V) :
    (table.insert name first).insert name second = table.insert name second := by
  apply Std.ExtTreeMap.ext_getElem?
  intro other
  by_cases same : name = other
  · subst same
    simp
  · simp only [lookup_insert_other same]

theorem mem_records : record ∈ table.records ↔ ∃ name : K, table[name]? = some record := by
  simp [records, Std.ExtTreeMap.mem_toList_iff_getElem?_eq_some]

/-- A record stored under a fresh key is added to the stored ones. -/
theorem mem_records_insert (fresh : table[name]? = none) {other : V} :
    other ∈ Table.records (table.insert name record) ↔
      other = record ∨ other ∈ table.records := by
  rw [mem_records, mem_records]
  constructor
  · rintro ⟨stored, found⟩
    by_cases same : name = stored
    · subst same
      rw [lookup_insert_same, Option.some.injEq] at found
      exact .inl found.symm
    · rw [lookup_insert_other same] at found
      exact .inr ⟨stored, found⟩
  · rintro (rfl | ⟨stored, found⟩)
    · exact ⟨name, lookup_insert_same _ _ _⟩
    · exact ⟨stored, lookup_insert_fresh fresh found⟩

variable {wanted : V → Bool}

section Keyed

variable {key : V → K} {table : Table K V}

theorem KeyedBy.insert (keyed : KeyedBy key table) (same : key record = name) :
    KeyedBy key (table.insert name record) := by
  intro other stored found
  by_cases equal : name = other
  · subst equal
    simp only [lookup_insert_same, Option.some.injEq] at found
    exact found ▸ same
  · rw [lookup_insert_other equal] at found
    exact keyed other stored found

theorem KeyedBy.mem_records (keyed : KeyedBy key table) :
    record ∈ table.records ↔ table[key record]? = some record := by
  rw [Table.mem_records]
  constructor
  · rintro ⟨name, found⟩
    rw [keyed name record found]
    exact found
  · intro found
    exact ⟨_, found⟩

/-- A scan for a property that at most one key can have is a lookup. -/
theorem KeyedBy.find_records (keyed : KeyedBy key table)
    (unique : ∀ first second, wanted first = true → wanted second = true → key first = key second) :
    table.records.find? wanted = some record ↔
      table[key record]? = some record ∧ wanted record = true := by
  constructor
  · intro found
    exact ⟨keyed.mem_records.mp (List.mem_of_find?_eq_some found), List.find?_some found⟩
  · rintro ⟨found, holds⟩
    cases scan : table.records.find? wanted with
    | none =>
      have refuted := List.find?_eq_none.mp scan record (keyed.mem_records.mpr found)
      exact absurd holds refuted
    | some other =>
      have stored := keyed.mem_records.mp (List.mem_of_find?_eq_some scan)
      rw [unique other record (List.find?_some scan) holds, found] at stored
      exact stored.symm ▸ rfl

/-- Listing the carried keys of the stored records repeats none of them. -/
theorem KeyedBy.nodup_records (keyed : KeyedBy key table) : (table.records.map key).Nodup := by
  have distinct : table.toList.Pairwise (fun first second => key first.2 ≠ key second.2) := by
    apply List.Pairwise.imp_of_mem _ table.ordered_keys_toList
    intro first second firstMember secondMember before same
    have firstKey := keyed _ _ (Std.ExtTreeMap.mem_toList_iff_getElem?_eq_some.mp firstMember)
    have secondKey := keyed _ _ (Std.ExtTreeMap.mem_toList_iff_getElem?_eq_some.mp secondMember)
    rw [← firstKey, ← secondKey, same] at before
    simp at before
  unfold List.Nodup
  rw [records, List.pairwise_map, List.pairwise_map]
  exact distinct

/-- Listing what tells the stored records apart repeats nothing. -/
theorem KeyedBy.nodup_map {κ : Type} (keyed : KeyedBy key table) {image : V → κ}
    (apart : ∀ first ∈ table.records, ∀ second ∈ table.records,
      image first = image second → first = second) : (table.records.map image).Nodup :=
  List.Nodup.map_on apart keyed.nodup_records.of_map

end Keyed

section Every

/-- Every stored record has a property. -/
def Every (holds : V → Prop) (table : Table K V) : Prop :=
  ∀ (name : K) (record : V), table[name]? = some record → holds record

variable {holds : V → Prop} {table : Table K V}

omit [Std.LawfulEqOrd K] in
theorem Every.empty : Every holds (∅ : Table K V) := by
  intro name record found
  simp at found

omit [Std.LawfulEqOrd K] in
theorem Every.imp {weaker : V → Prop} (every : Every holds table)
    (weaken : ∀ record, holds record → weaker record) : Every weaker table :=
  fun name record found => weaken record (every name record found)

theorem Every.insert (every : Every holds table) (holdsNew : holds record) (name : K) :
    Every holds (table.insert name record) := by
  intro other stored found
  by_cases same : name = other
  · subst same
    rw [lookup_insert_same, Option.some.injEq] at found
    exact found ▸ holdsNew
  · rw [lookup_insert_other same] at found
    exact every other stored found

/-- A property that a commit keeps of the old records and that the new one has. -/
theorem Every.insert_imp {weaker : V → Prop} (every : Every holds table)
    (weaken : ∀ record, holds record → weaker record) (holdsNew : weaker record) (name : K) :
    Every weaker (table.insert name record) :=
  (every.imp weaken).insert holdsNew name

theorem Every.mem_records (every : Every holds table) (member : record ∈ table.records) :
    holds record := by
  obtain ⟨name, found⟩ := Table.mem_records.mp member
  exact every name record found

end Every

section Growth

/-- Every stored record stays under its key, up to a relation between its old
and its new content. -/
def Retains (related : V → V → Prop) (before after : Table K V) : Prop :=
  ∀ (name : K) (record : V), before[name]? = some record →
    ∃ next, after[name]? = some next ∧ related record next

variable {related : V → V → Prop} {before middle after : Table K V}

omit [Std.LawfulEqOrd K] in
theorem Retains.refl (reflexive : ∀ record, related record record) (table : Table K V) :
    Retains related table table :=
  fun _ record found => ⟨record, found, reflexive record⟩

omit [Std.LawfulEqOrd K] in
theorem Retains.trans (transitive : ∀ first second third, related first second →
    related second third → related first third)
    (early : Retains related before middle) (late : Retains related middle after) :
    Retains related before after := by
  intro name record found
  obtain ⟨next, foundNext, step⟩ := early name record found
  obtain ⟨last, foundLast, step'⟩ := late name next foundNext
  exact ⟨last, foundLast, transitive _ _ _ step step'⟩

theorem Retains.insert_fresh (reflexive : ∀ record, related record record)
    (fresh : before[name]? = none) (record : V) :
    Retains related before (before.insert name record) :=
  fun _ stored found => ⟨stored, lookup_insert_fresh fresh found, reflexive stored⟩

theorem Retains.insert_update (reflexive : ∀ record, related record record) {old new : V}
    (found : before[name]? = some old) (step : related old new) :
    Retains related before (before.insert name new) := by
  intro other stored present
  by_cases same : name = other
  · subst same
    rw [found, Option.some.injEq] at present
    exact ⟨new, lookup_insert_same _ _ _, present ▸ step⟩
  · exact ⟨stored, by rw [lookup_insert_other same, present], reflexive stored⟩

omit [Std.LawfulEqOrd K] in
theorem Retains.lookup (kept : Retains Eq before after) (found : before[name]? = some record) :
    after[name]? = some record := by
  obtain ⟨next, foundNext, rfl⟩ := kept name record found
  exact foundNext

omit [Std.LawfulEqOrd K] in
/-- A lookup that also considers a pending record succeeds later on the stored
records alone, once the pending record has been stored. -/
theorem Retains.lookup_or [DecidableEq K] (kept : Retains related before after) {pending : Option V}
    (stored : ∀ record, pending = some record →
      ∃ next, after[key record]? = some next ∧ related record next)
    (found : before[name]?.or (pending.filter fun candidate => key candidate = name) = some record) :
    ∃ next, after[name]? = some next ∧ related record next := by
  rcases Option.or_eq_some_iff.mp found with present | ⟨_, waiting⟩
  · exact kept name record present
  · obtain ⟨some_pending, same⟩ := Option.filter_eq_some_iff.mp waiting
    rw [← of_decide_eq_true same]
    exact stored record some_pending

/-- The same for a scan by a property that determines the key. -/
theorem Retains.find_or (kept : Retains related before after) (keyed : KeyedBy key after)
    (sameKey : ∀ record next, related record next → key next = key record)
    (byKey : ∀ first second, key first = key second → wanted first = wanted second)
    (unique : ∀ first second, wanted first = true → wanted second = true → key first = key second)
    {pending : Option V}
    (stored : ∀ record, pending = some record →
      ∃ next, after[key record]? = some next ∧ related record next)
    (found : (before.records.find? wanted).or (pending.filter wanted) = some record) :
    ∃ next, after.records.find? wanted = some next ∧ related record next := by
  have settled : ∃ next, after[key next]? = some next ∧ wanted next = true ∧ related record next := by
    rcases Option.or_eq_some_iff.mp found with scan | ⟨_, waiting⟩
    · obtain ⟨name, present⟩ := Table.mem_records.mp (List.mem_of_find?_eq_some scan)
      obtain ⟨next, foundNext, step⟩ := kept name record present
      refine ⟨next, ?_, ?_, step⟩
      · rw [keyed name next foundNext]
        exact foundNext
      · rw [byKey next record (sameKey record next step)]
        exact List.find?_some scan
    · obtain ⟨some_pending, holds⟩ := Option.filter_eq_some_iff.mp waiting
      obtain ⟨next, foundNext, step⟩ := stored record some_pending
      have same := sameKey record next step
      refine ⟨next, ?_, ?_, step⟩
      · rw [same]
        exact foundNext
      · rw [byKey next record same]
        exact holds
  obtain ⟨next, foundNext, holds, step⟩ := settled
  exact ⟨next, (keyed.find_records unique).mpr ⟨foundNext, holds⟩, step⟩

/-- The scan over stored records alone. -/
theorem Retains.find (kept : Retains related before after) (keyed : KeyedBy key after)
    (sameKey : ∀ record next, related record next → key next = key record)
    (byKey : ∀ first second, key first = key second → wanted first = wanted second)
    (unique : ∀ first second, wanted first = true → wanted second = true → key first = key second)
    (found : before.records.find? wanted = some record) :
    ∃ next, after.records.find? wanted = some next ∧ related record next := by
  have scan : (before.records.find? wanted).or ((none : Option V).filter wanted) = some record := by
    simpa using found
  exact kept.find_or keyed sameKey byKey unique (by simp) scan

end Growth

section Ordered

variable {V : Type}

private theorem toList_increasing (table : Table Nat V) :
    table.toList.Pairwise (fun first second => first.1 < second.1) :=
  table.ordered_keys_toList.imp (fun before => Nat.compare_eq_lt.mp before)

private theorem increasing_unique {first second : List (Nat × V)}
    (increasing : first.Pairwise (fun left right => left.1 < right.1))
    (increasing' : second.Pairwise (fun left right => left.1 < right.1))
    (members : ∀ entry, entry ∈ first ↔ entry ∈ second) : first = second := by
  have nodup {entries : List (Nat × V)}
      (sorted : entries.Pairwise (fun left right => left.1 < right.1)) : entries.Nodup := by
    apply sorted.imp
    rintro left right before rfl
    exact Nat.lt_irrefl _ before
  apply List.Perm.eq_of_pairwise _ increasing increasing'
  · exact (List.perm_ext_iff_of_nodup (nodup increasing) (nodup increasing')).mpr members
  · intro left right _ _ before after
    exact absurd before (Nat.lt_asymm after)

/-- A list of entries with increasing keys is the iteration of the table it lists. -/
theorem toList_eq_of_increasing {table : Table Nat V} {entries : List (Nat × V)}
    (increasing : entries.Pairwise (fun left right => left.1 < right.1))
    (members : ∀ name record, (name, record) ∈ entries ↔ table[name]? = some record) :
    table.toList = entries := by
  apply increasing_unique (toList_increasing table) increasing
  rintro ⟨name, record⟩
  rw [Std.ExtTreeMap.mem_toList_iff_getElem?_eq_some, members]

/-- Inserting above every stored key appends to the iteration. -/
theorem toList_insert_last {table : Table Nat V} {name : Nat}
    (above : ∀ other record, table[other]? = some record → other < name) (record : V) :
    (table.insert name record).toList = table.toList ++ [(name, record)] := by
  apply toList_eq_of_increasing
  · rw [List.pairwise_append]
    refine ⟨toList_increasing table, List.pairwise_singleton _ _, ?_⟩
    intro entry member last lastMember
    rw [List.mem_singleton.mp lastMember]
    exact above entry.1 entry.2 (Std.ExtTreeMap.mem_toList_iff_getElem?_eq_some.mp member)
  · intro other stored
    rw [List.mem_append, Std.ExtTreeMap.mem_toList_iff_getElem?_eq_some, List.mem_singleton,
      lookup_insert]
    by_cases same : name = other
    · subst same
      have absent : table[name]? = none := by
        by_contra present
        obtain ⟨old, found⟩ := Option.ne_none_iff_exists'.mp present
        exact Nat.lt_irrefl _ (above name old found)
      simp [absent, eq_comm]
    · simp [same, Ne.symm same]

end Ordered

end Table

end Atelia
