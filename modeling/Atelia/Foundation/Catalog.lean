import Atelia.Foundation.Table

/-! Tables of tables: the editions of every title, each under its own name. -/

namespace Atelia

variable {K L V : Type} [Ord K] [Ord L]

abbrev Catalog (K L V : Type) [Ord K] [Ord L] : Type := Table K (Table L V)

namespace Catalog

variable [Std.TransOrd K] [Std.TransOrd L]

/-- The edition of a title. -/
def find (catalog : Catalog K L V) (title : K) (edition : L) : Option V :=
  catalog[title]?.bind fun editions => editions[edition]?

/-- Write an edition; a title without editions is added. -/
def store (catalog : Catalog K L V) (title : K) (edition : L) (value : V) : Catalog K L V :=
  catalog.insert title ((catalog[title]?.getD ∅).insert edition value)

/-- The editions of a title, by their names. -/
def editions (catalog : Catalog K L V) (title : K) : Table L V :=
  catalog[title]?.getD ∅

theorem find_eq_editions (catalog : Catalog K L V) (title : K) (edition : L) :
    catalog.find title edition = (catalog.editions title)[edition]? := by
  unfold find editions
  cases catalog[title]? with
  | none => simp
  | some found => rfl

@[simp] theorem find_empty (title : K) (edition : L) :
    find (∅ : Catalog K L V) title edition = none := by
  simp [find]

variable {catalog : Catalog K L V} {title : K} {edition : L} {value : V}

theorem find_eq_some_iff :
    catalog.find title edition = some value ↔
      ∃ found : Table L V, catalog[title]? = some found ∧ found[edition]? = some value :=
  Option.bind_eq_some_iff

variable [Std.LawfulEqOrd K] [Std.LawfulEqOrd L]

@[simp] theorem find_store_same (catalog : Catalog K L V) (title : K) (edition : L) (value : V) :
    (catalog.store title edition value).find title edition = some value := by
  simp [find, store]

theorem find_store_other {other : K} {another : L}
    (different : ¬ (title = other ∧ edition = another)) :
    (catalog.store title edition value).find other another = catalog.find other another := by
  by_cases same : title = other
  · subst same
    have apart : edition ≠ another := fun equal => different ⟨rfl, equal⟩
    rw [find_eq_editions, find_eq_editions, editions, store, Table.lookup_insert_same,
      Option.getD_some, Table.lookup_insert_other apart, editions]
  · rw [find, store, Table.lookup_insert_other same, find]

theorem find_store [DecidableEq K] [DecidableEq L] (catalog : Catalog K L V) (title other : K)
    (edition another : L) (value : V) :
    (catalog.store title edition value).find other another =
      if title = other ∧ edition = another then some value else catalog.find other another := by
  split
  · rename_i same
    obtain ⟨rfl, rfl⟩ := same
    exact find_store_same _ _ _ _
  · rename_i different
    exact find_store_other different

/-- Writing what is stored changes nothing. -/
theorem store_of_find (stored : catalog.find title edition = some value) :
    catalog.store title edition value = catalog := by
  obtain ⟨editions, found, present⟩ := find_eq_some_iff.mp stored
  apply Std.ExtTreeMap.ext_getElem?
  intro other
  by_cases same : title = other
  · subst same
    rw [store, Table.lookup_insert_same, found, Option.getD_some, Option.some.injEq]
    apply Std.ExtTreeMap.ext_getElem?
    intro another
    by_cases equal : edition = another
    · subst equal
      rw [Table.lookup_insert_same, present]
    · rw [Table.lookup_insert_other equal]
  · rw [store, Table.lookup_insert_other same]

/-- What an edition is after one was written. -/
theorem find_store_cases {other : K} {another : L} {found : V}
    (stored : (catalog.store title edition value).find other another = some found) :
    (title = other ∧ edition = another ∧ value = found) ∨
      (¬ (title = other ∧ edition = another) ∧ catalog.find other another = some found) := by
  by_cases same : title = other ∧ edition = another
  · obtain ⟨rfl, rfl⟩ := same
    rw [find_store_same, Option.some.injEq] at stored
    exact .inl ⟨rfl, rfl, stored⟩
  · rw [find_store_other same] at stored
    exact .inr ⟨same, stored⟩

/-- Every edition stays, up to a relation between its old and its new content. -/
def Retains (related : V → V → Prop) (before after : Catalog K L V) : Prop :=
  ∀ (title : K) (edition : L) (value : V), before.find title edition = some value →
    ∃ next, after.find title edition = some next ∧ related value next

omit [Std.LawfulEqOrd K] [Std.LawfulEqOrd L] in
theorem Retains.refl {related : V → V → Prop} (reflexive : ∀ value, related value value)
    (catalog : Catalog K L V) : Retains related catalog catalog :=
  fun _ _ value found => ⟨value, found, reflexive value⟩

omit [Std.LawfulEqOrd K] [Std.LawfulEqOrd L] in
theorem Retains.trans {related : V → V → Prop} (transitive : ∀ first second third,
    related first second → related second third → related first third)
    {before middle after : Catalog K L V} (early : Retains related before middle)
    (late : Retains related middle after) : Retains related before after := by
  intro title edition value found
  obtain ⟨next, foundNext, step⟩ := early title edition value found
  obtain ⟨last, foundLast, step'⟩ := late title edition next foundNext
  exact ⟨last, foundLast, transitive _ _ _ step step'⟩

/-- Writing an edition keeps the others, and the one it replaces up to the relation. -/
theorem Retains.store {related : V → V → Prop} (reflexive : ∀ value, related value value)
    (replaces : ∀ old, catalog.find title edition = some old → related old value) :
    Retains related catalog (catalog.store title edition value) := by
  intro other another old found
  by_cases same : title = other ∧ edition = another
  · obtain ⟨rfl, rfl⟩ := same
    exact ⟨value, find_store_same _ _ _ _, replaces old found⟩
  · exact ⟨old, by rw [find_store_other same, found], reflexive old⟩

end Catalog

end Atelia
