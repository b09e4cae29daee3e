import Mathlib.Logic.Function.Basic
import Mathlib.Data.List.Induction

/-! Values that are inherited along chains of scopes. -/

namespace Atelia.Layers

/-- Patches of values, and the patch that leads from one value to another. -/
class Patching (Value Patch : Type) where
  apply : Patch → Value → Value
  diff : Value → Value → Patch
  apply_diff : ∀ value inherited, apply (diff value inherited) inherited = value

inductive Layer (Value Patch : Type) where
  | whole (value : Value)
  | patch (patch : Patch)

variable {Scope Value Patch : Type} [DecidableEq Scope] [Patching Value Patch]

namespace Layer

/-- The patch that a layer stands for over an inherited value. -/
def resolved (inherited : Value) : Layer Value Patch → Patch
  | whole value => Patching.diff value inherited
  | patch own => own

def onto (inherited : Value) (layer : Layer Value Patch) : Value :=
  Patching.apply (layer.resolved inherited) inherited

def settle (inherited : Value) (layer : Layer Value Patch) : Layer Value Patch :=
  .patch (layer.resolved inherited)

@[simp] theorem whole_onto (value inherited : Value) :
    (whole value : Layer Value Patch).onto inherited = value :=
  Patching.apply_diff value inherited

end Layer

/-- The layers of some of the scopes. -/
abbrev Book (Scope Value Patch : Type) : Type := Scope → Option (Layer Value Patch)

def Book.inherit (book : Book Scope Value Patch) (inherited : Value) (scope : Scope) : Value :=
  match book scope with
  | some layer => layer.onto inherited
  | none => inherited

/-- The value inherited along a chain of scopes. -/
def Book.along (book : Book Scope Value Patch) (start : Value) (chain : List Scope) : Value :=
  chain.foldl book.inherit start

/-- Settle the layer of a scope over the value that it inherits. -/
def Book.migrate (start : Value) (parents : Scope → List Scope) (book : Book Scope Value Patch)
    (scope : Scope) : Book Scope Value Patch :=
  Function.update book scope ((book scope).map (·.settle (book.along start (parents scope))))

def Book.migrateAll (start : Value) (parents : Scope → List Scope) (book : Book Scope Value Patch)
    (order : List Scope) : Book Scope Value Patch :=
  order.foldl (Book.migrate start parents) book

/-- The ancestors of a scope inherit along the chain that leads to the scope. -/
def Linear (parents : Scope → List Scope) (scope : Scope) : Prop :=
  ∀ earlier ancestor later, parents scope ++ [scope] = earlier ++ ancestor :: later →
    parents ancestor = earlier

variable {start : Value} {parents : Scope → List Scope} {book other : Book Scope Value Patch}
  {scope target : Scope} {order : List Scope}

omit [DecidableEq Scope] in
theorem along_append_singleton (book : Book Scope Value Patch) (chain : List Scope) (scope : Scope) :
    book.along start (chain ++ [scope]) = book.inherit (book.along start chain) scope := by
  rw [Book.along, List.foldl_append]
  rfl

omit [DecidableEq Scope] in
/-- The value inherited along a chain depends on the layers of the chain only. -/
theorem along_congr {chain : List Scope} (same : ∀ scope ∈ chain, other scope = book scope) :
    other.along start chain = book.along start chain := by
  induction chain using List.reverseRecOn with
  | nil => rfl
  | append_singleton chain scope ih =>
    rw [along_append_singleton, along_append_singleton,
      ih fun ancestor member => same ancestor (List.mem_append_left _ member), Book.inherit,
      Book.inherit, same scope (by simp)]

theorem migrate_self : book.migrate start parents scope scope =
    (book scope).map (·.settle (book.along start (parents scope))) :=
  Function.update_self ..

theorem migrate_of_ne (different : target ≠ scope) :
    book.migrate start parents scope target = book target :=
  Function.update_of_ne different ..

/-- A settled layer does the same over the value it was settled for. -/
theorem inherit_migrate (inherited : Value)
    (same : target = scope → inherited = book.along start (parents scope)) :
    (book.migrate start parents scope).inherit inherited target = book.inherit inherited target := by
  by_cases here : target = scope
  · subst here
    rw [Book.inherit, migrate_self, same rfl, Book.inherit]
    cases book target with
    | none => rfl
    | some layer => rfl
  · rw [Book.inherit, migrate_of_ne here, Book.inherit]

theorem Linear.along_migrate (linear : Linear parents target) {chain later : List Scope}
    (part : parents target ++ [target] = chain ++ later) :
    (book.migrate start parents scope).along start chain = book.along start chain := by
  induction chain using List.reverseRecOn generalizing later with
  | nil => rfl
  | append_singleton chain ancestor ih =>
    rw [List.append_assoc, List.singleton_append] at part
    have earlier := ih part
    rw [along_append_singleton, along_append_singleton, earlier]
    apply inherit_migrate
    rintro rfl
    rw [linear chain ancestor later part]

/-- Whatever layers are settled, a linear scope inherits and has the same values. -/
theorem Linear.along_migrateAll (linear : Linear parents target) {chain later : List Scope}
    (part : parents target ++ [target] = chain ++ later) (order : List Scope) :
    (book.migrateAll start parents order).along start chain = book.along start chain := by
  induction order generalizing book with
  | nil => rfl
  | cons scope rest ih => exact ih.trans (linear.along_migrate part)

theorem migrateAll_append (first second : List Scope) :
    book.migrateAll start parents (first ++ second) =
      (book.migrateAll start parents first).migrateAll start parents second :=
  List.foldl_append ..

/-- A scope that is not settled keeps its layer. -/
theorem migrateAll_of_not_mem (absent : target ∉ order) :
    book.migrateAll start parents order target = book target := by
  induction order generalizing book with
  | nil => rfl
  | cons scope rest ih =>
    rw [List.mem_cons, not_or] at absent
    exact (ih absent.2).trans (migrate_of_ne absent.1)

/-- A settled layer stays as it is. -/
theorem migrateAll_of_settled {inherited : Value} {layer : Option (Layer Value Patch)}
    (settled : book target = layer.map (·.settle inherited)) (order : List Scope) :
    book.migrateAll start parents order target = layer.map (·.settle inherited) := by
  induction order generalizing book with
  | nil => exact settled
  | cons scope rest ih =>
    apply ih
    by_cases here : target = scope
    · subst here
      rw [migrate_self, settled, Option.map_map]
      rfl
    · rw [migrate_of_ne here, settled]

/-- A layer is settled over the value that the scope inherits when its turn comes. -/
theorem migrateAll_split (first second : List Scope) (absent : target ∉ first) :
    book.migrateAll start parents (first ++ target :: second) target =
      (book target).map
        (·.settle ((book.migrateAll start parents first).along start (parents target))) := by
  rw [migrateAll_append]
  have settled : ((book.migrateAll start parents first).migrate start parents target) target =
      (book target).map
        (·.settle ((book.migrateAll start parents first).along start (parents target))) := by
    rw [migrate_self, migrateAll_of_not_mem absent]
  exact migrateAll_of_settled settled second

/-- Patches stay as they are. -/
theorem migrateAll_of_patch (settled : ∀ value, book target ≠ some (.whole value))
    (order : List Scope) : book.migrateAll start parents order target = book target := by
  have same : book target = (book target).map (·.settle start) := by
    cases held : book target with
    | none => rfl
    | some layer =>
      cases layer with
      | whole value => exact absurd held (settled value)
      | patch own => rfl
  exact (migrateAll_of_settled same order).trans same.symm

/-- The layer of a linear scope is settled over the value it inherited at first. -/
theorem Linear.migrateAll_of_covered (linear : Linear parents target)
    (covered : target ∉ order → book target = none) :
    book.migrateAll start parents order target =
      (book target).map (·.settle (book.along start (parents target))) := by
  by_cases member : target ∈ order
  · obtain ⟨first, second, rfl, absent⟩ := List.eq_append_cons_of_mem member
    rw [migrateAll_split first second absent, linear.along_migrateAll rfl]
  · rw [migrateAll_of_not_mem member, covered member]
    rfl

end Atelia.Layers
