import Mathlib.Logic.Relation
import Mathlib.Logic.Function.Basic
import Mathlib.Data.Finset.Card
import Mathlib.Data.List.Nodup

/-! Chains of links. -/

namespace Atelia.Chain

variable {α : Type}

def Link (next : α → Option α) (source target : α) : Prop :=
  next source = some target

/-- Following links from `source` meets `target`. -/
def Leads (next : α → Option α) : α → α → Prop :=
  Relation.ReflTransGen (Link next)

/-- No chain comes back to its start. -/
def Acyclic (next : α → Option α) : Prop :=
  ∀ element, ¬ Relation.TransGen (Link next) element element

variable {next : α → Option α}

theorem acyclic_empty : Acyclic (fun _ : α => none) := by
  intro element cycle
  obtain ⟨target, link, _⟩ := Relation.TransGen.head'_iff.mp cycle
  cases link

variable {target source : α}

theorem Acyclic.not_leads_back (acyclic : Acyclic next) (link : next source = some target) :
    ¬ Leads next target source := by
  intro back
  exact acyclic source (Relation.TransGen.head' link back)

section Relink

variable [DecidableEq α] {changed : α} {successor : Option α}

/-- A chain that avoids the element whose successor changes stays. -/
private theorem leads_of_update (avoids : ¬ Leads next source changed)
    (leads : Leads (Function.update next changed successor) source target) :
    Leads next source target := by
  induction leads with
  | refl => exact .refl
  | @tail middle target before link ih =>
    have apart : middle ≠ changed := by
      intro same
      exact avoids (same ▸ ih)
    apply ih.tail
    rwa [Link, Function.update_of_ne apart] at link

/-- Either the chain already existed or it passes the changed element. -/
private theorem transGen_of_update
    (leads : Relation.TransGen (Link (Function.update next changed successor)) source target) :
    Relation.TransGen (Link next) source target ∨
      Leads (Function.update next changed successor) source changed ∧
        Relation.TransGen (Link (Function.update next changed successor)) changed target := by
  induction leads with
  | @single target link =>
    by_cases same : source = changed
    · subst same
      exact .inr ⟨.refl, .single link⟩
    · rw [Link, Function.update_of_ne same] at link
      exact .inl (.single link)
  | @tail middle target before link ih =>
    rcases ih with old | ⟨early, late⟩
    · by_cases same : middle = changed
      · subst same
        exact .inr ⟨before.to_reflTransGen, .single link⟩
      · rw [Link, Function.update_of_ne same] at link
        exact .inl (old.tail link)
    · exact .inr ⟨early, late.tail link⟩

/-- A new successor whose chain avoids the element closes no cycle. -/
theorem Acyclic.update (acyclic : Acyclic next)
    (avoids : ∀ target, successor = some target → ¬ Leads next target changed) :
    Acyclic (Function.update next changed successor) := by
  intro element cycle
  have around : Relation.TransGen (Link (Function.update next changed successor)) changed changed := by
    rcases transGen_of_update cycle with old | ⟨early, late⟩
    · exact absurd old (acyclic element)
    · exact Relation.TransGen.trans_left late early
  obtain ⟨target, link, back⟩ := Relation.TransGen.head'_iff.mp around
  rw [Link, Function.update_self] at link
  exact avoids target link (leads_of_update (avoids target link) back)

end Relink

/-- A list of elements each of which is the successor of the one before. -/
theorem Acyclic.nodup (acyclic : Acyclic next) {elements : List α}
    (linked : elements.IsChain (Link next)) : elements.Nodup := by
  have ordered : elements.Pairwise (Relation.TransGen (Link next)) :=
    List.IsChain.pairwise (linked.imp fun _ _ link => Relation.TransGen.single link)
  apply ordered.imp
  rintro first second leads rfl
  exact acyclic first leads

variable {current : α}

/-- Every visited element leads to a successor of the current one as well. -/
private theorem visited_leads {visited : List α}
    (before : ∀ element ∈ visited, Relation.TransGen (Link next) element current)
    (link : next current = some target) :
    ∀ element ∈ current :: visited, Relation.TransGen (Link next) element target := by
  intro element member
  rcases List.mem_cons.mp member with rfl | member
  · exact .single link
  · exact (before element member).tail link

/-- What a cycle leads to leads back to its start. -/
private theorem returns {element reached : α} (cycle : Relation.TransGen (Link next) element element)
    (leads : Leads next element reached) : Relation.TransGen (Link next) reached element := by
  induction leads with
  | refl => exact cycle
  | @tail middle reached _ link ih =>
    obtain ⟨target, first, rest⟩ := Relation.TransGen.head'_iff.mp ih
    obtain rfl : target = reached := Option.some.inj (first.symm.trans link)
    rcases Relation.reflTransGen_iff_eq_or_transGen.mp rest with rfl | back
    · exact cycle
    · exact back

section Walks

variable [DecidableEq α]

/-- Walk along the links until `wanted` is met. The walk stops at the end of the
chain and at an element it has visited. -/
def meets (next : α → Option α) (wanted : α) : Nat → List α → Option α → Bool
  | 0, _, _ => false
  | _ + 1, _, none => false
  | fuel + 1, visited, some current =>
    if current = wanted then true
    else if current ∈ visited then false
    else meets next wanted fuel (current :: visited) (next current)

/-- Walk along the links of the `known` elements until one is visited again. -/
def revisits (known : α → Bool) (next : α → Option α) : Nat → List α → α → Option α
  | 0, _, _ => none
  | fuel + 1, visited, current =>
    if known current then
      if current ∈ visited then some current
      else
        match next current with
        | some target => revisits known next fuel (current :: visited) target
        | none => none
    else none

variable {wanted : α} {visited : List α} {domain : Finset α} {fuel : Nat}

/-- The part of the domain that a walk has not visited shrinks with every step. -/
private theorem unvisited_lt (member : current ∈ domain) (fresh : current ∉ visited)
    (enough : (domain.filter (· ∉ visited)).card < fuel + 1) :
    (domain.filter (· ∉ current :: visited)).card < fuel := by
  have smaller : domain.filter (· ∉ current :: visited) ⊂ domain.filter (· ∉ visited) := by
    apply Finset.ssubset_iff_of_subset _ |>.mpr
    · exact ⟨current, by simp [member, fresh], by simp⟩
    · intro element present
      simp only [Finset.mem_filter, List.mem_cons, not_or] at present ⊢
      exact ⟨present.1, present.2.2⟩
  have := Finset.card_lt_card smaller
  omega

private theorem meets_of_leads_from (acyclic : Acyclic next)
    (sources : ∀ source target, next source = some target → source ∈ domain)
    (before : ∀ element ∈ visited, Relation.TransGen (Link next) element current)
    (leads : Leads next current wanted) (enough : (domain.filter (· ∉ visited)).card < fuel) :
    meets next wanted fuel visited (some current) = true := by
  induction fuel generalizing visited current with
  | zero => exact absurd enough (Nat.not_lt_zero _)
  | succ fuel ih =>
    by_cases found : current = wanted
    · simp [meets, found]
    · obtain ⟨target, link, rest⟩ := (Relation.ReflTransGen.cases_head leads).resolve_left found
      have fresh : current ∉ visited := fun member => acyclic current (before current member)
      have smaller := unvisited_lt (sources current target link) fresh enough
      rw [meets, if_neg found, if_neg fresh, link]
      exact ih (visited_leads before link) rest smaller

/-- A walk with more steps than there are sources of links meets whatever the
chain leads to. -/
theorem meets_of_leads (acyclic : Acyclic next)
    (sources : ∀ source target, next source = some target → source ∈ domain)
    (enough : domain.card < fuel) {start : α} (leads : Leads next start wanted) :
    meets next wanted fuel [] (some start) = true := by
  apply meets_of_leads_from acyclic sources (by simp) leads
  simpa using enough

private theorem revisits_eq_none_from (acyclic : Acyclic next) (known : α → Bool) (fuel : Nat)
    (before : ∀ element ∈ visited, Relation.TransGen (Link next) element current) :
    revisits known next fuel visited current = none := by
  induction fuel generalizing visited current with
  | zero => rfl
  | succ fuel ih =>
    unfold revisits
    by_cases stored : known current = true
    · have fresh : current ∉ visited := fun member => acyclic current (before current member)
      rw [if_pos stored, if_neg fresh]
      cases link : next current with
      | none => rfl
      | some target => exact ih (visited_leads before link)
    · rw [if_neg stored]

/-- Without a cycle nothing is visited again. -/
theorem revisits_eq_none (acyclic : Acyclic next) (known : α → Bool) (fuel : Nat) (start : α) :
    revisits known next fuel [] start = none :=
  revisits_eq_none_from acyclic known fuel (by simp)

private theorem revisits_ne_none_from {known : α → Bool}
    (endless : ∀ element, Leads next current element →
      known element = true ∧ element ∈ domain ∧ ∃ target, next element = some target)
    (enough : (domain.filter (· ∉ visited)).card < fuel) :
    revisits known next fuel visited current ≠ none := by
  induction fuel generalizing visited current with
  | zero => exact absurd enough (Nat.not_lt_zero _)
  | succ fuel ih =>
    obtain ⟨stored, member, target, link⟩ := endless current .refl
    unfold revisits
    rw [if_pos stored]
    by_cases seen : current ∈ visited
    · simp [seen]
    · rw [if_neg seen, link]
      apply ih _ (unvisited_lt member seen enough)
      intro element leads
      exact endless element (.head link leads)

/-- A cycle is followed until something is visited again. -/
theorem acyclic_of_revisits {known : α → Bool}
    (sources : ∀ source target, next source = some target →
      known source = true ∧ source ∈ domain) (enough : domain.card < fuel)
    (settled : ∀ start, known start = true → revisits known next fuel [] start = none) :
    Acyclic next := by
  intro element cycle
  have endless : ∀ reached, Leads next element reached →
      known reached = true ∧ reached ∈ domain ∧ ∃ target, next reached = some target := by
    intro reached leads
    obtain ⟨target, link, _⟩ := Relation.TransGen.head'_iff.mp (returns cycle leads)
    exact ⟨(sources reached target link).1, (sources reached target link).2, target, link⟩
  have stored := (endless element .refl).1
  exact revisits_ne_none_from endless (by simpa using enough) (settled element stored)

end Walks

end Atelia.Chain
