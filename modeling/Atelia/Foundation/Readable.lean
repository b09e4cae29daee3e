import Mathlib.Data.List.Basic

/-! Writers whose output can be read back. -/

namespace Atelia

variable {α β σ : Type} {stops : σ → Prop} {write : α → List σ}

/-- Nothing, or symbols of which the first is a stop. -/
def Stopped (stops : σ → Prop) (rest : List σ) : Prop :=
  ∀ symbol, rest.head? = some symbol → stops symbol

theorem stopped_nil (stops : σ → Prop) : Stopped stops [] := by
  intro symbol first
  cases first

theorem stopped_cons {symbol : σ} (stop : stops symbol) (rest : List σ) :
    Stopped stops (symbol :: rest) := by
  intro first same
  cases same
  exact stop

/-- The value that is written and what follows it can be told from the whole. -/
def Readable (stops : σ → Prop) (write : α → List σ) : Prop :=
  ∀ ⦃first second rest rest'⦄, Stopped stops rest → Stopped stops rest' →
    write first ++ rest = write second ++ rest' → first = second ∧ rest = rest'

namespace Readable

theorem injective (readable : Readable stops write) : Function.Injective write := by
  intro first second same
  refine (readable (stopped_nil stops) (stopped_nil stops) ?_).1
  rw [same]

/-- A written value ends where the first stop stands. -/
theorem run_inj {first second rest rest' : List σ} (plain : ∀ symbol ∈ first, ¬ stops symbol)
    (plain' : ∀ symbol ∈ second, ¬ stops symbol) (stopped : Stopped stops rest)
    (stopped' : Stopped stops rest') (same : first ++ rest = second ++ rest') :
    first = second ∧ rest = rest' := by
  induction first generalizing second with
  | nil =>
    cases second with
    | nil => exact ⟨rfl, same⟩
    | cons symbol second =>
      have stop := stopped symbol (by rw [← List.nil_append rest, same]; rfl)
      exact absurd stop (plain' symbol List.mem_cons_self)
  | cons symbol first ih =>
    cases second with
    | nil =>
      have stop := stopped' symbol (by rw [← List.nil_append rest', ← same]; rfl)
      exact absurd stop (plain symbol List.mem_cons_self)
    | cons symbol' second =>
      obtain ⟨rfl, tails⟩ := List.cons.inj same
      have tails := ih (fun symbol member => plain symbol (List.mem_cons_of_mem _ member))
        (fun symbol member => plain' symbol (List.mem_cons_of_mem _ member)) tails
      exact ⟨congrArg _ tails.1, tails.2⟩

theorem of_run (plain : ∀ value, ∀ symbol ∈ write value, ¬ stops symbol)
    (injective : Function.Injective write) : Readable stops write := by
  intro first second rest rest' stopped stopped' same
  have split := run_inj (plain first) (plain second) stopped stopped' same
  exact ⟨injective split.1, split.2⟩

/-- Where nothing follows, it is enough that different values are written differently. -/
theorem of_injective (injective : Function.Injective write) : Readable (fun _ => False) write := by
  have ended {rest : List σ} (stopped : Stopped (fun _ => False) rest) : rest = [] := by
    cases rest with
    | nil => rfl
    | cons symbol rest => exact (stopped symbol rfl).elim
  intro first second rest rest' stopped stopped' same
  rw [ended stopped, ended stopped', List.append_nil, List.append_nil] at same
  exact ⟨injective same, (ended stopped).trans (ended stopped').symm⟩

theorem of_lead (readable : Readable stops write) (lead : List σ) :
    Readable stops fun value => lead ++ write value := by
  intro first second rest rest' stopped stopped' same
  simp only [List.append_assoc] at same
  exact readable stopped stopped' (List.append_cancel_left same)

theorem comp (readable : Readable stops write) {encode : β → α}
    (injective : Function.Injective encode) : Readable stops fun value => write (encode value) := by
  intro first second rest rest' stopped stopped' same
  obtain ⟨values, rests⟩ := readable stopped stopped' same
  exact ⟨injective values, rests⟩

/-- Values one after the other, where the second begins with a stop of the first. -/
theorem pair {stops' : σ → Prop} {write' : β → List σ} (first : Readable stops write)
    (second : Readable stops' write')
    (begins : ∀ value rest, Stopped stops' rest → Stopped stops (write' value ++ rest)) :
    Readable stops' fun values : α × β => write values.1 ++ write' values.2 := by
  rintro ⟨one, two⟩ ⟨one', two'⟩ rest rest' stopped stopped' same
  simp only [List.append_assoc] at same
  obtain ⟨rfl, later⟩ := first (begins _ _ stopped) (begins _ _ stopped') same
  obtain ⟨rfl, rests⟩ := second stopped stopped' later
  exact ⟨rfl, rests⟩

/-- Values with a separator between them. -/
theorem separated {stops' : σ → Prop} {write' : β → List σ} {separator : σ}
    (first : Readable stops write) (second : Readable stops' write') (stop : stops separator) :
    Readable stops' fun values : α × β => write values.1 ++ separator :: write' values.2 :=
  first.pair (second.of_lead [separator]) fun _ _ _ => stopped_cons stop _

/-- Values one after the other up to a closing symbol, with which none of them begins. -/
theorem closed {close : σ} (readable : Readable (fun _ => True) write)
    (opens : ∀ value rest rest', write value ++ rest ≠ close :: rest') :
    Readable (fun _ => True) fun values : List α => values.flatMap write ++ [close] := by
  intro first second rest rest' _ _ same
  have anything (rest : List σ) : Stopped (fun _ => True) rest := fun _ _ => trivial
  induction first generalizing second with
  | nil =>
    cases second with
    | nil => exact ⟨rfl, (List.cons.inj same).2⟩
    | cons value second =>
      simp only [List.flatMap_cons, List.append_assoc] at same
      exact absurd same.symm (opens value _ _)
  | cons value first ih =>
    cases second with
    | nil =>
      simp only [List.flatMap_cons, List.append_assoc] at same
      exact absurd same (opens value _ _)
    | cons value' second =>
      simp only [List.flatMap_cons, List.append_assoc] at same
      obtain ⟨rfl, later⟩ := readable (anything _) (anything _) same
      obtain ⟨rfl, rests⟩ := ih (by simpa using later)
      exact ⟨rfl, rests⟩

theorem intercalate_close (separator close : σ) (value : α) (values : List α) (rest : List σ) :
    [separator].intercalate ((value :: values).map write) ++ [close] ++ rest =
      write value ++ if values = [] then close :: rest else
        separator :: ([separator].intercalate (values.map write) ++ [close] ++ rest) := by
  cases values with
  | nil => simp
  | cons next values => simp [List.intercalate_cons_cons]

/-- Values with separators between them up to a closing symbol, with which none begins. -/
theorem enclosed {separator close : σ} (different : separator ≠ close)
    (readable : Readable (fun symbol => symbol = separator ∨ symbol = close) write)
    (opens : ∀ value rest rest', write value ++ rest ≠ close :: rest') :
    Readable (fun _ => True)
      fun values : List α => [separator].intercalate (values.map write) ++ [close] := by
  intro first second rest rest' _ _ same
  have ends (values : List α) (tail rest : List σ) :
      Stopped (fun symbol => symbol = separator ∨ symbol = close)
        (if values = [] then close :: rest else separator :: tail) := by
    split
    · exact stopped_cons (.inr rfl) rest
    · exact stopped_cons (.inl rfl) tail
  simp only at same
  induction first generalizing second with
  | nil =>
    cases second with
    | nil => exact ⟨rfl, (List.cons.inj same).2⟩
    | cons value second =>
      rw [intercalate_close] at same
      exact absurd same.symm (opens value _ _)
  | cons value first ih =>
    cases second with
    | nil =>
      rw [intercalate_close] at same
      exact absurd same (opens value _ _)
    | cons value' second =>
      rw [intercalate_close, intercalate_close] at same
      obtain ⟨rfl, later⟩ := readable (ends _ _ _) (ends _ _ _) same
      split_ifs at later with last last' last'
      · rw [last, last']
        exact ⟨rfl, (List.cons.inj later).2⟩
      · exact absurd (List.cons.inj later).1.symm different
      · exact absurd (List.cons.inj later).1 different
      · obtain ⟨rfl, rests⟩ := ih (List.cons.inj later).2
        exact ⟨rfl, rests⟩

end Readable

section Blocks

/-! Blocks of symbols. -/

variable {κ : Type} {kind : σ → κ} {inner tag : κ} {tags : List κ} {write' : β → List σ}

structure Block (kind : σ → κ) (inner tag : κ) (write : α → List σ) : Prop where
  injective : Function.Injective write
  begins : ∀ value symbol, (write value).head? = some symbol → kind symbol = tag
  inside : ∀ value, ∀ symbol ∈ write value, kind symbol = tag ∨ kind symbol = inner

theorem Block.readable (block : Block kind inner tag write) :
    Readable (fun symbol => kind symbol ≠ tag ∧ kind symbol ≠ inner) write := by
  refine .of_run (fun value symbol member outside => ?_) block.injective
  rcases block.inside value symbol member with same | same
  · exact outside.1 same
  · exact outside.2 same

/-- Blocks with different kinds, of which none is the inner one. -/
structure Blocks (kind : σ → κ) (inner : κ) (tags : List κ) (write : α → List σ) : Prop where
  readable : Readable (fun _ => False) write
  begins : ∀ value symbol, (write value).head? = some symbol → kind symbol ∈ tags
  outer : inner ∉ tags

theorem Block.single (block : Block kind inner tag write) (outer : inner ≠ tag) :
    Blocks kind inner [tag] write where
  readable := .of_injective block.injective
  begins value symbol first := List.mem_singleton.mpr (block.begins value symbol first)
  outer := by rwa [List.mem_singleton]

theorem Block.append (block : Block kind inner tag write) (blocks : Blocks kind inner tags write')
    (outer : inner ≠ tag) (fresh : tag ∉ tags) :
    Blocks kind inner (tag :: tags) fun values : α × β => write values.1 ++ write' values.2 where
  readable := by
    refine block.readable.pair blocks.readable fun value rest stopped symbol first => ?_
    cases written : write' value with
    | nil =>
      rw [written, List.nil_append] at first
      exact (stopped symbol first).elim
    | cons symbol' others =>
      rw [written] at first
      have member := blocks.begins value symbol (by rw [written]; exact first)
      refine ⟨fun same => fresh (same ▸ member), fun same => blocks.outer (same ▸ member)⟩
  begins values symbol first := by
    cases written : write values.1 with
    | nil =>
      rw [written, List.nil_append] at first
      exact List.mem_cons_of_mem _ (blocks.begins _ symbol first)
    | cons symbol' others =>
      rw [written] at first
      have own := block.begins values.1 symbol (by rw [written]; exact first)
      rw [own]
      exact List.mem_cons_self
  outer := List.not_mem_cons_of_ne_of_not_mem outer blocks.outer

end Blocks

end Atelia
