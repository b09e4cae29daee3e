import Mathlib.Data.List.Basic
import Mathlib.Data.List.Infix

/-! Lexical path components on a Unix system. -/

namespace Atelia

inductive PathComponent where
  | rootDir
  | curDir
  | parentDir
  | normal (name : String)
  deriving DecidableEq

namespace PathComponent

/-- One separator-free piece of a path, other than the first. -/
def ofPiece (piece : List Char) : Option PathComponent :=
  if piece = [] then none
  else if piece = ['.'] then none
  else if piece = ['.', '.'] then some parentDir
  else some (normal (String.ofList piece))

/-- The first piece of a relative path keeps a leading `.`. -/
def ofFirstPiece (piece : List Char) : Option PathComponent :=
  if piece = ['.'] then some curDir else ofPiece piece

end PathComponent

namespace Path

open PathComponent

/-- The components of a path. -/
def components (path : String) : List PathComponent :=
  match path.toList with
  | '/' :: rest => rootDir :: (rest.splitOn '/').filterMap ofPiece
  | characters =>
    match characters.splitOn '/' with
    | [] => []
    | first :: rest => (ofFirstPiece first).toList ++ rest.filterMap ofPiece

/-- `starts_with`: whole components are compared. -/
def startsWith (path base : List PathComponent) : Bool :=
  base.isPrefixOf path

theorem startsWith_iff {path base : List PathComponent} :
    startsWith path base = true ↔ base <+: path :=
  List.isPrefixOf_iff_prefix

/-- Two paths are distinct and one is an ancestor of the other. -/
def strictlyOverlap (first second : List PathComponent) : Bool :=
  first ≠ second && (startsWith first second || startsWith second first)

theorem strictlyOverlap_comm (first second : List PathComponent) :
    strictlyOverlap first second = strictlyOverlap second first := by
  simp only [strictlyOverlap, Bool.or_comm, ne_comm]

example : components "/srv//repo/./a/" =
    [.rootDir, .normal "srv", .normal "repo", .normal "a"] := by decide

end Path

end Atelia
