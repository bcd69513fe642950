/-
  Relink.Layout — where modules lie in a workspace, and what they are called.

  Every module lives in a directory whose name stands right below a container
  segment of the path; that name is how other modules import it.

  Main definitions:
    * `MismatchPolicy` — what happens to an import of a misplaced module
    * `Layout`         — container, workspace and policy
    * `packageName?`   — the name a module root is imported by
    * `packageName`    — the same, with the failure where there is none
    * `importTarget`   — the path a relative specifier points at
-/

import Relink.Error

namespace Relink

/-! ## §1. Layout -/

/-- What happens to an import of a module that is misplaced. -/
inductive MismatchPolicy where
  /-- The file fails. -/
  | error
  /-- The import stays as it is. -/
  | skip
  /-- The import gets an empty specifier. -/
  | legacyEmpty
deriving DecidableEq, Repr, Inhabited

namespace MismatchPolicy

/-- The name a policy is configured by. -/
def label : MismatchPolicy → String
  | .error => "error"
  | .skip => "skip"
  | .legacyEmpty => "legacy-empty"

/-- All policies. -/
def all : List MismatchPolicy := [.error, .skip, .legacyEmpty]

/-- The policy with a name. -/
def ofLabel? (s : String) : Option MismatchPolicy :=
  all.find? fun p => p.label = s

end MismatchPolicy

/-- The segment below which modules lie, unless another is configured. -/
def defaultContainer : String := "projects"

/-- Where modules lie. -/
structure Layout where
  /-- The path segment below which every module lies. -/
  container : String := defaultContainer
  /-- The directory below which the segment is looked for. -/
  workspaceRoot : Option Path := none
  /-- What happens to an import of a misplaced module. -/
  onMismatch : MismatchPolicy := .error
deriving DecidableEq, Repr, Inhabited

/-! ## §2. Names of modules -/

/-- The name right after the first container segment. -/
def nameAfter (container : String) : List Component → Option String
  | [] => none
  | c :: cs =>
    if c = .name container then
      match cs with
      | .name n :: _ => some n
      | _ => none
    else nameAfter container cs

/-- The name a module root is imported by, if it lies in the layout. -/
def packageName? (moduleRoot : Path) (workspaceRoot : Option Path) (container : String) :
    Option String :=
  match workspaceRoot with
  | none => nameAfter container moduleRoot.components
  | some root => (moduleRoot.below? root).bind (nameAfter container)

/-- The name a module root is imported by; one that lies outside the layout is misplaced. -/
def packageName (moduleRoot : Path) (workspaceRoot : Option Path) (container : String) :
    Except Failure String :=
  match packageName? moduleRoot workspaceRoot container with
  | some name => .ok name
  | none => .error (.misplaced moduleRoot)

/-- The name a module root is imported by in this layout. -/
def Layout.packageName? (l : Layout) (moduleRoot : Path) : Option String :=
  Relink.packageName? moduleRoot l.workspaceRoot l.container

/-- The path a relative specifier points at, seen from the importing file. -/
def importTarget (file : Path) (specifier : String) : Path :=
  ((file.parent?.getD ⟨""⟩).join ⟨specifier⟩).resolved

end Relink
