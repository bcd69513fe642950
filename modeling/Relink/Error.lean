/-
  Relink.Error — what can go wrong, as causes, and how it is worded.

  Main definitions:
    * `StoreError` — a file could not be reached
    * `EditFault`  — an edit does not fit its text
    * `Failure`    — a file's imports could not be redirected
-/

import Relink.Path

namespace Relink

/-! ## §1. Stores -/

/-- Why an operation on a file failed. -/
structure Cause where
  /-- The file is missing. -/
  missing : Bool
  /-- The reason in words. -/
  message : String
deriving DecidableEq, Repr, Inhabited

/-- A file that could not be reached. -/
inductive StoreError where
  /-- There is no such file. -/
  | notFound (path : Path)
  /-- The file was there or could not be looked for. -/
  | failed (path : Path) (reason : String)
deriving DecidableEq, Repr, Inhabited

namespace StoreError

/-- The error of an operation on a path, by its cause. -/
def ofCause (path : Path) (cause : Cause) : StoreError :=
  if cause.missing then .notFound path else .failed path cause.message

/-- The path the operation was for. -/
def path : StoreError → Path
  | .notFound p => p
  | .failed p _ => p

/-- The error in words. -/
def message : StoreError → String
  | .notFound p => "File not found: " ++ p.text
  | .failed p reason => "I/O error on " ++ p.text ++ ": " ++ reason

end StoreError

/-! ## §2. Edits -/

/-- Why an edit does not fit its text. -/
inductive EditFault where
  /-- It ends before it starts. -/
  | reversed
  /-- It ends after the text, which has `length` bytes. -/
  | beyond (length : Nat)
  /-- It ends after the start of an edit that comes later in the text. -/
  | overlaps (start : Nat)
  /-- It starts or ends inside a character. -/
  | splits
deriving DecidableEq, Repr, Inhabited

/-- The fault of the edit from `start` to `stop`, in words. -/
def EditFault.message (start stop : Nat) (fault : EditFault) : String :=
  let range := "range " ++ toString start ++ ".." ++ toString stop
  match fault with
  | .reversed => range ++ " is reversed"
  | .beyond length => range ++ " exceeds text length " ++ toString length
  | .overlaps other => range ++ " overlaps the edit starting at " ++ toString other
  | .splits => range ++ " splits a character"

/-! ## §3. Failures -/

/-- Why the imports of a file could not be redirected. -/
inductive Failure where
  /-- The file could not be read. -/
  | read (path : Path) (error : StoreError)
  /-- The file could not be written. -/
  | write (path : Path) (error : StoreError)
  /-- The text is not a module. -/
  | parse (path : Path)
  /-- No module owns the path. -/
  | unresolved (path : Path)
  /-- The module does not lie where modules lie. -/
  | misplaced (moduleRoot : Path)
  /-- An edit does not fit the text. -/
  | edit (start stop : Nat) (fault : EditFault)
deriving DecidableEq, Repr, Inhabited

/-- The failure in words. -/
def Failure.message : Failure → String
  | .read p e => "Failed to read " ++ p.text ++ ": " ++ e.message
  | .write p e => "Failed to write " ++ p.text ++ ": " ++ e.message
  | .parse p => "Failed to parse " ++ p.text
  | .unresolved p => "No module root found for " ++ p.text
  | .misplaced p => "Module root " ++ p.text ++ " does not match the workspace layout"
  | .edit start stop fault => "Invalid edit: " ++ fault.message start stop

end Relink
