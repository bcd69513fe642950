/-
  Relink.Store.Faulty — a store in which some operations fail.

  Main definitions:
    * `Fault`  — an operation, a path and the reason it fails
    * `Faults` — all that fails, given by a list of faults or otherwise
    * `Faulty` — a store with faults
-/

import Relink.Store.Basic

namespace Relink

/-- The operations that may be made to fail. -/
inductive Access where
  | read
  | write
  | children
deriving DecidableEq, Repr, Inhabited

/-- An operation on a path that fails. -/
structure Fault where
  /-- The operation. -/
  on : Access
  /-- The path it fails for. -/
  path : Path
  /-- Why it fails. -/
  cause : Cause
deriving DecidableEq, Repr, Inhabited

/-- What fails: the reason for each operation and path, where there is one. -/
def Faults : Type := Access → Path → Option Cause

namespace Faults

/-- Nothing fails. -/
def empty : Faults := fun _ _ => none

/-- The faults of a list; of those that fit, the first gives the reason. -/
def ofList (faults : List Fault) : Faults := fun on p =>
  (faults.find? fun f => f.on = on && f.path.same p).map (·.cause)

instance : Coe (List Fault) Faults := ⟨ofList⟩

end Faults

/-- A store in which some operations fail; the others pass through. -/
structure Faulty (σ : Type) where
  /-- The store below. -/
  store : σ
  /-- What fails. -/
  faults : Faults := .empty

namespace Faulty

variable {σ : Type}

/-- The error of an operation, if it is made to fail. -/
def error? (s : Faulty σ) (on : Access) (p : Path) : Option StoreError :=
  (s.faults on p).map (StoreError.ofCause p)

instance [FileStore σ] : FileStore (Faulty σ) where
  read s p :=
    match s.error? .read p with
    | some e => .error e
    | none => FileStore.read s.store p
  write s p text :=
    match s.error? .write p with
    | some e => pure (.error e, s)
    | none => do
      let (result, store) ← FileStore.write s.store p text
      return (result, { s with store := store })
  has s p := FileStore.has s.store p
  children s p :=
    match s.error? .children p with
    | some e => .error e
    | none => FileStore.children s.store p

end Faulty

end Relink
