/-
  Relink.Store.Overlay — writes that wait above a base store.

  Reading looks at what is staged before the base; writing only stages.  A
  commit moves the staged files to the base one by one, in path order, and
  stops at the first that fails: the files before it have left the staging, the
  others are still there.

  Main definitions:
    * `Overlay`
    * `Overlay.commit`, `Overlay.discard`
-/

import Relink.Store.Memory

namespace Relink

/-- Staged files above a base store. -/
structure Overlay (β : Type) where
  /-- The store below. -/
  base : β
  /-- What waits to be written. -/
  staged : Memory := {}

namespace Overlay

variable {β : Type}

/-- The part that emits the overlay's events. -/
def logTarget : String := "portico_workspace::overlay"

/-- Sorted children of the base, with those staged added. -/
def mergedChildren (base staged : List Path) : List Path :=
  Path.sortedSet (base ++ staged)

instance [FileStore β] : FileStore (Overlay β) where
  read o p :=
    match o.staged.get? p with
    | some text => .ok text
    | none => FileStore.read o.base p
  write o p text := pure (.ok (), { o with staged := o.staged.insert p text })
  has o p := o.staged.contains p || FileStore.has o.base p
  children o p :=
    match FileStore.children o.base p with
    | .ok below => .ok (mergedChildren below (o.staged.childrenOf p))
    | .error e => .error e

/-- Writes staged files to the base in their order until one fails; tells how
    many were written, or why it stopped. -/
def flush [FileStore β] (base : β) :
    (files : List (Path × String)) → Memory.Ordered files → Nat →
      Traced (Except StoreError Nat × Overlay β)
  | [], _, n => pure (.ok n, { base := base })
  | (p, text) :: rest, h, n => do
    match ← FileStore.write base p text with
    | (.ok _, base') => flush base' rest h.tail (n + 1)
    | (.error e, base') => return (.error e, { base := base', staged := ⟨(p, text) :: rest, h⟩ })

/-- Moves the staged files to the base. -/
def commit [FileStore β] (o : Overlay β) : Traced (Except StoreError Nat × Overlay β) := do
  let (result, o') ← flush o.base o.staged.files o.staged.ordered 0
  match result with
  | .ok n =>
    Traced.emit {
      level := .info, target := logTarget, message := "Committed staged writes"
      fields := [("committed", .count n)] }
    return (.ok n, o')
  | .error e => return (.error e, o')

/-- Forgets the staged files; tells how many there were. -/
def discard (o : Overlay β) : Traced (Nat × Overlay β) := do
  let n := o.staged.files.length
  Traced.emit {
    level := .debug, target := logTarget, message := "Discarded staged writes"
    fields := [("dropped", .count n)] }
  return (n, { o with staged := {} })

end Overlay

end Relink
