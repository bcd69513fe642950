/-
  Relink.Log — events, and computations that emit them.

  An event has a level, the name of the part that emits it and fields.  A
  computation that emits events is a value together with the events in order,
  so that what is logged can be stated like any other result.

  Main definitions:
    * `Level`, `Field`, `Event`
    * `Traced` — a value and the events on the way to it
-/

namespace Relink

/-! ## §1. Events -/

/-- How important an event is. -/
inductive Level where
  | trace
  | debug
  | info
  | warn
  | error
deriving DecidableEq, Repr, Inhabited

namespace Level

/-- Levels by growing detail: 1 for errors up to 5 for traces. -/
def detail : Level → Nat
  | .error => 1
  | .warn => 2
  | .info => 3
  | .debug => 4
  | .trace => 5

/-- The name a level is shown with. -/
def label : Level → String
  | .trace => "TRACE"
  | .debug => "DEBUG"
  | .info => "INFO"
  | .warn => "WARN"
  | .error => "ERROR"

end Level

/-- The value of a field. -/
inductive Field where
  | text (s : String)
  | count (n : Nat)
deriving DecidableEq, Repr, Inhabited

/-- Something worth recording. -/
structure Event where
  /-- How important it is. -/
  level : Level
  /-- The part that emits it. -/
  target : String
  /-- What happened. -/
  message : String
  /-- What it happened to. -/
  fields : List (String × Field) := []
deriving DecidableEq, Repr, Inhabited

/-! ## §2. Traced values -/

/-- A value, and the events on the way to it. -/
structure Traced (α : Type) where
  /-- The value. -/
  value : α
  /-- The events, in order. -/
  events : List Event := []
deriving Repr, Inhabited

namespace Traced

/-- A value without events. -/
protected def pure {α : Type} (a : α) : Traced α := ⟨a, []⟩

/-- First the events of `t`, then those of what follows. -/
protected def bind {α β : Type} (t : Traced α) (f : α → Traced β) : Traced β :=
  let next := f t.value
  ⟨next.value, t.events ++ next.events⟩

instance : Monad Traced where
  pure := Traced.pure
  bind := Traced.bind

/-- Emits one event. -/
def emit (e : Event) : Traced Unit := ⟨(), [e]⟩

end Traced

end Relink
