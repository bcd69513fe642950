/-
  Relink.Proofs.Traced — the value of a computation, its events left out.

  Events never decide a value: the value of a sequence is the value of its second
  part at the value of its first.  The equations below are how every later proof
  looks through a `do` block.

  The events are kept in view as well: traced computations obey the monad laws, so two
  computations can be shown to be one, events and all.

  Main definitions:
    * `outcome` — what comes of a computation that may fail

  Main results:
    * `bind_congr_of_outcome` — what follows a computation only matters at its outcome
-/

import Relink.Log

namespace Relink

/-! ## §1. Computations that cannot fail -/

namespace Traced

variable {α β : Type}

@[simp] theorem value_pure (a : α) : (pure a : Traced α).value = a := rfl

@[simp] theorem value_bind (t : Traced α) (f : α → Traced β) :
    (t >>= f).value = (f t.value).value := rfl

@[simp] theorem value_emit (e : Event) : (emit e).value = () := rfl

/-- What is done first is told first. -/
theorem events_bind (t : Traced α) (f : α → Traced β) :
    (t >>= f).events = t.events ++ (f t.value).events := rfl

instance : LawfulMonad Traced := LawfulMonad.mk' Traced
  (fun t => congrArg (Traced.mk t.value) (List.append_nil t.events))
  (fun a f => congrArg (Traced.mk (f a).value) (List.nil_append (f a).events))
  (fun t f g => congrArg (Traced.mk (g (f t.value).value).value)
    (List.append_assoc t.events (f t.value).events (g (f t.value).value).events))

end Traced

/-! ## §2. Computations that may fail -/

section Outcome

variable {ε α β : Type}

/-- What comes of a computation that may fail. -/
def outcome (x : ExceptT ε Traced α) : Except ε α := x.run.value

@[simp] theorem outcome_pure (a : α) : outcome (pure a : ExceptT ε Traced α) = .ok a := rfl

@[simp] theorem outcome_throw (e : ε) : outcome (throw e : ExceptT ε Traced α) = .error e := rfl

@[simp] theorem outcome_lift (t : Traced α) :
    outcome (liftM t : ExceptT ε Traced α) = .ok t.value := rfl

/-- **The outcome of two steps** is that of the second one, after the outcome of the first. -/
@[simp] theorem outcome_bind (x : ExceptT ε Traced α) (f : α → ExceptT ε Traced β) :
    outcome (x >>= f) = (outcome x).bind fun a => outcome (f a) := by
  change (ExceptT.bindCont f x.run.value).value = (x.run.value).bind fun a => outcome (f a)
  cases x.run.value with
  | error e => rfl
  | ok a => rfl

/-- The outcome is what is left when the events are forgotten. -/
@[simp] theorem value_run (x : ExceptT ε Traced α) : x.run.value = outcome x := rfl

@[simp] theorem bind_ok (a : α) (f : α → Except ε β) : (Except.ok a).bind f = f a := rfl

@[simp] theorem bind_error (e : ε) (f : α → Except ε β) :
    (Except.error e : Except ε α).bind f = .error e := rfl

@[simp] theorem map_ok (a : α) (f : α → β) : (Except.ok a : Except ε α).map f = .ok (f a) := rfl

@[simp] theorem map_error (e : ε) (f : α → β) :
    (Except.error e : Except ε α).map f = .error e := rfl

@[simp] theorem outcome_map (f : α → β) (x : ExceptT ε Traced α) :
    outcome (f <$> x) = (outcome x).map f := by
  rw [map_eq_pure_bind, outcome_bind]
  cases outcome x with
  | error e => rfl
  | ok a => rfl

/-- Changing a result tells nothing. -/
theorem events_map (f : α → β) (x : ExceptT ε Traced α) :
    (f <$> x).run.events = x.run.events := by
  rw [ExceptT.run_map, map_eq_pure_bind, Traced.events_bind]
  exact List.append_nil _

/-- **What follows a computation only matters at its outcome.**  Two continuations that
    agree there make one computation, with one row of events. -/
theorem bind_congr_of_outcome {x : ExceptT ε Traced α} {f g : α → ExceptT ε Traced β}
    (h : ∀ a, outcome x = .ok a → f a = g a) : x >>= f = x >>= g := by
  have hnext : ExceptT.bindCont f x.run.value = ExceptT.bindCont g x.run.value := by
    cases hx : x.run.value with
    | error e => rfl
    | ok a => exact congrArg ExceptT.run (h a hx)
  apply ExceptT.ext
  show Traced.bind x.run (ExceptT.bindCont f) = Traced.bind x.run (ExceptT.bindCont g)
  unfold Traced.bind
  rw [hnext]

/-- A sequence comes to something exactly when both of its parts do. -/
theorem bind_eq_ok_iff {x : Except ε α} {f : α → Except ε β} {b : β} :
    x.bind f = .ok b ↔ ∃ a, x = .ok a ∧ f a = .ok b := by
  cases x with
  | error e =>
      constructor
      · intro h; cases h
      · rintro ⟨a, ha, _⟩; cases ha
  | ok a =>
      constructor
      · intro h; exact ⟨a, rfl, h⟩
      · rintro ⟨a', ha, h⟩; cases ha; exact h

/-- A sequence fails with its first part, or with its second. -/
theorem bind_eq_error {x : Except ε α} {f : α → Except ε β} {e : ε} (h : x.bind f = .error e) :
    x = .error e ∨ ∃ a, x = .ok a ∧ f a = .error e := by
  cases x with
  | error e' =>
      cases h
      exact .inl rfl
  | ok a => exact .inr ⟨a, rfl, h⟩

end Outcome

end Relink
