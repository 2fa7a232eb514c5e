import CInterop.Binding.Declaration
import CInterop.Diagnostic
import CInterop.Failure

/-!
# Outcomes of mapping one thing

Mapping a type or a declaration has a result and, on the way to it, events: things to report and
helpers to declare. The events do not influence the result, and they stand whether the result is
reached or not, so an outcome is simply the list of events beside the result.
-/

namespace CInterop.Mapping

/-- Something that happens on the way to a result. -/
inductive Event where
  | report (diagnostic : Diagnostic)
  /-- A report that is made once for a name, whatever it says. -/
  | reportOnce (name : String) (diagnostic : Diagnostic)
  /-- A helper that is declared unless there is one of that name already. -/
  | helper (declaration : Binding.Declaration)
deriving DecidableEq, Repr

/-- Why there is no result. -/
inductive Stop where
  /-- A name that is not a type of the tree; the declaration that led to it is left out. -/
  | dangling (type : String)
  /-- The end of the whole run. -/
  | failed (failure : Failure)
deriving DecidableEq, Repr

/-- A result with the events on the way to it. -/
structure Outcome (α : Type) where
  events : List Event
  result : Except Stop α

namespace Outcome

variable {α β : Type}

protected def pure (a : α) : Outcome α := ⟨[], .ok a⟩

/-- One thing after the other; after a stop there is nothing more. -/
protected def bind (x : Outcome α) (f : α → Outcome β) : Outcome β :=
  match x.result with
  | .error stop => ⟨x.events, .error stop⟩
  | .ok a => ⟨x.events ++ (f a).events, (f a).result⟩

instance : Monad Outcome where
  pure := Outcome.pure
  bind := Outcome.bind

/-- A single event. -/
def emit (event : Event) : Outcome Unit := ⟨[event], .ok ()⟩

/-- A stop without an event. -/
def stop (reason : Stop) : Outcome α := ⟨[], .error reason⟩

/-- A result that comes without events. -/
def ofExcept (x : Except Stop α) : Outcome α := ⟨[], x⟩

@[simp] theorem pure_eq (a : α) : (pure a : Outcome α) = ⟨[], .ok a⟩ := rfl

@[simp] theorem bind_ok (events : List Event) (a : α) (f : α → Outcome β) :
    (⟨events, .ok a⟩ : Outcome α) >>= f = ⟨events ++ (f a).events, (f a).result⟩ := rfl

@[simp] theorem bind_error (events : List Event) (reason : Stop) (f : α → Outcome β) :
    (⟨events, .error reason⟩ : Outcome α) >>= f = ⟨events, .error reason⟩ := rfl

end Outcome
end CInterop.Mapping
