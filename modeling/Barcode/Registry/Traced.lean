import Barcode.Fault.Basic
import Barcode.Registry.Event

/-!
# Traced answers

The outcome of an operation together with the events on the way to it. A fault ends the
operation and keeps the events before it. Operations compose lawfully, so neither the events
nor the outcome depend on how an operation is divided into steps.
-/

namespace Barcode

/-- An outcome with the events before it, in order. -/
structure Traced (α : Type) where
  events : List Event
  outcome : Except Fault α

namespace Traced

variable {α β : Type}

def ok (a : α) : Traced α := ⟨[], .ok a⟩

def ofExcept (outcome : Except Fault α) : Traced α := ⟨[], outcome⟩

def emit (event : Event) : Traced Unit := ⟨[event], .ok ()⟩

def andThen (x : Traced α) (next : α → Traced β) : Traced β :=
  match x.outcome with
  | .ok a => ⟨x.events ++ (next a).events, (next a).outcome⟩
  | .error fault => ⟨x.events, .error fault⟩

instance : Monad Traced where
  pure := ok
  bind := andThen

@[simp] theorem outcome_ofExcept (outcome : Except Fault α) :
    (ofExcept outcome).outcome = outcome := rfl

/-- Without the events, operations follow each other as their outcomes do. -/
@[simp] theorem outcome_bind (x : Traced α) (next : α → Traced β) :
    (x >>= next).outcome = x.outcome >>= fun a => (next a).outcome := by
  obtain ⟨events, outcome⟩ := x
  cases outcome <;> rfl

theorem ok_andThen (a : α) (next : α → Traced β) : (ok a).andThen next = next a := by
  simp [ok, andThen]

theorem andThen_ok (x : Traced α) : x.andThen ok = x := by
  obtain ⟨events, outcome⟩ := x
  cases outcome <;> simp [ok, andThen]

theorem andThen_andThen {γ : Type} (x : Traced α) (f : α → Traced β) (g : β → Traced γ) :
    (x.andThen f).andThen g = x.andThen fun a => (f a).andThen g := by
  obtain ⟨events, outcome⟩ := x
  cases outcome with
  | error fault => rfl
  | ok a =>
    simp only [andThen]
    cases (f a).outcome <;> simp [List.append_assoc]

instance : LawfulMonad Traced := LawfulMonad.mk' Traced andThen_ok ok_andThen andThen_andThen

theorem outcome_mapM (f : α → Traced β) (l : List α) :
    (l.mapM f).outcome = l.mapM fun a => (f a).outcome := by
  induction l with
  | nil => rfl
  | cons a l ih =>
    rw [List.mapM_cons, List.mapM_cons, outcome_bind]
    congr 1
    funext b
    rw [outcome_bind, ih]
    rfl

end Traced

end Barcode
