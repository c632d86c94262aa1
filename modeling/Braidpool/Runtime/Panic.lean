/-! Computations that return or panic. -/
namespace Braidpool.Runtime

structure Panic where
  message : String
  deriving DecidableEq, Repr

/-- A computation that returns a value or unwinds with a panic. -/
abbrev MayPanic (α : Type _) := Except Panic α

theorem bind_eq_ok {ε α β : Type _} {x : Except ε α} {f : α → Except ε β} {b : β} :
    x >>= f = .ok b ↔ ∃ a, x = .ok a ∧ f a = .ok b := by
  cases x with
  | error e => exact ⟨fun h => (by cases h), fun ⟨_, h, _⟩ => (by cases h)⟩
  | ok a =>
    constructor
    · intro h
      exact ⟨a, rfl, h⟩
    · rintro ⟨a, h, hf⟩
      cases h
      exact hf

theorem bind_eq_error {ε α β : Type _} {x : Except ε α} {f : α → Except ε β} {e : ε} :
    x >>= f = .error e ↔ x = .error e ∨ ∃ a, x = .ok a ∧ f a = .error e := by
  cases x with
  | error d =>
    constructor
    · intro h
      cases h
      exact .inl rfl
    · rintro (h | ⟨a, h, -⟩) <;> cases h
      rfl
  | ok a =>
    constructor
    · intro h
      exact .inr ⟨a, rfl, h⟩
    · rintro (h | ⟨b, h, hf⟩)
      · cases h
      · cases h
        exact hf

theorem mapError_eq_ok {ε δ α : Type _} {x : Except ε α} {f : ε → δ} {a : α} :
    x.mapError f = .ok a ↔ x = .ok a := by
  cases x with
  | error e => exact ⟨fun h => (by cases h), fun h => (by cases h)⟩
  | ok b => exact ⟨fun h => (by cases h; rfl), fun h => (by cases h; rfl)⟩

theorem mapError_eq_error {ε δ α : Type _} {x : Except ε α} {f : ε → δ} {d : δ} :
    x.mapError f = .error d ↔ ∃ e, x = .error e ∧ f e = d := by
  cases x with
  | error e => exact ⟨fun h => ⟨e, rfl, Except.error.inj h⟩, fun ⟨_, h, hf⟩ => (by cases h; exact congrArg Except.error hf)⟩
  | ok a => exact ⟨fun h => (by cases h), fun ⟨_, h, _⟩ => (by cases h)⟩

theorem toOption_eq_some {ε α : Type _} {x : Except ε α} {a : α} : x.toOption = some a ↔ x = .ok a := by
  cases x with
  | error e => exact ⟨fun h => (by cases h), fun h => (by cases h)⟩
  | ok b => exact ⟨fun h => congrArg Except.ok (Option.some.inj h), fun h => congrArg some (Except.ok.inj h)⟩

namespace MayPanic

def unwrap {α : Type _} : Option α → MayPanic α
  | some a => .ok a
  | none => .error ⟨"called `Option::unwrap()` on a `None` value"⟩

theorem unwrap_eq_ok {α : Type _} {x : Option α} {a : α} : unwrap x = .ok a ↔ x = some a := by
  cases x with
  | none => exact ⟨fun h => (by cases h), fun h => (by cases h)⟩
  | some b => exact ⟨fun h => congrArg some (Except.ok.inj h), fun h => congrArg Except.ok (Option.some.inj h)⟩

/-- The element of a vector, which panics out of range. -/
def index {α : Type _} (xs : List α) (i : Nat) : MayPanic α :=
  match xs[i]? with
  | some a => .ok a
  | none => .error ⟨"index out of bounds"⟩

theorem index_eq_ok {α : Type _} {xs : List α} {i : Nat} {a : α} :
    index xs i = .ok a ↔ xs[i]? = some a := by
  unfold index
  split
  · rename_i h
    rw [h]
    exact ⟨fun e => (by cases e; rfl), fun e => (by cases e; rfl)⟩
  · rename_i h
    rw [h]
    exact ⟨fun e => (by cases e), fun e => (by cases e)⟩

end MayPanic

end Braidpool.Runtime
