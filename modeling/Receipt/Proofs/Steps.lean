/-
Steps that may fail.

Where a result comes of several of them, each has succeeded, and the next one went on from there.
-/
namespace Receipt

/-- What comes of two steps comes of the second, behind the first. -/
theorem bind_eq_ok {ε α β : Type} {x : Except ε α} {f : α → Except ε β} {b : β}
    (h : x >>= f = .ok b) : ∃ a, x = .ok a ∧ f a = .ok b := by
  cases x with
  | error e => exact nomatch h
  | ok a => exact ⟨a, rfl, h⟩

end Receipt
