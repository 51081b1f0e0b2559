/-
A value that is there already is read as it is.

Nothing is broken in the reading of a value, so a shape that takes any value gives the value
back, at every depth.  And what a shape makes of a value shows what the value was: a text was
read from a text, and a dictionary from an object.
-/
import Receipt.Json.Shape
import Receipt.Proofs.Steps

namespace Receipt.Json

/-! ### Values of any shape -/

mutual

/-- **A value read as any value is that value.** -/
theorem any_reading (v : Json) : v.reading.any .value = .ok v := by
  cases v with
  | null => rw [reading, Reading.any]
  | bool b => rw [reading, Reading.any]
  | number n => rw [reading, Reading.any]; rfl
  | string s => rw [reading, Reading.any]; rfl
  | array items =>
      rw [reading, Reading.any]
      show (Items.any .value (readingItems items) >>= fun items => .ok (Json.array items)) = _
      rw [any_readingItems items]
      rfl
  | object members =>
      rw [reading, Reading.any]
      show (Members.any .value (readingMembers members) >>= fun l => .ok (Json.object l)) = _
      rw [any_readingMembers members]
      rfl

theorem any_readingItems (items : List Json) : (readingItems items).any .value = .ok items := by
  match items with
  | [] => rw [readingItems, Items.any]
  | first :: rest =>
      rw [readingItems, Items.any, any_reading first, any_readingItems rest]
      rfl

theorem any_readingMembers (members : List (String × Json)) :
    (readingMembers members).any .value = .ok members := by
  match members with
  | [] => rw [readingMembers, Members.any]
  | (key, value) :: rest =>
      rw [readingMembers, Members.any, any_reading value, any_readingMembers rest]
      rfl

end

mutual

/-- Nothing is wrong with a value that is passed over. -/
theorem skip_reading (v : Json) : v.reading.skip = .ok () := by
  cases v with
  | array items =>
      rw [reading, Reading.skip]
      exact skip_readingItems items
  | object members =>
      rw [reading, Reading.skip]
      exact skip_readingMembers members
  | _ =>
      rw [reading, Reading.skip]
      all_goals simp

theorem skip_readingItems (items : List Json) : (readingItems items).skip = .ok () := by
  match items with
  | [] => rw [readingItems, Items.skip]
  | first :: rest =>
      rw [readingItems, Items.skip, skip_reading first, skip_readingItems rest]
      rfl

theorem skip_readingMembers (members : List (String × Json)) :
    (readingMembers members).skip = .ok () := by
  match members with
  | [] => rw [readingMembers, Members.skip]
  | (key, value) :: rest =>
      rw [readingMembers, Members.skip, skip_reading value, skip_readingMembers rest]
      rfl

end

/-! ### Dictionaries and texts -/

theorem asDict_reading_object (members : List (String × Json)) :
    (Json.object members).reading.asDict .value = .ok (Dict.ofList members) := by
  rw [reading]
  show (Members.any .value (readingMembers members) >>= fun l => .ok (Dict.ofList l)) = _
  rw [any_readingMembers]
  rfl

theorem mismatch_ne_ok {α : Type} (r : Reading) (expected : String) (a : α) :
    r.mismatch expected ≠ .ok a := by
  intro h
  obtain ⟨found, -, hthrow⟩ := bind_eq_ok h
  exact nomatch hthrow

theorem eq_object_of_asDict {v : Json} {d : Dict Json} (h : v.reading.asDict .value = .ok d) :
    ∃ members, v = .object members ∧ d = Dict.ofList members := by
  cases v with
  | object members =>
      rw [asDict_reading_object] at h
      exact ⟨members, rfl, (Except.ok.inj h).symm⟩
  | _ =>
      rw [reading] at h
      exact absurd h (mismatch_ne_ok _ _ _)

theorem eq_string_of_asString {v : Json} {s : String} (h : v.reading.asString = .ok s) :
    v = .string s := by
  cases v with
  | string t =>
      rw [reading] at h
      exact congrArg Json.string (Except.ok.inj h)
  | _ =>
      rw [reading] at h
      exact absurd h (mismatch_ne_ok _ _ _)

end Receipt.Json
