/-
The items of a list, each once, in the order in which they first come.

`FirstsOf` says so without saying how they are found.  Both ways to find them, to drop
repetitions from a finished list and to add what is new to a growing one, are a matter
of what one more item does: nothing if it has come before, and otherwise it goes to the
end.
-/
import Mathlib.Data.List.Induction
import Mathlib.Data.List.Nodup

namespace Receipt

/-- The items of `all`, each once, in the order in which they first come. -/
structure FirstsOf {α : Type} [DecidableEq α] (firsts all : List α) : Prop where
  mem_iff : ∀ a, a ∈ firsts ↔ a ∈ all
  /-- An item stands before another if it comes up before it does. -/
  ordered : firsts.Pairwise fun a b => all.idxOf a < all.idxOf b

namespace FirstsOf

variable {α : Type} [DecidableEq α] {firsts all : List α} {a : α}

theorem nil : FirstsOf ([] : List α) [] :=
  ⟨fun _ => Iff.rfl, List.Pairwise.nil⟩

theorem nodup (h : FirstsOf firsts all) : firsts.Nodup := by
  refine h.ordered.imp ?_
  intro a b hlt
  rintro rfl
  exact Nat.lt_irrefl _ hlt

/-- Where an item first comes does not change when more come after it. -/
theorem ordered_append (h : FirstsOf firsts all) (more : List α) :
    firsts.Pairwise fun a b => (all ++ more).idxOf a < (all ++ more).idxOf b := by
  refine h.ordered.imp_of_mem ?_
  intro a b ha hb hlt
  rw [List.idxOf_append_of_mem ((h.mem_iff a).mp ha),
    List.idxOf_append_of_mem ((h.mem_iff b).mp hb)]
  exact hlt

/-- What has come before adds nothing. -/
theorem concat_of_mem (h : FirstsOf firsts all) (ha : a ∈ all) : FirstsOf firsts (all ++ [a]) where
  mem_iff b := by
    rw [h.mem_iff, List.mem_append, List.mem_singleton]
    constructor
    · exact Or.inl
    · rintro (hb | rfl)
      · exact hb
      · exact ha
  ordered := h.ordered_append [a]

/-- What is new goes to the end. -/
theorem concat_of_not_mem (h : FirstsOf firsts all) (ha : a ∉ all) :
    FirstsOf (firsts ++ [a]) (all ++ [a]) where
  mem_iff b := by rw [List.mem_append, List.mem_append, h.mem_iff]
  ordered := by
    refine List.pairwise_append.mpr ⟨h.ordered_append [a], List.pairwise_singleton _ _, ?_⟩
    intro b hb c hc
    obtain rfl := List.mem_singleton.mp hc
    have hball := (h.mem_iff b).mp hb
    rw [List.idxOf_append_of_mem hball, List.idxOf_append_of_notMem ha]
    have hlt := List.idxOf_lt_length_iff.mpr hball
    omega

/-- **Dropping repetitions leaves the firsts.** -/
theorem eraseDups (all : List α) : FirstsOf all.eraseDups all := by
  induction all using List.reverseRecOn with
  | nil => exact nil
  | append_singleton all a ih =>
      rw [List.eraseDups_append]
      by_cases ha : a ∈ all
      · have hnone : [a].removeAll all = [] := by simp [List.removeAll, ha]
        rw [hnone, List.eraseDups_nil, List.append_nil]
        exact ih.concat_of_mem ha
      · have hnew : [a].removeAll all = [a] := by simp [List.removeAll, ha]
        rw [hnew, show [a].eraseDups = [a] from rfl]
        exact ih.concat_of_not_mem ha

end FirstsOf

end Receipt
