/-
Styles one over the other: the last word counts, and `null` is a word that takes away.

Laying one attribute over a style decides what is found under its name and under no other, so
a whole style decides about the names that it has, in whatever order these are gone through.
Styles are laid over one another from the left, and what is found in the end is what the last
of them with that name said.  A `null` is never left behind: it takes away what was there, and
where nothing was there it leaves nothing.

Since no `null` is left, a merged style laid over nothing is the same style again, and so it
may stand in the place of the styles that it was merged from, if they are the first ones.
Not further behind: there it would have lost what it took away.
-/
import Mathlib.Data.List.Induction
import Receipt.Document.Style
import Receipt.Proofs.Dict

namespace Receipt.Style

/-- What is found under a name once a style has said `word` about it, over what was there. -/
def laidOver (below word : Option Json) : Option Json :=
  match word with
  | none => below
  | some v => if v.isNull then none else some v

/-- What the last of the styles that have an attribute says about it. -/
def lastWord (styles : List Style) (key : String) : Option Json :=
  (styles.filterMap fun s => s.get? key).getLast?

/-- Where nothing was there, all words but `null` are found. -/
theorem laidOver_none (word : Option Json) :
    laidOver none word = word.filter fun v => !v.isNull := by
  cases word with
  | none => rfl
  | some v => cases v <;> rfl

theorem lastWord_concat (styles : List Style) (t : Style) (key : String) :
    lastWord (styles ++ [t]) key = (t.get? key).or (lastWord styles key) := by
  unfold lastWord
  rw [List.filterMap_append, List.getLast?_append]
  cases hword : t.get? key <;> simp [hword]

/-! ### One style over another -/

/-- An attribute decides about its own name and about no other. -/
theorem get?_overlayEntry (s : Style) (e : String × Json) (key : String) :
    (overlayEntry s e).get? key = if key = e.1 then laidOver none (some e.2) else s.get? key := by
  unfold overlayEntry laidOver
  by_cases hnull : e.2.isNull = true
  · simp only [if_pos hnull]
    exact Dict.get?_erase s e.1 key
  · simp only [if_neg hnull]
    exact Dict.get?_insert s e.1 e.2 key

/-- Attributes of different names decide about these names, one after the other. -/
theorem get?_foldl_overlayEntry (s : Style) {l : List (String × Json)}
    (hl : l.Pairwise fun a b => a.1 < b.1) (key : String) :
    (l.foldl overlayEntry s).get? key = laidOver (s.get? key) (l.lookup key) := by
  induction l generalizing s with
  | nil => rfl
  | cons e rest ih =>
      obtain ⟨first, hrest⟩ := List.pairwise_cons.mp hl
      rw [List.foldl_cons, ih (overlayEntry s e) hrest, get?_overlayEntry, Dict.lookup_cons_eq_ite]
      by_cases hkey : key = e.1
      · -- No attribute further behind has this name.
        have hnone : rest.lookup key = none := by
          rw [List.lookup_eq_none_iff]
          intro a ha
          rw [bne_iff_ne]
          intro hsame
          exact String.lt_irrefl e.1 ((hkey.symm.trans hsame) ▸ first a ha)
        rw [if_pos hkey, if_pos hkey, hnone]
        rfl
      · rw [if_neg hkey, if_neg hkey]

/-- **A style laid over another decides about the names that it has.** -/
theorem get?_overlay (s t : Style) (key : String) :
    (overlay s t).get? key = laidOver (s.get? key) (t.get? key) :=
  get?_foldl_overlayEntry s t.sorted key

/-! ### Many styles -/

theorem merge_append (styles others : List Style) :
    merge (styles ++ others) = others.foldl overlay (merge styles) :=
  List.foldl_append

/-- **What is found is the last word**, unless that is `null`. -/
theorem get?_merge (styles : List Style) (key : String) :
    (merge styles).get? key = (lastWord styles key).filter fun v => !v.isNull := by
  induction styles using List.reverseRecOn with
  | nil => rfl
  | append_singleton styles t ih =>
      rw [merge_append, lastWord_concat]
      show (overlay (merge styles) t).get? key = _
      rw [get?_overlay, ih]
      cases t.get? key with
      | none => rfl
      | some v => exact laidOver_none (some v)

/-- No `null` is left. -/
theorem get?_merge_ne_null (styles : List Style) (key : String) :
    (merge styles).get? key ≠ some .null := by
  intro hnull
  rw [get?_merge, Option.filter_eq_some_iff] at hnull
  exact Bool.noConfusion hnull.2

/-- A merged style laid over nothing is the same style: it has nothing to take away. -/
theorem overlay_empty_merge (styles : List Style) :
    overlay .empty (merge styles) = merge styles := by
  refine Dict.ext_get? fun key => ?_
  rw [get?_overlay]
  show laidOver none ((merge styles).get? key) = _
  rw [laidOver_none, get?_merge, Option.filter_filter]
  simp

/-- **The last style with an attribute decides about it.**  If that style says `null`, or if no
style has the attribute, then the merged style does not have it, and it holds no `null`.  Merging
from the left in two steps is merging at once, and merging a merged style alone leaves it as it
is. -/
theorem merge_last_word (styles : List Style) :
    (∀ key, (merge styles).get? key = (lastWord styles key).filter fun v => !v.isNull) ∧
    (∀ key, (merge styles).get? key ≠ some .null) ∧
    (∀ others, merge (merge styles :: others) = merge (styles ++ others)) ∧
    merge [merge styles] = merge styles := by
  refine ⟨get?_merge styles, get?_merge_ne_null styles, fun others => ?_, ?_⟩
  · rw [merge_append]
    show others.foldl overlay (overlay .empty (merge styles)) = others.foldl overlay (merge styles)
    rw [overlay_empty_merge]
  · exact overlay_empty_merge styles

/-- Merged from the right in two steps, a style forgets what it should have taken away. -/
example :
    let small : Style := Dict.ofList [("fontSize", .number (.int 12))]
    let sizeless : Style := Dict.ofList [("fontSize", .null)]
    (merge [small, sizeless]).contains "fontSize" = false ∧
      (merge [small, merge [sizeless]]).contains "fontSize" = true := by
  decide

end Receipt.Style
