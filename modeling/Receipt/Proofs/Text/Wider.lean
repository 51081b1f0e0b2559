/-
A wider column never needs more lines.

Two widths break the same words at places that have nothing to do with each other, and what
is left of a word that is cut is longer now here and now there.  But what comes next depends
on two numbers only: how many lines are completed, and how many characters stand on the line
that goes on.  They are the place of a pen, and one word more moves the pen on.

At the greater width the pen is not ahead in the order of reading: it is on an earlier line,
or on the same one and no further to the right.  One word of any length keeps that.  If both
pens leave their lines for it, the pieces that fill a line are no more at the greater width,
and where they are as many, they take more of the word and leave less of it.  If only the pen
at the greater width leaves its line, it was a whole line behind.  So it is not ahead behind
the last word either, and the lines are those that a pen has been on.
-/
import Mathlib.Algebra.Order.BigOperators.Group.List
import Mathlib.Algebra.Order.Group.Nat
import Receipt.Proofs.Text.Greedy

namespace Receipt.Text

/-- Where the next word goes: behind so many lines, and so many characters of a line. -/
structure Pen where
  line : Nat
  column : Nat

namespace Pen

/-- The first line with nothing on it. -/
def nextLine (p : Pen) : Nat :=
  if p.column = 0 then p.line else p.line + 1

/-- The pen behind a word of `n` characters more: on the line if there is room, and else on
lines of its own. -/
def write (width : Nat) (p : Pen) (n : Nat) : Pen :=
  if 0 < p.column ∧ p.column + 1 + n ≤ width then ⟨p.line, p.column + 1 + n⟩
  else ⟨p.nextLine + (n - 1) / width, (n - 1) % width + 1⟩

/-- The order of reading: by lines, and on a line from left to right. -/
def NotAhead (p q : Pen) : Prop :=
  p.line < q.line ∨ p.line = q.line ∧ p.column ≤ q.column

theorem NotAhead.refl (p : Pen) : NotAhead p p :=
  Or.inr ⟨rfl, Nat.le_refl p.column⟩

end Pen

/-! ### The pen while lines are filled -/

section

variable {width : Nat} (hwidth : 0 < width)

include hwidth

/-- A word fills a line for every `width` characters, but not with its last one. -/
theorem length_breakWord {word : List Char} (hword : word ≠ []) :
    (breakWord width word).1.length = (word.length - 1) / width ∧
      (breakWord width word).2.length = (word.length - 1) % width + 1 := by
  induction word using breakWord.induct width with
  | case1 word hlong full last hrest ih =>
      rw [breakWord, dif_pos hlong, hrest]
      rw [hrest] at ih
      obtain ⟨hfull, hlast⟩ := ih (by rw [Ne, List.drop_eq_nil_iff]; omega)
      rw [List.length_drop] at hfull hlast
      have hlength : word.length - 1 = word.length - width - 1 + width := by omega
      rw [hlength, Nat.add_div_right _ hwidth, Nat.add_mod_right]
      exact ⟨congrArg (· + 1) hfull, hlast⟩
  | case2 word hshort =>
      have hpos : 0 < word.length := List.length_pos_iff.mpr hword
      have hless : word.length - 1 < width := by omega
      rw [breakWord, dif_neg hshort, Nat.div_eq_of_lt hless, Nat.mod_eq_of_lt hless]
      exact ⟨rfl, (Nat.sub_add_cancel hpos).symm⟩

/-- **One word more moves the pen** past the lines that it completes, to where it ends. -/
theorem write_addWord (done : Nat) (line : List Char) {word : List Char} (hword : word ≠ []) :
    Pen.write width ⟨done, line.length⟩ word.length
      = ⟨done + (addWord width line word).1.length, (addWord width line word).2.length⟩ := by
  unfold Pen.write
  by_cases hfits : 0 < line.length ∧ line.length + 1 + word.length ≤ width
  · obtain ⟨hline, hroom⟩ := hfits
    rw [if_pos ⟨hline, hroom⟩, addWord_of_fits (List.length_pos_iff.mp hline) hroom,
      List.length_append, List.length_cons, Nat.add_assoc, Nat.add_comm 1]
    rfl
  · obtain ⟨hfull, hlast⟩ := length_breakWord hwidth hword
    have hbreaks : line = [] ∨ width < line.length + 1 + word.length := by
      rcases Nat.eq_zero_or_pos line.length with hnone | hline
      · exact Or.inl (List.length_eq_zero_iff.mp hnone)
      · exact Or.inr (Nat.lt_of_not_le fun hroom => hfits ⟨hline, hroom⟩)
    rw [if_neg hfits, addWord_of_not_fits hbreaks]
    cases line with
    | nil => simp [Pen.nextLine, hfull, hlast]
    | cons c line => simp [Pen.nextLine, hfull, hlast, Nat.add_assoc, Nat.add_comm 1]

/-- **The lines are those that the pen has been on.** -/
theorem length_fill {ws : List (List Char)} (hws : ∀ w ∈ ws, w ≠ []) (done : Nat)
    (line : List Char) :
    done + (fill width line ws).length
      = ((ws.map List.length).foldl (Pen.write width) ⟨done, line.length⟩).line + 1 := by
  induction ws generalizing done line with
  | nil => rfl
  | cons word ws ih =>
      rw [fill, List.map_cons, List.foldl_cons, write_addWord hwidth done line (hws word (by simp)),
        List.length_append, ← Nat.add_assoc]
      exact ih (fun w hw => hws w (by simp [hw])) _ _

end

/-! ### Two widths -/

namespace Pen

variable {width width' : Nat}

theorem NotAhead.nextLine_le {p q : Pen} (h : NotAhead p q) : p.nextLine ≤ q.nextLine := by
  unfold NotAhead at h
  unfold nextLine
  split <;> split <;> omega

/-- A word that is cut at the greater width fills no more lines, and if it fills as many, it
leaves no more for the last one. -/
theorem notAhead_cut (hwidth : 0 < width) (hwider : width ≤ width') {line line' : Nat}
    (hline : line' ≤ line) (n : Nat) :
    NotAhead ⟨line' + n / width', n % width' + 1⟩ ⟨line + n / width, n % width + 1⟩ := by
  have hfull : n / width' ≤ n / width := Nat.div_le_div_left hwider hwidth
  by_cases hsame : line' + n / width' = line + n / width
  · have hpieces : n / width' = n / width := by omega
    have htaken : width * (n / width) ≤ width' * (n / width') :=
      hpieces ▸ Nat.mul_le_mul_right _ hwider
    have hleft := Nat.div_add_mod n width
    have hleft' := Nat.div_add_mod n width'
    exact Or.inr ⟨hsame, by dsimp only; omega⟩
  · exact Or.inl (by dsimp only; omega)

/-- **One word more keeps the pen at the greater width from being ahead.** -/
theorem NotAhead.write (hwidth : 0 < width) (hwider : width ≤ width') {p q : Pen}
    (h : NotAhead p q) (n : Nat) : NotAhead (p.write width' n) (q.write width n) := by
  unfold Pen.write
  have hnext := h.nextLine_le
  unfold NotAhead at h
  by_cases hq : 0 < q.column ∧ q.column + 1 + n ≤ width
  · rw [if_pos hq]
    by_cases hp : 0 < p.column ∧ p.column + 1 + n ≤ width'
    · rw [if_pos hp]
      exact h.imp_right fun ⟨hline, hcolumn⟩ => ⟨hline, by dsimp only; omega⟩
    · -- No room at the greater width, but some at the smaller one: this pen stands further to the
      -- right, so it is on an earlier line, unless there is nothing on its line yet.
      have hless : n - 1 < width' := by omega
      have hline : p.nextLine ≤ q.line := by
        unfold nextLine
        split <;> omega
      rw [if_neg hp, Nat.div_eq_of_lt hless, Nat.mod_eq_of_lt hless]
      rcases Nat.lt_or_eq_of_le hline with hbefore | hsame
      · exact Or.inl hbefore
      · exact Or.inr ⟨hsame, by dsimp only; omega⟩
  · rw [if_neg hq]
    by_cases hp : 0 < p.column ∧ p.column + 1 + n ≤ width'
    · rw [if_pos hp]
      have hline : p.line < q.nextLine := by
        unfold nextLine
        split <;> omega
      exact Or.inl (Nat.lt_of_lt_of_le hline (Nat.le_add_right _ _))
    · rw [if_neg hp]
      exact notAhead_cut hwidth hwider hnext (n - 1)

/-- **No words bring it ahead.** -/
theorem NotAhead.writeAll (hwidth : 0 < width) (hwider : width ≤ width') {p q : Pen}
    (h : NotAhead p q) (ns : List Nat) :
    NotAhead (ns.foldl (Pen.write width') p) (ns.foldl (Pen.write width) q) := by
  induction ns generalizing p q with
  | nil => exact h
  | cons n ns ih => exact ih (h.write hwidth hwider n)

end Pen

theorem length_wrapParagraph_le {width width' : Nat} (hwidth : 0 < width)
    (hwider : width ≤ width') (cs : List Char) :
    (wrapParagraph width' cs).length ≤ (wrapParagraph width cs).length := by
  have hws : ∀ w ∈ words cs, w ≠ [] := fun w hw => ne_nil_of_mem_words hw
  have hlines := length_fill hwidth hws 0 []
  have hlines' := length_fill (Nat.lt_of_lt_of_le hwidth hwider) hws 0 []
  have hpens := (Pen.NotAhead.refl ⟨0, 0⟩).writeAll hwidth hwider ((words cs).map List.length)
  unfold Pen.NotAhead at hpens
  unfold wrapParagraph
  simp only [List.length_nil] at hlines hlines'
  omega

/-- **A wider column never needs more lines**, for no text: words of any length, also those that
are cut at one of the widths or at both. -/
theorem wrap_length_antitone (s : String) {width width' : Nat} (hwidth : 1 ≤ width)
    (hwider : width ≤ width') : (wrap s width').length ≤ (wrap s width).length := by
  unfold wrap wrapChars
  rw [if_neg (by omega), if_neg (by omega), List.length_map, List.length_map,
    List.length_flatMap, List.length_flatMap]
  exact List.sum_le_sum fun paragraph _ => length_wrapParagraph_le hwidth hwider paragraph

/-- The long word is cut at both widths, and leaves two letters more at the greater one. -/
theorem wrap_length_antitone_cut :
    1 ≤ 5 ∧ 5 ≤ 8 ∧
    wrap "abcdefghijklm no pq" 5 = ["abcde", "fghij", "klm", "no pq"] ∧
    wrap "abcdefghijklm no pq" 8 = ["abcdefgh", "ijklm no", "pq"] ∧
    (wrap "abcdefghijklm no pq" 8).length ≤ (wrap "abcdefghijklm no pq" 5).length :=
  ⟨by decide, by decide, by decide +kernel, by decide +kernel,
    wrap_length_antitone "abcdefghijklm no pq" (by decide) (by decide)⟩

end Receipt.Text
