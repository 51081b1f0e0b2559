/-
Columns share out exactly the width there is.

Two passes go over the columns of a row.  The first grants what columns ask for, to one
after the other, and keeps count of what is left.  The second gives equal shares of that to
the columns that ask for nothing, and what does not divide to the last of them.  Each pass
is described column by column, by what it finds at a position; the count that the first
keeps is the room less what has been granted before.  The sums follow from the whole that
granted and left always make.
-/
import Receipt.Proofs.Row.Layout

namespace Receipt

/-! ### What is granted -/

/-- **A column is granted what it asks for, or else what is left by those before it.** -/
theorem getElem?_grantWidths (available : Nat) (widths : List (Option Nat)) (i : Nat) :
    (grantWidths available widths).1[i]? = widths[i]?.map fun w =>
      w.map fun w => min w (available - askedWidth ((grantWidths available widths).1.take i)) := by
  induction widths generalizing available i with
  | nil => rfl
  | cons w rest ih =>
      cases w with
      | none =>
          cases i with
          | zero => rfl
          | succ i =>
              show (grantWidths available rest).1[i]? = _
              rw [ih available i]
              simp [grantWidths, askedWidth]
      | some w =>
          cases i with
          | zero => simp [grantWidths, askedWidth]
          | succ i =>
              show (grantWidths (available - min w available) rest).1[i]? = _
              rw [ih (available - min w available) i]
              simp [grantWidths, askedWidth, Nat.sub_sub]

/-- The columns that ask for nothing stay as they are. -/
theorem map_isNone_grantWidths (available : Nat) (widths : List (Option Nat)) :
    (grantWidths available widths).1.map Option.isNone = widths.map Option.isNone := by
  refine List.ext_getElem? fun i => ?_
  rw [List.getElem?_map, List.getElem?_map, getElem?_grantWidths]
  cases widths[i]? with
  | none => rfl
  | some w => cases w <;> rfl

theorem autoCount_drop_grantWidths (available : Nat) (widths : List (Option Nat)) (i : Nat) :
    autoCount ((grantWidths available widths).1.drop i) = autoCount (widths.drop i) := by
  have hcount (l : List (Option Nat)) : autoCount l = (l.map Option.isNone).countP id := by
    rw [List.countP_map]
    rfl
  rw [hcount, hcount, List.map_drop, List.map_drop, map_isNone_grantWidths]

/-- Together columns are granted what they ask for, or all there is. -/
theorem askedWidth_grantWidths_eq (available : Nat) (widths : List (Option Nat)) :
    askedWidth (grantWidths available widths).1 = min available (askedWidth widths) := by
  induction widths generalizing available with
  | nil => simp [grantWidths, askedWidth]
  | cons w rest ih =>
      cases w with
      | none =>
          have h := ih available
          simp only [grantWidths, askedWidth, List.map_cons, List.sum_cons, Option.getD_none] at h ⊢
          omega
      | some w =>
          have h := ih (available - min w available)
          simp only [grantWidths, askedWidth, List.map_cons, List.sum_cons, Option.getD_some] at h ⊢
          omega

/-- The first columns are granted the same whatever columns follow. -/
theorem take_grantWidths (available : Nat) (widths : List (Option Nat)) (i : Nat) :
    (grantWidths available widths).1.take i = (grantWidths available (widths.take i)).1 := by
  induction widths generalizing available i with
  | nil => simp [grantWidths]
  | cons w rest ih =>
      cases i with
      | zero => rfl
      | succ i =>
          cases w with
          | none =>
              show none :: (grantWidths available rest).1.take i = _
              rw [ih available i]
              rfl
          | some w =>
              show some (min w available) ::
                (grantWidths (available - min w available) rest).1.take i = _
              rw [ih (available - min w available) i]
              rfl

/-! ### What is shared -/

/-- **A column that asks for nothing gets a share, and the last of them what is over.** -/
theorem getElem?_shareWidths (share extra : Nat) (widths : List (Option Nat)) (i : Nat) :
    (shareWidths share extra (autoCount widths) widths)[i]? = widths[i]?.map fun w =>
      w.getD (if autoCount (widths.drop (i + 1)) = 0 then share + extra else share) := by
  induction widths generalizing i with
  | nil => rfl
  | cons w rest ih =>
      cases w with
      | some w =>
          have hcount : autoCount (some w :: rest) = autoCount rest := by simp [autoCount]
          rw [hcount, shareWidths]
          cases i with
          | zero => rfl
          | succ i => exact ih i
      | none =>
          have hcount : autoCount (none :: rest) = autoCount rest + 1 := by simp [autoCount]
          rw [hcount, shareWidths, Nat.add_sub_cancel]
          cases i with
          | zero => simp
          | succ i => exact ih i

theorem length_shareWidths (share extra autos : Nat) (widths : List (Option Nat)) :
    (shareWidths share extra autos widths).length = widths.length := by
  induction widths generalizing autos with
  | nil => rfl
  | cons w rest ih => cases w <;> simp [shareWidths, ih]

/-! ### What each column gets -/

/-- What the columns that ask for a width get, for each of them; the others count for
nothing. -/
def explicitShares (explicit : List (Option Nat)) (widths : List Nat) : List Nat :=
  List.zipWith (fun asked width => if asked.isSome then width else 0) explicit widths

/-- What the columns before number `i` get that ask for a width. -/
def takenBefore (explicit : List (Option Nat)) (widths : List Nat) (i : Nat) : Nat :=
  ((explicitShares explicit widths).take i).sum

/-- What is left once all columns that ask for a width have theirs. -/
def leftover (explicit : List (Option Nat)) (available : Nat) : Nat :=
  (grantWidths available explicit).2

/-- What it is for widths to be the available width shared out to columns. -/
structure SharedOut (explicit : List (Option Nat)) (available : Nat) (widths : List Nat) :
    Prop where
  length : widths.length = explicit.length
  /-- At each column, what has been taken and the count of what is left make the whole, so
  the count never is short of what is taken from it. -/
  counted : ∀ i, takenBefore explicit widths i + leftover (explicit.take i) available = available
  /-- A column that asks for a width gets it, as far as those before it leave so much. -/
  asked : ∀ i w, explicit[i]? = some (some w) →
    widths[i]? = some (min w (available - takenBefore explicit widths i))
  /-- The others get equal shares, and the last of them what does not divide. -/
  shared : 0 < autoCount explicit → ∃ share extra, extra < autoCount explicit ∧
    ∀ i, explicit[i]? = some none →
      widths[i]? = some (if autoCount (explicit.drop (i + 1)) = 0 then share + extra else share)
  within : widths.sum ≤ available
  whole : 0 < autoCount explicit → widths.sum = available
  asFar : autoCount explicit = 0 → widths.sum = min available (askedWidth explicit)

section

variable (explicit : List (Option Nat)) (available : Nat)

theorem length_columnWidths : (columnWidths explicit available).length = explicit.length := by
  have hgranted := congrArg List.length (map_isNone_grantWidths available explicit)
  rw [List.length_map, List.length_map] at hgranted
  unfold columnWidths
  dsimp only
  rw [length_shareWidths, hgranted]

theorem getElem?_columnWidths (i : Nat) :
    (columnWidths explicit available)[i]? = (grantWidths available explicit).1[i]?.map fun w =>
      w.getD (if autoCount (explicit.drop (i + 1)) = 0 then
          leftover explicit available / autoCount explicit
            + leftover explicit available % autoCount explicit
        else leftover explicit available / autoCount explicit) := by
  have hcount : autoCount (grantWidths available explicit).1 = autoCount explicit :=
    autoCount_drop_grantWidths available explicit 0
  unfold columnWidths
  dsimp only
  rw [getElem?_shareWidths, hcount, autoCount_drop_grantWidths]
  rfl

theorem explicitShares_columnWidths :
    explicitShares explicit (columnWidths explicit available)
      = (grantWidths available explicit).1.map fun w => w.getD 0 := by
  refine List.ext_getElem? fun i => ?_
  unfold explicitShares
  rw [List.getElem?_zipWith, getElem?_columnWidths, List.getElem?_map, getElem?_grantWidths]
  cases explicit[i]? with
  | none => rfl
  | some w => cases w <;> rfl

theorem takenBefore_columnWidths (i : Nat) :
    takenBefore explicit (columnWidths explicit available) i
      = askedWidth (grantWidths available (explicit.take i)).1 := by
  unfold takenBefore askedWidth
  rw [explicitShares_columnWidths, ← List.map_take, take_grantWidths]

/-- What the first columns get and the count of what is left by them make the whole. -/
theorem takenBefore_add_leftover (i : Nat) :
    takenBefore explicit (columnWidths explicit available) i
      + leftover (explicit.take i) available = available := by
  rw [takenBefore_columnWidths]
  exact askedWidth_grantWidths available (explicit.take i)

theorem sum_columnWidths :
    (columnWidths explicit available).sum
      = if autoCount explicit = 0 then min available (askedWidth explicit) else available := by
  have hcount : autoCount (grantWidths available explicit).1 = autoCount explicit :=
    autoCount_drop_grantWidths available explicit 0
  have hwhole := askedWidth_grantWidths available explicit
  have hgranted := askedWidth_grantWidths_eq available explicit
  have hshares := Nat.div_add_mod (grantWidths available explicit).2 (autoCount explicit)
  unfold columnWidths
  dsimp only
  rw [sum_shareWidths, hcount]
  by_cases hautos : autoCount explicit = 0
  · rw [if_pos hautos, if_pos hautos, hautos]
    omega
  · rw [if_neg hautos, if_neg hautos]
    omega

/-- **Columns share out exactly the width there is.** -/
theorem columnWidths_share_out : SharedOut explicit available (columnWidths explicit available) where
  length := length_columnWidths explicit available
  counted := takenBefore_add_leftover explicit available
  asked := by
    intro i w hw
    rw [takenBefore_columnWidths, getElem?_columnWidths, getElem?_grantWidths, hw,
      take_grantWidths]
    rfl
  shared := by
    intro hautos
    refine ⟨leftover explicit available / autoCount explicit,
      leftover explicit available % autoCount explicit, Nat.mod_lt _ hautos, fun i hi => ?_⟩
    rw [getElem?_columnWidths, getElem?_grantWidths, hi]
    rfl
  within := sum_columnWidths_le explicit available
  whole := by
    intro hautos
    rw [sum_columnWidths, if_neg (by omega)]
  asFar := by
    intro hautos
    rw [sum_columnWidths, if_pos hautos]

end

end Receipt
