/-
Diffusion is a recurrence.

The loop pushes: each dot that is decided hands its error on to places that are still to
come.  What that amounts to is told from the other side, as what each place pulls from the
places around it.  Read exactly, the two are the same.

The invariant of the loop says so for the image in the middle of a scan: every place has its
own intensity and what it pulls from the errors before the place that is next.  One dot adds
its error to those, and all that a place ever pulls comes from before it, so nothing is
missing when it is decided.

A place depends on earlier ones only.  So there is one solution, and going through the
places in their order also bounds it: sixteen sixteenths of errors that are at most a half
move no intensity by more than a half.
-/
import Mathlib.Algebra.Order.Field.Rat
import Mathlib.Tactic.Linarith
import Mathlib.Tactic.NormNum
import Mathlib.Tactic.Ring
import Receipt.Proofs.Raster.Diffused

namespace Receipt

/-- Intensities without rounding. -/
instance : Intensity ℚ where
  add := (· + ·)
  sub := (· - ·)
  mul := (· * ·)
  ratio n d := n / d
  above a b := decide (b < a)

namespace Dither

theorem ratio_zero_one : (Intensity.ratio 0 1 : ℚ) = 0 := by
  show ((0 : ℕ) : ℚ) / ((1 : ℕ) : ℚ) = 0
  norm_num

theorem isDark_iff (v : ℚ) : isDark v = true ↔ 1 / 2 < v := by
  show decide (((1 : ℕ) : ℚ) / ((2 : ℕ) : ℚ) < v) = true ↔ 1 / 2 < v
  rw [decide_eq_true_iff]
  norm_num

/-! ### The recurrence -/

/-- What there is to know of all places: the intensity that has come together, whether the
dot is black, and what that gets wrong. -/
structure Field where
  value : ℤ → ℤ → ℚ
  dot : ℤ → ℤ → Bool
  error : ℤ → ℤ → ℚ

/-- Whether a place is inside the image. -/
def Inside (width height : Nat) (x y : ℤ) : Prop :=
  0 ≤ x ∧ x < width ∧ 0 ≤ y ∧ y < height

instance (width height : Nat) (x y : ℤ) : Decidable (Inside width height x y) :=
  inferInstanceAs (Decidable (_ ∧ _))

/-- The recurrence of diffusion.  A place pulls from the one to its left and from the three
above it, and there is nothing to pull from outside the image. -/
structure Diffuses (intensity : Array ℚ) (width height : Nat) (f : Field) : Prop where
  value : ∀ x y : ℕ, x < width → y < height →
    f.value x y = intensity.getD (y * width + x) 0 + 7 / 16 * f.error (x - 1) y
      + 1 / 16 * f.error (x - 1) (y - 1) + 5 / 16 * f.error x (y - 1)
      + 3 / 16 * f.error (x + 1) (y - 1)
  dot : ∀ x y, Inside width height x y → (f.dot x y = true ↔ 1 / 2 < f.value x y)
  error : ∀ x y, Inside width height x y →
    f.error x y = f.value x y - if f.dot x y then 1 else 0
  outside : ∀ x y, ¬Inside width height x y →
    f.value x y = 0 ∧ f.dot x y = false ∧ f.error x y = 0

/-- **What holds outside the image, and at a place if it does at all before it, holds
everywhere.** -/
theorem place_induction (width height : Nat) {P : ℤ → ℤ → Prop}
    (outside : ∀ x y, ¬Inside width height x y → P x y)
    (inside : ∀ x y : ℕ, x < width → y < height →
      (∀ p q : ℤ, q < y ∨ q = y ∧ p < x → P p q) → P x y) (x y : ℤ) : P x y := by
  have hrows : ∀ (y : ℕ) (x : ℤ), P x y := by
    intro y
    induction y using Nat.strong_induction_on with
    | _ y above =>
      have hline : ∀ x : ℕ, P x y := by
        intro x
        induction x using Nat.strong_induction_on with
        | _ x left =>
          by_cases hin : x < width ∧ y < height
          · refine inside x y hin.1 hin.2 fun p q hbefore => ?_
            by_cases hpq : Inside width height p q
            · obtain ⟨p, rfl⟩ := Int.eq_ofNat_of_zero_le hpq.1
              obtain ⟨q, rfl⟩ := Int.eq_ofNat_of_zero_le hpq.2.2.1
              rcases hbefore with hq | ⟨hq, hp⟩
              · exact above q (by omega) p
              · obtain rfl : q = y := by omega
                exact left p (by omega)
            · exact outside p q hpq
          · exact outside x y fun h => hin ⟨by have := h.2.1; omega, by have := h.2.2.2; omega⟩
      intro x
      by_cases hx : 0 ≤ x
      · obtain ⟨x, rfl⟩ := Int.eq_ofNat_of_zero_le hx
        exact hline x
      · exact outside x y fun h => hx h.1
  by_cases hy : 0 ≤ y
  · obtain ⟨y, rfl⟩ := Int.eq_ofNat_of_zero_le hy
    exact hrows y x
  · exact outside x y fun h => hy h.2.2.1

section

variable {intensity : Array ℚ} {width height : Nat}

/-- **The recurrence has one solution at most.** -/
theorem Diffuses.unique {f g : Field} (hf : Diffuses intensity width height f)
    (hg : Diffuses intensity width height g) : f = g := by
  have hplaces : ∀ x y : ℤ,
      f.value x y = g.value x y ∧ f.dot x y = g.dot x y ∧ f.error x y = g.error x y := by
    refine place_induction width height ?_ ?_
    · intro x y hout
      obtain ⟨hv, hd, he⟩ := hf.outside x y hout
      obtain ⟨hv', hd', he'⟩ := hg.outside x y hout
      exact ⟨hv.trans hv'.symm, hd.trans hd'.symm, he.trans he'.symm⟩
    · intro x y hx hy before
      have hin : Inside width height x y := ⟨by omega, by omega, by omega, by omega⟩
      have hvalue : f.value x y = g.value x y := by
        rw [hf.value x y hx hy, hg.value x y hx hy, (before (x - 1) y (by omega)).2.2,
          (before (x - 1) (y - 1) (by omega)).2.2, (before x (y - 1) (by omega)).2.2,
          (before (x + 1) (y - 1) (by omega)).2.2]
      have hdot : f.dot x y = g.dot x y := by
        rw [Bool.eq_iff_iff, hf.dot x y hin, hg.dot x y hin, hvalue]
      exact ⟨hvalue, hdot, by rw [hf.error x y hin, hg.error x y hin, hvalue, hdot]⟩
  have hvalue : f.value = g.value := funext₂ fun x y => (hplaces x y).1
  have hdot : f.dot = g.dot := funext₂ fun x y => (hplaces x y).2.1
  have herror : f.error = g.error := funext₂ fun x y => (hplaces x y).2.2
  cases f
  cases g
  rw [Field.mk.injEq]
  exact ⟨hvalue, hdot, herror⟩

/-- **Errors do not run away**: none is more than a half, and what comes together at a place
is at most a half beyond white or black. -/
theorem Diffuses.bounded {f : Field} (hf : Diffuses intensity width height f)
    (hrange : ∀ v ∈ intensity, 0 ≤ v ∧ v ≤ 1) (x y : ℤ) :
    (-1 / 2 ≤ f.value x y ∧ f.value x y ≤ 3 / 2) ∧ |f.error x y| ≤ 1 / 2 := by
  refine place_induction width height
    (P := fun x y => (-1 / 2 ≤ f.value x y ∧ f.value x y ≤ 3 / 2) ∧ |f.error x y| ≤ 1 / 2) ?_ ?_
    x y
  · intro x y hout
    obtain ⟨hv, -, he⟩ := hf.outside x y hout
    rw [hv, he]
    norm_num
  · intro x y hx hy before
    have hin : Inside width height x y := ⟨by omega, by omega, by omega, by omega⟩
    have hown : 0 ≤ intensity.getD (y * width + x) 0 ∧ intensity.getD (y * width + x) 0 ≤ 1 := by
      rw [Array.getD_eq_getD_getElem?]
      cases hi : intensity[y * width + x]? with
      | none => norm_num
      | some v => exact hrange v (Array.mem_of_getElem? hi)
    have hleft := abs_le.mp (before (x - 1) y (by omega)).2
    have hleftAbove := abs_le.mp (before (x - 1) (y - 1) (by omega)).2
    have habove := abs_le.mp (before x (y - 1) (by omega)).2
    have hrightAbove := abs_le.mp (before (x + 1) (y - 1) (by omega)).2
    have hvalue := hf.value x y hx hy
    -- The shares that are pulled add up to one, so they weigh errors of at most a half.
    have hbounds : -1 / 2 ≤ f.value x y ∧ f.value x y ≤ 3 / 2 := by
      constructor <;> linarith
    refine ⟨hbounds, ?_⟩
    rw [hf.error x y hin, abs_le]
    by_cases hdot : f.dot x y = true
    · have hdark := (hf.dot x y hin).mp hdot
      rw [if_pos hdot]
      constructor <;> linarith [hbounds.2]
    · have hlight := not_lt.mp fun h => hdot ((hf.dot x y hin).mpr h)
      rw [if_neg hdot]
      constructor <;> linarith [hbounds.1]

end

/-! ### What is pushed is what is pulled -/

/-- What a place pulls from errors. -/
def pulled (error : ℤ → ℤ → ℚ) (x y : ℤ) : ℚ :=
  (shares.map fun s => error (x - s.dx) (y - s.dy) * (s.sixteenths / 16)).sum

theorem pulled_eq (error : ℤ → ℤ → ℚ) (x y : ℤ) :
    pulled error x y = 7 / 16 * error (x - 1) y + 1 / 16 * error (x - 1) (y - 1)
      + 5 / 16 * error x (y - 1) + 3 / 16 * error (x + 1) (y - 1) := by
  simp only [pulled, shares, List.map_cons, List.map_nil, List.sum_cons, List.sum_nil,
    Nat.cast_zero, Nat.cast_one, Nat.cast_ofNat, sub_neg_eq_add, sub_zero]
  ring

theorem pulled_add (e e' : ℤ → ℤ → ℚ) (x y : ℤ) :
    pulled (fun p q => e p q + e' p q) x y = pulled e x y + pulled e' x y := by
  simp only [pulled_eq]
  ring

/-- The error of one place and of no other. -/
def single (x y : ℕ) (error : ℚ) (p q : ℤ) : ℚ :=
  if p = x ∧ q = y then error else 0

section

variable {width height : ℕ}

/-- A share changes the place that it goes to and no other. -/
theorem getD_spread {buffer : Array ℚ} (hsize : buffer.size = width * height) (x y : ℕ)
    (error : ℚ) (s : Share) {a b : ℕ} (ha : a < width) (hb : b < height) :
    (spread width height x y error buffer s).getD (b * width + a) 0
      = buffer.getD (b * width + a) 0
        + single x y error (a - s.dx) (b - s.dy) * (s.sixteenths / 16) := by
  have hplace : b * width + a < buffer.size := hsize ▸ place_lt ha hb
  simp only [spread, Array.getD_eq_getD_getElem?]
  by_cases hto : (x : ℤ) + s.dx = a ∧ y + s.dy = b
  · obtain ⟨hx, rfl⟩ := hto
    have hsource : (a : ℤ) - s.dx = x ∧ ((y + s.dy : ℕ) : ℤ) - s.dy = y := by omega
    rw [hx, Int.toNat_natCast, if_pos ⟨Int.natCast_nonneg a, ha, hb⟩, single, if_pos hsource,
      Array.getElem?_modify, if_pos rfl, Array.getElem?_eq_getElem hplace]
    rfl
  · have hsource : ¬((a : ℤ) - s.dx = x ∧ (b : ℤ) - s.dy = y) := by omega
    rw [single, if_neg hsource, zero_mul, add_zero]
    split
    · rename_i hinside
      have hne : (y + s.dy) * width + ((x : ℤ) + s.dx).toNat ≠ b * width + a := by
        intro heq
        obtain ⟨hx, hy⟩ := place_inj hinside.2.1 ha heq
        exact hto ⟨by omega, hy⟩
      rw [Array.getElem?_modify, if_neg hne]
    · rfl

/-- All shares of an error together are what is pulled from it. -/
theorem getD_spreads (x y : ℕ) (error : ℚ) {a b : ℕ} (ha : a < width) (hb : b < height)
    (l : List Share) {buffer : Array ℚ} (hsize : buffer.size = width * height) :
    (l.foldl (spread width height x y error) buffer).getD (b * width + a) 0
      = buffer.getD (b * width + a) 0
        + (l.map fun s => single x y error (a - s.dx) (b - s.dy) * (s.sixteenths / 16)).sum := by
  induction l generalizing buffer with
  | nil => simp
  | cons s rest ih =>
      rw [List.foldl_cons, ih ((size_spread width height x y error buffer s).trans hsize),
        getD_spread hsize x y error s ha hb, List.map_cons, List.sum_cons, add_assoc]

end

section

variable (intensity : Array ℚ) (width height : ℕ)

/-- The errors that the loop makes. -/
def errors (x y : ℤ) : ℚ :=
  if Inside width height x y then errorAt intensity width height x.toNat y.toNat else 0

/-- Those of them that are made before a place. -/
def errorsBefore (x y : ℕ) (p q : ℤ) : ℚ :=
  if q < y ∨ q = y ∧ p < x then errors intensity width height p q else 0

variable {intensity width height}

/-- Without rounding, what a dot gets wrong is the difference to white or black. -/
theorem errorAt_eq (x y : ℕ) :
    errorAt intensity width height x y
      = valueAt intensity width height x y
        - if isDark (valueAt intensity width height x y) then 1 else 0 := by
  show valueAt intensity width height x y
      - ((if isDark (valueAt intensity width height x y) then 1 else 0 : ℕ) : ℚ) / ((1 : ℕ) : ℚ)
    = _
  by_cases hdark : isDark (valueAt intensity width height x y) = true
  · rw [if_pos hdark, if_pos hdark]
    norm_num
  · rw [if_neg hdark, if_neg hdark]
    norm_num

theorem errors_outside {x y : ℤ} (h : ¬Inside width height x y) :
    errors intensity width height x y = 0 :=
  if_neg h

theorem errorsBefore_of_lt {x y : ℕ} {p q : ℤ} (h : q < y ∨ q = y ∧ p < x) :
    errorsBefore intensity width height x y p q = errors intensity width height p q :=
  if_pos h

/-- Before the first place there are no errors. -/
theorem errorsBefore_start : errorsBefore intensity width height 0 0 = fun _ _ => 0 := by
  funext p q
  unfold errorsBefore
  split
  · rename_i hbefore
    refine errors_outside fun hin => ?_
    obtain ⟨hp, -, hq, -⟩ := hin
    omega
  · rfl

/-- A dot adds its own error. -/
theorem errorsBefore_dot {x y : ℕ} (hx : x < width) (hy : y < height) :
    errorsBefore intensity width height (x + 1) y = fun p q =>
      errorsBefore intensity width height x y p q
        + single x y (errorAt intensity width height x y) p q := by
  funext p q
  unfold errorsBefore single
  by_cases hplace : p = x ∧ q = y
  · obtain ⟨rfl, rfl⟩ := hplace
    have hin : Inside width height x y := ⟨by omega, by omega, by omega, by omega⟩
    rw [if_pos (by omega), if_neg (by omega), if_pos ⟨rfl, rfl⟩, zero_add, errors, if_pos hin,
      Int.toNat_natCast, Int.toNat_natCast]
  · -- Any other place comes before the next one exactly if it came before this one.
    rw [if_neg hplace, add_zero]
    congr 1
    rw [eq_iff_iff]
    omega

/-- The end of a row is the start of the next. -/
theorem errorsBefore_row (y : ℕ) :
    errorsBefore intensity width height width y
      = errorsBefore intensity width height 0 (y + 1) := by
  funext p q
  by_cases hin : Inside width height p q
  · obtain ⟨hp, hp', -, -⟩ := hin
    unfold errorsBefore
    congr 1
    rw [eq_iff_iff]
    omega
  · unfold errorsBefore
    rw [errors_outside hin, ite_self, ite_self]

/-- **The image in the middle of a scan**: every place has its own intensity and what it pulls
from the errors so far. -/
theorem getD_reached (hsize : intensity.size = width * height) {x y : ℕ}
    (h : OnScan width height x y) {a b : ℕ} (ha : a < width) (hb : b < height) :
    (reached intensity width height x y).buffer.getD (b * width + a) 0
      = intensity.getD (b * width + a) 0
        + pulled (errorsBefore intensity width height x y) a b := by
  refine scan_induction (P := fun x y =>
    (reached intensity width height x y).buffer.getD (b * width + a) 0
      = intensity.getD (b * width + a) 0
        + pulled (errorsBefore intensity width height x y) a b) ?_ ?_ ?_ h
  · rw [errorsBefore_start, pulled_eq]
    simp [reached]
  · intro x y hx hy ih
    have hbuffer : (reached intensity width height x y).buffer.size = width * height :=
      (size_buffer_reached (Or.inl ⟨Nat.le_of_lt hx, hy⟩)).trans hsize
    -- The shares of the dot are what is pulled from its error alone.
    rw [buffer_reached_dot, getD_spreads x y _ ha hb shares hbuffer, ih,
      errorsBefore_dot hx hy, pulled_add, add_assoc]
    rfl
  · intro y _ ih
    rw [reached_row, ih, errorsBefore_row]

/-- **When a dot is decided nothing is missing**: all that its place pulls from is decided. -/
theorem valueAt_eq (hsize : intensity.size = width * height) {x y : ℕ} (hx : x < width)
    (hy : y < height) :
    valueAt intensity width height x y
      = intensity.getD (y * width + x) 0 + pulled (errors intensity width height) x y := by
  have hreached := getD_reached hsize (Or.inl ⟨Nat.le_of_lt hx, hy⟩) hx hy
  -- The four places that are pulled from come before this one.
  rw [pulled_eq, errorsBefore_of_lt (by omega), errorsBefore_of_lt (by omega),
    errorsBefore_of_lt (by omega), errorsBefore_of_lt (by omega), ← pulled_eq] at hreached
  rw [valueAt, ratio_zero_one]
  exact hreached

variable (intensity width height)

/-- What the loop makes of an image. -/
def scanned : Field where
  value x y :=
    if Inside width height x y then valueAt intensity width height x.toNat y.toNat else 0
  dot x y :=
    decide (Inside width height x y) &&
      isDark (valueAt intensity width height x.toNat y.toNat)
  error := errors intensity width height

variable {intensity width height}

theorem scanned_value {x y : ℕ} (hx : x < width) (hy : y < height) :
    (scanned intensity width height).value x y = valueAt intensity width height x y := by
  have hin : Inside width height x y := ⟨by omega, by omega, by omega, by omega⟩
  simp only [scanned, if_pos hin, Int.toNat_natCast]

theorem scanned_dot {x y : ℕ} (hx : x < width) (hy : y < height) :
    (scanned intensity width height).dot x y
      = isDark (valueAt intensity width height x y) := by
  have hin : Inside width height x y := ⟨by omega, by omega, by omega, by omega⟩
  simp only [scanned, decide_eq_true hin, Bool.true_and, Int.toNat_natCast]

/-- **The loop solves the recurrence.** -/
theorem diffuses_scanned (hsize : intensity.size = width * height) :
    Diffuses intensity width height (scanned intensity width height) where
  value x y hx hy := by
    rw [scanned_value hx hy, valueAt_eq hsize hx hy, pulled_eq]
    simp only [scanned]
    ring
  dot x y hin := by
    simp only [scanned, decide_eq_true hin, Bool.true_and, if_pos hin]
    exact isDark_iff _
  error x y hin := by
    simp only [scanned, errors, decide_eq_true hin, Bool.true_and, if_pos hin]
    exact errorAt_eq x.toNat y.toNat
  outside x y hout := by
    simp only [scanned, errors, decide_eq_false hout, Bool.false_and, if_neg hout, and_self]

end

/-- **Diffusion without rounding.**  For an image with an intensity between white and black
for each of its places, the recurrence has exactly one solution, and the loop computes it:
what has come together at a place when its dot is decided is the solution's value there, and
the dot that comes out is the solution's dot.  The values stay within a half of white and
black and the errors within a half of none.  No access of the loop is out of bounds. -/
theorem diffuse_solves {intensity : Array ℚ} {width height : ℕ}
    (hsize : intensity.size = width * height) (hrange : ∀ v ∈ intensity, 0 ≤ v ∧ v ≤ 1) :
    ∃ f, Diffuses intensity width height f ∧
      (∀ g, Diffuses intensity width height g → g = f) ∧
      (∀ x y, x < width → y < height →
        (reached intensity width height x y).buffer[y * width + x]? = some (f.value x y) ∧
        (diffuse intensity width height)[y * width + x]? = some (f.dot x y) ∧
        (-1 / 2 ≤ f.value x y ∧ f.value x y ≤ 3 / 2) ∧ |f.error x y| ≤ 1 / 2) ∧
      (diffuse intensity width height).size = width * height ∧
      diffuse? intensity width height = some (diffuse intensity width height) := by
  have hsolution := diffuses_scanned hsize
  refine ⟨scanned intensity width height, hsolution, fun g hg => hg.unique hsolution, ?_,
    size_diffuse, diffuse?_eq hsize⟩
  intro x y hx hy
  refine ⟨?_, ?_, hsolution.bounded hrange x y⟩
  · rw [scanned_value hx hy]
    exact getElem?_reached hsize hx hy
  · rw [scanned_dot hx hy]
    exact getElem?_diffuse hx hy

/-- Four dots, of which the last one is black by what the others hand on. -/
theorem diffuse_solves_four :
    (#[3 / 4, 1 / 4, 1 / 2, 1 / 2] : Array ℚ).size = 2 * 2 ∧
    (∀ v ∈ (#[3 / 4, 1 / 4, 1 / 2, 1 / 2] : Array ℚ), 0 ≤ v ∧ v ≤ 1) ∧
    ∃ f, Diffuses #[3 / 4, 1 / 4, 1 / 2, 1 / 2] 2 2 f ∧
      f.value 1 1 = 11869 / 16384 ∧ f.dot 1 1 = true := by
  have hsize : (#[3 / 4, 1 / 4, 1 / 2, 1 / 2] : Array ℚ).size = 2 * 2 := rfl
  have hrange : ∀ v ∈ (#[3 / 4, 1 / 4, 1 / 2, 1 / 2] : Array ℚ), 0 ≤ v ∧ v ≤ 1 := by
    decide +kernel
  obtain ⟨f, hf, -, hplaces, -, -⟩ := diffuse_solves hsize hrange
  refine ⟨hsize, hrange, f, hf, ?_, ?_⟩
  · obtain ⟨hvalue, -⟩ := hplaces 1 1 (by decide) (by decide)
    refine Option.some.inj (hvalue.symm.trans ?_)
    decide +kernel
  · obtain ⟨-, hdot, -⟩ := hplaces 1 1 (by decide) (by decide)
    refine Option.some.inj (hdot.symm.trans ?_)
    decide +kernel

end Dither

end Receipt
