/-
Line art passes through dithering as it is.

The ways to decide about a dot have little in common, but in a picture of black and white
alone they agree.  The cut in the middle and the thresholds of the pattern all lie between
the two tones.  Diffusion has nothing to spread: the invariant of its loop is that every place
has the tone that it had from the start.  So a dot is decided from its own tone, gets nothing
wrong, and leaves the tones of the places around it alone.

The dots are the same then, and the bytes that they are packed in, whatever the width and the
height.  The arithmetic has to keep white and black exact, which floats of 32 bits do.
-/
import Receipt.Proofs.Raster.Packed
import Receipt.Proofs.Raster.TwoTone

namespace Receipt.Dither

/-- A place is found by its number. -/
theorem exists_place {width height i : Nat} (h : i < width * height) :
    ∃ x y, x < width ∧ y < height ∧ i = y * width + x := by
  have hpos : 0 < width := Nat.pos_of_ne_zero fun hzero => by simp [hzero] at h
  refine ⟨i % width, i / width, Nat.mod_lt i hpos, ?_, ?_⟩
  · exact Nat.div_lt_of_lt_mul h
  · rw [Nat.mul_comm]
    exact (Nat.div_add_mod i width).symm

/-- Every place of the pattern comes in its order. -/
theorem bayerRank_lt (x y : Nat) : bayerRank x y < 64 := by
  have hmatrix : ∀ y < 8, ∀ x < 8, (bayerMatrix.getD y #[]).getD x 0 < 64 := by decide
  exact hmatrix (y % 8) (Nat.mod_lt y (by decide)) (x % 8) (Nat.mod_lt x (by decide))

section

variable {α : Type} [Intensity α] [BEq α]

/-- Every place of an image has the tone that is told of it. -/
def HasTones (tone : Nat → Bool) (buffer : Array α) : Prop :=
  ∀ i v, buffer[i]? = some v → HasTone (tone i) v

variable {tone : Nat → Bool} {intensity : Array α} {width height : Nat}

/-- The tone of a place that is white or black. -/
theorem hasTones_of_forall (h : ∀ v ∈ intensity, HasTone false v ∨ HasTone true v) :
    HasTones (fun i => intensity.getD i (Intensity.ratio 0 1) == Intensity.ratio 1 1)
      intensity := by
  intro i v hv
  have hread : intensity.getD i (Intensity.ratio 0 1) = v := by
    rw [Array.getD_eq_getD_getElem?, hv]
    rfl
  show HasTone (intensity.getD i _ == _) v
  rw [hread]
  by_cases hblack : HasTone true v
  · rwa [show (v == Intensity.ratio 1 1) = true from hblack]
  · rw [show (v == Intensity.ratio 1 1) = false from Bool.eq_false_iff.mpr hblack]
    exact (h v (Array.mem_of_getElem? hv)).resolve_right hblack

/-- What has come together at a place has the tone of the place. -/
theorem HasTones.valueAt (hsize : intensity.size = width * height) {x y : Nat} (hx : x < width)
    (hy : y < height) (h : HasTones tone (reached intensity width height x y).buffer) :
    HasTone (tone (y * width + x)) (valueAt intensity width height x y) :=
  h _ _ (getElem?_reached hsize hx hy)

variable [TwoTone α]

/-! ### Dots of one tone -/

theorem HasTone.isDark_eq {black : Bool} {v : α} (h : HasTone black v) : isDark v = black :=
  TwoTone.above_cut h .middle

theorem HasTone.bayerDot_eq {black : Bool} {v : α} (h : HasTone black v) (x y : Nat) :
    bayerDot x y v = black :=
  TwoTone.above_cut h (.step (bayerRank x y) (bayerRank_lt x y))

/-- A dot gets nothing wrong if its intensity has a tone. -/
theorem HasTone.error {black : Bool} {v : α} (h : HasTone black v) :
    HasTone false (Intensity.sub v (Intensity.ratio (if isDark v then 1 else 0) 1)) := by
  have hdark : (if isDark v then 1 else 0) = black.toNat := by
    rw [h.isDark_eq]
    cases black <;> rfl
  rw [hdark]
  exact TwoTone.sub_tone h

/-! ### Images of two tones -/

/-- A share of nothing leaves all tones. -/
theorem HasTones.spread {buffer : Array α} (h : HasTones tone buffer) (x y : Nat) {error : α}
    (herror : HasTone false error) {s : Share} (hs : s ∈ shares) :
    HasTones tone (spread width height x y error buffer s) := by
  simp only [Dither.spread]
  split
  · intro i v hv
    rw [Array.getElem?_modify] at hv
    split at hv
    · obtain ⟨old, hold, rfl⟩ := Option.map_eq_some_iff.mp hv
      exact TwoTone.add_nothing (h i old hold) (TwoTone.mul_share herror hs)
    · exact h i v hv
  · exact h

theorem HasTones.spreads {buffer : Array α} (h : HasTones tone buffer) (x y : Nat) {error : α}
    (herror : HasTone false error) {l : List Share} (hl : ∀ s ∈ l, s ∈ shares) :
    HasTones tone (l.foldl (Dither.spread width height x y error) buffer) := by
  induction l generalizing buffer with
  | nil => exact h
  | cons s rest ih =>
      exact ih (h.spread x y herror (hl s (by simp))) fun t ht => hl t (by simp [ht])

/-- **All tones stay as they are, all along the scan.** -/
theorem HasTones.reached (hsize : intensity.size = width * height) (h : HasTones tone intensity)
    {x y : Nat} (hon : OnScan width height x y) :
    HasTones tone (reached intensity width height x y).buffer := by
  refine scan_induction (P := fun x y =>
    HasTones tone (Dither.reached intensity width height x y).buffer) h ?_ ?_ hon
  · intro x y hx hy ih
    rw [buffer_reached_dot]
    exact ih.spreads x y (HasTones.valueAt hsize hx hy ih).error fun _ hs => hs
  · intro y _ ih
    rw [reached_row]
    exact ih

/-- **Every dot is black exactly if its place is**, whichever way it is decided. -/
theorem HasTones.decided_eq (hsize : intensity.size = width * height)
    (h : HasTones tone intensity) (d : Dithering) {x y : Nat} (hx : x < width) (hy : y < height) :
    decided intensity width height d x y = tone (y * width + x) := by
  have hplace : y * width + x < intensity.size := hsize ▸ place_lt hx hy
  have htone : HasTone (tone (y * width + x))
      (intensity.getD (y * width + x) (Intensity.ratio 0 1)) := by
    rw [Array.getD_eq_getD_getElem?, Array.getElem?_eq_getElem hplace]
    exact h _ _ (Array.getElem?_eq_getElem hplace)
  cases d with
  | threshold => exact htone.isDark_eq
  | bayer => exact htone.bayerDot_eq x y
  | floydSteinberg =>
      have hvalue := HasTones.valueAt hsize hx hy (h.reached hsize (Or.inl ⟨hx.le, hy⟩))
      show (diffuse intensity width height).getD (y * width + x) false = _
      rw [Array.getD_eq_getD_getElem?, getElem?_diffuse hx hy]
      exact hvalue.isDark_eq

/-- All ways decide about all dots alike. -/
theorem HasTones.dots_eq (hsize : intensity.size = width * height) (h : HasTones tone intensity)
    (d d' : Dithering) :
    dots intensity width height d = dots intensity width height d' := by
  have hcount (d : Dithering) : (dots intensity width height d).size = width * height :=
    size_dots hsize d
  refine Array.ext ((hcount d).trans (hcount d').symm) fun i hi hi' => ?_
  obtain ⟨x, y, hx, hy, rfl⟩ := exists_place (hcount d ▸ hi)
  have hdot := getD_dots hsize d hx hy
  have hdot' := getD_dots hsize d' hx hy
  rw [h.decided_eq hsize _ hx hy, Array.getD_eq_getD_getElem?,
    Array.getElem?_eq_getElem (by assumption)] at hdot hdot'
  exact hdot.trans hdot'.symm

/-- **The bytes of line art are its black places**, whichever way they are dithered. -/
theorem exists_packed_lineArt (hsize : intensity.size = width * height)
    (h : ∀ v ∈ intensity, HasTone false v ∨ HasTone true v) :
    ∃ bytes, (∀ d, packed intensity width height d = bytes) ∧
      Packs width height (fun x y =>
        intensity.getD (y * width + x) (Intensity.ratio 0 1) == Intensity.ratio 1 1) bytes := by
  have htones := hasTones_of_forall h
  refine ⟨packed intensity width height .threshold, fun d => ?_, ?_⟩
  · unfold packed
    rw [htones.dots_eq hsize d .threshold]
  · exact (packs_decided hsize .threshold).congr fun x y hx hy => htones.decided_eq hsize _ hx hy

end

/-- **Line art passes through every dithering unchanged.**  For floats that equal 0 or 1, as many
as the image has places, all ways give the same bytes, in which the dot of a place is black
exactly if the intensity there equals 1. -/
theorem lineArt_unchanged {intensity : Array Float32} {width height : Nat}
    (hsize : intensity.size = width * height) (hart : ∀ v ∈ intensity, v == 0 ∨ v == 1) :
    ∃ bytes, (∀ d, packed intensity width height d = bytes) ∧
      Packs width height (fun x y => intensity.getD (y * width + x) 0 == 1) bytes := by
  have hwhite : (0 : Float32) = Intensity.ratio 0 1 := rfl
  have hblack : (1 : Float32) = Intensity.ratio 1 1 := rfl
  rw [hwhite, hblack] at hart ⊢
  exact exists_packed_lineArt hsize hart

/-- Two rows of three dots, with a zero of either sign. -/
theorem lineArt_unchanged_cross :
    (#[1, 0, 1, -0, 1, 0] : Array Float32).size = 3 * 2 ∧
    (∀ v ∈ (#[1, 0, 1, -0, 1, 0] : Array Float32), v == 0 ∨ v == 1) ∧
    ∀ d, packed (#[1, 0, 1, -0, 1, 0] : Array Float32) 3 2 d = [0xA0, 0x40] := by
  have hsize : (#[1, 0, 1, -0, 1, 0] : Array Float32).size = 3 * 2 := rfl
  have hart : ∀ v ∈ (#[1, 0, 1, -0, 1, 0] : Array Float32), v == 0 ∨ v == 1 := by
    decide +kernel
  obtain ⟨bytes, hbytes, -⟩ := lineArt_unchanged hsize hart
  have hcut : packed (#[1, 0, 1, -0, 1, 0] : Array Float32) 3 2 .threshold = [0xA0, 0x40] := by
    decide +kernel
  exact ⟨hsize, hart, fun d => (hbytes d).trans ((hbytes .threshold).symm.trans hcut)⟩

end Receipt.Dither
