/-
White and black, in the arithmetic that dithering runs on.

An intensity has a tone if it equals 0, which is white, or 1, which is black.  Four laws say
how the two behave: each lies on its own side of every cut; a dot of either gets nothing
wrong, and nothing is white; a share of nothing is nothing; and nothing more on a place
leaves its tone.  So what is drawn in the two tones can be followed through any arithmetic
that keeps the laws.

They hold without rounding.  They also hold for floats of 32 bits, where they are about three
numbers: what equals 1 is one float, and what equals 0 is one of two, since zero comes with
either sign.  Which floats these are is read off their bits; all else is evaluated.
-/
import Mathlib.Algebra.Order.Field.Basic
import Mathlib.Tactic.Positivity
import Receipt.Proofs.Raster.Recurrence

namespace Receipt

namespace Dither

/-- The intensities that dots are cut at. -/
inductive IsCut {α : Type} [Intensity α] : α → Prop
  | middle : IsCut (Intensity.ratio 1 2)
  | step (rank : Nat) (h : rank < 64) : IsCut (Intensity.ratio (2 * rank + 1) 128)

/-- An intensity that is black or white. -/
def HasTone {α : Type} [Intensity α] [BEq α] (black : Bool) (v : α) : Prop :=
  (v == Intensity.ratio black.toNat 1) = true

instance {α : Type} [Intensity α] [BEq α] (black : Bool) (v : α) : Decidable (HasTone black v) :=
  inferInstanceAs (Decidable (_ = true))

/-- Arithmetic in which white and black are exact. -/
class TwoTone (α : Type) [Intensity α] [BEq α] : Prop where
  /-- Black is above every cut and white above none. -/
  above_cut {black : Bool} {v t : α} : HasTone black v → IsCut t → Intensity.above v t = black
  /-- A dot of its own tone gets nothing wrong. -/
  sub_tone {black : Bool} {v : α} : HasTone black v →
    HasTone false (Intensity.sub v (Intensity.ratio black.toNat 1))
  mul_share {e : α} {s : Share} : HasTone false e → s ∈ shares →
    HasTone false (Intensity.mul e (Intensity.ratio s.sixteenths 16))
  add_nothing {black : Bool} {v e : α} : HasTone black v → HasTone false e →
    HasTone black (Intensity.add v e)

/-! ### Without rounding -/

theorem hasTone_rat_iff {black : Bool} {v : ℚ} : HasTone black v ↔ v = black.toNat := by
  show (v == ((black.toNat : ℕ) : ℚ) / ((1 : ℕ) : ℚ)) = true ↔ _
  rw [beq_iff_eq, Nat.cast_one, div_one]

theorem IsCut.between {t : ℚ} (h : IsCut t) : 0 < t ∧ t < 1 := by
  cases h with
  | middle =>
      show 0 < ((1 : ℕ) : ℚ) / ((2 : ℕ) : ℚ) ∧ ((1 : ℕ) : ℚ) / ((2 : ℕ) : ℚ) < 1
      norm_num
  | step rank h =>
      show 0 < ((2 * rank + 1 : ℕ) : ℚ) / ((128 : ℕ) : ℚ) ∧
        ((2 * rank + 1 : ℕ) : ℚ) / ((128 : ℕ) : ℚ) < 1
      have hrank : ((2 * rank + 1 : ℕ) : ℚ) < 128 := by exact_mod_cast (by omega)
      constructor
      · positivity
      · rw [Nat.cast_ofNat, div_lt_one (by norm_num)]
        exact hrank

instance : TwoTone ℚ where
  above_cut {black v t} hv ht := by
    obtain rfl := hasTone_rat_iff.mp hv
    obtain ⟨hpos, hlt⟩ := ht.between
    show decide (t < _) = black
    cases black
    · simpa using hpos.le
    · simpa using hlt
  sub_tone {black v} hv := by
    rw [hasTone_rat_iff] at hv ⊢
    show v - ((black.toNat : ℕ) : ℚ) / ((1 : ℕ) : ℚ) = _
    rw [hv]
    simp
  mul_share {e s} he _ := by
    rw [hasTone_rat_iff] at he ⊢
    show e * _ = _
    rw [he]
    simp
  add_nothing {black v e} hv he := by
    rw [hasTone_rat_iff] at hv he ⊢
    show v + e = _
    rw [hv, he]
    simp

/-! ### Floats of 32 bits -/

section

open Float.Model Float.Model.UnpackedFloat

variable {bits : BitVec Format.binary32.numBits}

/-- The bits of a float are those of its sign, its exponent and its mantissa. -/
theorem toNat_bits (bits : BitVec Format.binary32.numBits) :
    bits.toNat = (unpackSign bits).toNat * 2 ^ 31 + (unpackExponent bits).toNat * 2 ^ 23
      + (unpackMantissa bits).toNat := by
  have hlt : bits.toNat < 2 ^ 32 := bits.isLt
  unfold unpackSign unpackExponent unpackMantissa
  simp only [BitVec.toNat_cast, BitVec.extractLsb_toNat, Nat.shiftRight_eq_div_pow]
  show bits.toNat = bits.toNat / 2 ^ 31 % 2 ^ 1 * 2 ^ 31 + bits.toNat / 2 ^ 23 % 2 ^ 8 * 2 ^ 23
    + bits.toNat / 2 ^ 0 % 2 ^ 23
  omega

/-- What unpacks to zero has no bit set but that of the sign. -/
theorem toNat_of_unpack_zero {s : Sign} (h : unpack Format.binary32 bits = .zero s) :
    bits.toNat = 0 ∨ bits.toNat = 2 ^ 31 := by
  have hfields := toNat_bits bits
  have hsign : (unpackSign bits).toNat < 2 := (unpackSign bits).isLt
  unfold UnpackedFloat.unpack at h
  dsimp only at h
  by_cases hspecial : unpackExponent bits = -1#8
  · rw [if_pos hspecial] at h
    split at h <;> cases h
  · rw [if_neg hspecial] at h
    by_cases hexponent : unpackExponent bits = 0#8
    · rw [if_pos hexponent] at h
      by_cases hmantissa : unpackMantissa bits = 0#23
      · rw [hexponent, hmantissa, BitVec.toNat_zero, BitVec.toNat_zero] at hfields
        omega
      · rw [dif_neg hmantissa] at h
        cases h
    · rw [if_neg hexponent] at h
      cases h

/-- What unpacks to one has the exponent of one, and nothing else. -/
theorem toNat_of_unpack_one {hpos : 0 < 2 ^ 23}
    (h : unpack Format.binary32 bits = .finite .positive (2 ^ 23) (-23) hpos) :
    bits.toNat = 127 * 2 ^ 23 := by
  have hfields := toNat_bits bits
  have hmantissa : (unpackMantissa bits).toNat < 2 ^ 23 := (unpackMantissa bits).isLt
  unfold UnpackedFloat.unpack at h
  dsimp only at h
  by_cases hspecial : unpackExponent bits = -1#8
  · rw [if_pos hspecial] at h
    by_cases hzero : unpackMantissa bits = 0#23
    · rw [if_pos hzero] at h
      cases h
    · rw [if_neg hzero] at h
      cases h
  · rw [if_neg hspecial] at h
    by_cases hsmall : unpackExponent bits = 0#8
    · rw [if_pos hsmall] at h
      by_cases hzero : unpackMantissa bits = 0#23
      · rw [dif_pos hzero] at h
        cases h
      · rw [dif_neg hzero] at h
        obtain ⟨-, hsubnormal, -⟩ := UnpackedFloat.finite.inj h
        omega
    · rw [if_neg hsmall] at h
      obtain ⟨hsign, hnormal, hexponent⟩ := UnpackedFloat.finite.inj h
      rw [BitVec.toNat_append] at hnormal
      have hleading := (Nat.shiftLeft_add_eq_or_of_lt hmantissa 1).trans hnormal
      have hpositive : (unpackSign bits).toNat = 0 := by
        unfold Sign.ofBitVec at hsign
        split at hsign
        · rename_i hzero
          rw [hzero, BitVec.toNat_zero]
        · simp at hsign
      have hbias : ((unpackExponent bits).toNat : ℤ) - (127 + 23) = -23 := hexponent
      rw [Nat.shiftLeft_eq] at hleading
      omega

theorem eq_of_toNat_toBits {v w : Float32} (h : v.toBits.toNat = w.toBits.toNat) : v = w := by
  obtain ⟨⟨_, _⟩⟩ := v
  obtain ⟨⟨_, _⟩⟩ := w
  congr
  exact UInt32.toNat_inj.mp h

theorem eq_zero_of_compare {u : UnpackedFloat} {s : Sign} (h : u.compare (.zero s) = some .eq) :
    ∃ t, u = .zero t := by
  cases u with
  | notANumber => nomatch h
  | infinity t => cases t <;> nomatch h
  | zero t => exact ⟨t, rfl⟩
  | finite t m e hm => cases t <;> nomatch h

theorem eq_finite_of_compare {u : UnpackedFloat} {m : Nat} {e : Int} {hm : 0 < m}
    (h : u.compare (.finite .positive m e hm) = some .eq) : u = .finite .positive m e hm := by
  cases u with
  | notANumber => nomatch h
  | infinity t => cases t <;> nomatch h
  | zero t => nomatch h
  | finite t m' e' hm' =>
      cases t with
      | negative => nomatch h
      | positive =>
          have hsame : (compare e' e).then (compare m' m) = .eq := Option.some.inj h
          rw [Ordering.then_eq_eq, Int.compare_eq_eq, Nat.compare_eq_eq] at hsame
          obtain ⟨rfl, rfl⟩ := hsame
          rfl

/-- The floats of a tone. -/
def tones : Bool → List Float32
  | false => [0, -0]
  | true => [1]

/-- **What equals white or black is one of three floats.** -/
theorem mem_tones {black : Bool} {v : Float32} (h : HasTone black v) : v ∈ tones black := by
  have hequal : v.toModel.unpack.compare (Intensity.ratio black.toNat 1 : Float32).toModel.unpack
      = some .eq := beq_iff_eq.mp h
  cases black with
  | false =>
      have hwhite : (Intensity.ratio 0 1 : Float32).toModel.unpack = .zero .positive := rfl
      obtain ⟨s, hzero⟩ := eq_zero_of_compare (hwhite ▸ hequal)
      rcases toNat_of_unpack_zero hzero with hbits | hbits
      · exact List.mem_cons.mpr (Or.inl (eq_of_toNat_toBits hbits))
      · exact List.mem_cons_of_mem _ (List.mem_singleton.mpr (eq_of_toNat_toBits hbits))
  | true =>
      have hblack : (Intensity.ratio 1 1 : Float32).toModel.unpack
          = .finite .positive (2 ^ 23) (-23) (by decide) := rfl
      have hone := eq_finite_of_compare (hblack ▸ hequal)
      exact List.mem_singleton.mpr (eq_of_toNat_toBits (toNat_of_unpack_one hone))

end

instance : TwoTone Float32 where
  above_cut {black v t} hv ht := by
    have hmiddle : ∀ black, ∀ v ∈ tones black,
        Intensity.above v (Intensity.ratio 1 2) = black := by decide +kernel
    have hsteps : ∀ black, ∀ v ∈ tones black, ∀ rank < 64,
        Intensity.above v (Intensity.ratio (2 * rank + 1) 128) = black := by decide +kernel
    cases ht with
    | middle => exact hmiddle black v (mem_tones hv)
    | step rank h => exact hsteps black v (mem_tones hv) rank h
  sub_tone {black v} hv := by
    have htones : ∀ black, ∀ v ∈ tones black,
        HasTone false (Intensity.sub v (Intensity.ratio black.toNat 1)) := by decide +kernel
    exact htones black v (mem_tones hv)
  mul_share {e s} he hs := by
    have htones : ∀ e ∈ tones false, ∀ s ∈ shares,
        HasTone false (Intensity.mul e (Intensity.ratio s.sixteenths 16)) := by decide +kernel
    exact htones e (mem_tones he) s hs
  add_nothing {black v e} hv he := by
    have htones : ∀ black, ∀ v ∈ tones black, ∀ e ∈ tones false,
        HasTone black (Intensity.add v e) := by decide +kernel
    exact htones black v (mem_tones hv) e (mem_tones he)

end Dither

end Receipt
