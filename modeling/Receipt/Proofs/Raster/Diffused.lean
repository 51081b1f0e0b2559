/-
Diffusion, dot by dot.

The loop goes over an image in the order of reading, and what it has done when it comes to
a place is a state of its own: `reached`.  A property of places is true at all of them if
it is true at the first, one dot preserves it, and the end of a row is the start of the
next; everything here is proved by that.

Whatever the arithmetic, a dot that is decided stays as it is, so an image comes out with
a dot for each place: the one decided from the intensity that had come together there.

The loop writes to places of an array, and writing beyond its end does nothing.  So that
nothing is lost by that, `diffuse?` is the same loop with every access checked, on a page of
dots that is there from the start.  It never fails, and ends with the same dots.
-/
import Receipt.Raster.Dither

namespace Receipt.Dither

/-! ### Places -/

/-- A place inside an image has its own number. -/
theorem place_lt {width height x y : Nat} (hx : x < width) (hy : y < height) :
    y * width + x < width * height := by
  calc y * width + x < y * width + width := by omega
    _ = width * (y + 1) := by rw [Nat.mul_comm, Nat.mul_succ]
    _ ≤ width * height := Nat.mul_le_mul_left width hy

theorem place_inj {width x y x' y' : Nat} (hx : x < width) (hx' : x' < width)
    (h : y * width + x = y' * width + x') : x = x' ∧ y = y' := by
  have hpos : 0 < width := Nat.lt_of_le_of_lt (Nat.zero_le x) hx
  have hy := congrArg (· / width) h
  simp only [Nat.mul_comm _ width, Nat.mul_add_div hpos, Nat.div_eq_of_lt hx,
    Nat.div_eq_of_lt hx', Nat.add_zero] at hy
  subst hy
  exact ⟨by omega, rfl⟩

/-- The places that a scan of the image comes to, the end of each row included. -/
def OnScan (width height x y : Nat) : Prop :=
  x ≤ width ∧ y < height ∨ x = 0 ∧ y = height

/-- **What one dot preserves, and the end of a row hands on, is true all along.** -/
theorem scan_induction {width height : Nat} {P : Nat → Nat → Prop} (start : P 0 0)
    (dot : ∀ x y, x < width → y < height → P x y → P (x + 1) y)
    (row : ∀ y, y < height → P width y → P 0 (y + 1)) {x y : Nat}
    (h : OnScan width height x y) : P x y := by
  have hline : ∀ y, y < height → P 0 y → ∀ x, x ≤ width → P x y := by
    intro y hy hfirst x
    induction x with
    | zero => exact fun _ => hfirst
    | succ x ih => exact fun hx => dot x y hx hy (ih (Nat.le_of_succ_le hx))
  have hrows : ∀ y, y ≤ height → P 0 y := by
    intro y
    induction y with
    | zero => exact fun _ => start
    | succ y ih =>
        exact fun hy => row y hy (hline y hy (ih (Nat.le_of_succ_le hy)) width (Nat.le_refl _))
  rcases h with ⟨hx, hy⟩ | ⟨rfl, rfl⟩
  · exact hline y hy (hrows y (Nat.le_of_lt hy)) x hx
  · exact hrows _ (Nat.le_refl _)

/-! ### The states of the loop -/

section

variable {α : Type} [Intensity α]

theorem size_spread (width height x y : Nat) (error : α) (buffer : Array α) (s : Share) :
    (spread width height x y error buffer s).size = buffer.size := by
  simp only [spread]
  split
  · exact Array.size_modify
  · rfl

theorem size_spreads (width height x y : Nat) (error : α) (l : List Share) (buffer : Array α) :
    (l.foldl (spread width height x y error) buffer).size = buffer.size := by
  induction l generalizing buffer with
  | nil => rfl
  | cons s rest ih => rw [List.foldl_cons, ih, size_spread]

variable (intensity : Array α) (width height : Nat)

/-- The image when the dots before a place are decided, and no others. -/
def reached (x y : Nat) : Diffusion α :=
  (List.range x).foldl (diffuseDot width height y)
    ((List.range y).foldl (diffuseRow width height) ⟨intensity, #[]⟩)

theorem reached_dot (x y : Nat) :
    reached intensity width height (x + 1) y
      = diffuseDot width height y (reached intensity width height x y) x := by
  unfold reached
  rw [List.range_succ, List.foldl_append]
  rfl

theorem reached_row (y : Nat) :
    reached intensity width height 0 (y + 1) = reached intensity width height width y := by
  unfold reached
  rw [List.range_succ, List.foldl_append]
  rfl

theorem diffuse_eq_reached :
    diffuse intensity width height = (reached intensity width height 0 height).dots :=
  rfl

/-- The intensity that has come together at a place when its dot is decided. -/
def valueAt (x y : Nat) : α :=
  (reached intensity width height x y).buffer.getD (y * width + x) (Intensity.ratio 0 1)

/-- What the dot at a place gets wrong. -/
def errorAt (x y : Nat) : α :=
  let value := valueAt intensity width height x y
  Intensity.sub value (Intensity.ratio (if isDark value then 1 else 0) 1)

theorem buffer_reached_dot (x y : Nat) :
    (reached intensity width height (x + 1) y).buffer
      = shares.foldl (spread width height x y (errorAt intensity width height x y))
        (reached intensity width height x y).buffer := by
  rw [reached_dot]
  rfl

theorem dots_reached_dot (x y : Nat) :
    (reached intensity width height (x + 1) y).dots
      = (reached intensity width height x y).dots.push
        (isDark (valueAt intensity width height x y)) := by
  rw [reached_dot]
  rfl

variable {intensity width height}

theorem size_buffer_reached {x y : Nat} (h : OnScan width height x y) :
    (reached intensity width height x y).buffer.size = intensity.size := by
  refine scan_induction (P := fun x y =>
    (reached intensity width height x y).buffer.size = intensity.size) rfl ?_ ?_ h
  · intro x y _ _ hsize
    rw [buffer_reached_dot, size_spreads, hsize]
  · intro y _ hsize
    rw [reached_row, hsize]

/-- There is a dot for each place so far. -/
theorem size_dots_reached {x y : Nat} (h : OnScan width height x y) :
    (reached intensity width height x y).dots.size = y * width + x := by
  refine scan_induction (P := fun x y =>
    (reached intensity width height x y).dots.size = y * width + x) ?_ ?_ ?_ h
  · rw [Nat.zero_mul]
    rfl
  · intro x y _ _ hsize
    rw [dots_reached_dot, Array.size_push, hsize, Nat.add_assoc]
  · intro y _ hsize
    rw [reached_row, hsize, Nat.add_mul, Nat.one_mul, Nat.add_zero]

theorem size_diffuse : (diffuse intensity width height).size = width * height := by
  rw [diffuse_eq_reached, size_dots_reached (Or.inr ⟨rfl, rfl⟩), Nat.add_zero, Nat.mul_comm]

/-- One place comes before another. -/
def Earlier (x y x' y' : Nat) : Prop :=
  y < y' ∨ y = y' ∧ x < x'

/-- **A dot that is decided stays as it is.** -/
theorem dots_reached {x y x' y' : Nat} (h : OnScan width height x' y') (hx : x < width)
    (hbefore : Earlier x y x' y') :
    (reached intensity width height x' y').dots[y * width + x]?
      = some (isDark (valueAt intensity width height x y)) := by
  revert hbefore
  refine scan_induction (P := fun x' y' => Earlier x y x' y' →
    (reached intensity width height x' y').dots[y * width + x]?
      = some (isDark (valueAt intensity width height x y))) ?_ ?_ ?_ h
  · intro hbefore
    unfold Earlier at hbefore
    omega
  · intro a b ha hb ih hbefore
    have hsize : (reached intensity width height a b).dots.size = b * width + a :=
      size_dots_reached (Or.inl ⟨Nat.le_of_lt ha, hb⟩)
    rw [dots_reached_dot, Array.getElem?_push, hsize]
    by_cases hplace : y * width + x = b * width + a
    · -- The dot is the one that has just been decided.
      obtain ⟨rfl, rfl⟩ := place_inj hx ha hplace
      rw [if_pos rfl]
    · rw [if_neg hplace]
      refine ih ?_
      unfold Earlier at hbefore ⊢
      by_cases hxy : x = a ∧ y = b
      · exact absurd (by rw [hxy.1, hxy.2]) hplace
      · omega
  · intro b hb ih hbefore
    rw [reached_row]
    refine ih ?_
    unfold Earlier at hbefore ⊢
    omega

theorem getElem?_diffuse {x y : Nat} (hx : x < width) (hy : y < height) :
    (diffuse intensity width height)[y * width + x]?
      = some (isDark (valueAt intensity width height x y)) := by
  rw [diffuse_eq_reached]
  exact dots_reached (Or.inr ⟨rfl, rfl⟩) hx (Or.inl hy)

/-- What has come together at a place is in the image when its dot is decided. -/
theorem getElem?_reached (hsize : intensity.size = width * height) {x y : Nat} (hx : x < width)
    (hy : y < height) :
    (reached intensity width height x y).buffer[y * width + x]?
      = some (valueAt intensity width height x y) := by
  have hlt : y * width + x < (reached intensity width height x y).buffer.size := by
    rw [size_buffer_reached (Or.inl ⟨Nat.le_of_lt hx, hy⟩), hsize]
    exact place_lt hx hy
  rw [valueAt, Array.getD_eq_getD_getElem?, Array.getElem?_eq_getElem hlt]
  rfl

/-! ### With every access checked -/

/-- Add a share of an error to the place it goes to, if there is such a place. -/
def spread? (width height x y : Nat) (error : α) (buffer : Array α) (s : Share) :
    Option (Array α) :=
  let nx := (x : Int) + s.dx
  let ny := y + s.dy
  if 0 ≤ nx ∧ nx.toNat < width ∧ ny < height then
    if h : ny * width + nx.toNat < buffer.size then
      some (buffer.set (ny * width + nx.toNat)
        (Intensity.add buffer[ny * width + nx.toNat]
          (Intensity.mul error (Intensity.ratio s.sixteenths 16))))
    else none
  else some buffer

/-- Decide about a dot, if there is an intensity to read and a dot to write. -/
def diffuseDot? (width height y : Nat) (d : Diffusion α) (x : Nat) : Option (Diffusion α) :=
  if h : y * width + x < d.buffer.size ∧ y * width + x < d.dots.size then
    let old := d.buffer[y * width + x]
    let black := isDark old
    let error := Intensity.sub old (Intensity.ratio (if black then 1 else 0) 1)
    (shares.foldlM (spread? width height x y error) d.buffer).map fun buffer =>
      ⟨buffer, d.dots.set (y * width + x) black⟩
  else none

def diffuseRow? (width height : Nat) (d : Diffusion α) (y : Nat) : Option (Diffusion α) :=
  (List.range width).foldlM (diffuseDot? width height y) d

/-- The dots of an image whose errors are diffused, on a page that is white to begin with. -/
def diffuse? (intensity : Array α) (width height : Nat) : Option (Array Bool) :=
  ((List.range height).foldlM (diffuseRow? width height)
    ⟨intensity, Array.replicate (width * height) false⟩).map Diffusion.dots

/-- A share that stays inside the image goes to a place of its buffer. -/
theorem spread?_eq {buffer : Array α} (hsize : buffer.size = width * height) (x y : Nat)
    (error : α) (s : Share) :
    spread? width height x y error buffer s = some (spread width height x y error buffer s) := by
  unfold spread? spread
  by_cases hinside : 0 ≤ (x : Int) + s.dx ∧ ((x : Int) + s.dx).toNat < width ∧ y + s.dy < height
  · have hlt : (y + s.dy) * width + ((x : Int) + s.dx).toNat < buffer.size := by
      rw [hsize]
      exact place_lt hinside.2.1 hinside.2.2
    simp only [if_pos hinside, dif_pos hlt, Option.some.injEq]
    apply Array.ext
    · rw [Array.size_set, Array.size_modify]
    · intro i hi _
      rw [Array.getElem_set, Array.getElem_modify]
      split
      · rename_i heq
        simp only [heq]
      · rfl
  · simp only [if_neg hinside]

theorem spreads?_eq (x y : Nat) (error : α) (l : List Share) {buffer : Array α}
    (hsize : buffer.size = width * height) :
    l.foldlM (spread? width height x y error) buffer
      = some (l.foldl (spread width height x y error) buffer) := by
  induction l generalizing buffer with
  | nil => rfl
  | cons s rest ih =>
      rw [List.foldlM_cons, spread?_eq hsize]
      exact ih ((size_spread width height x y error buffer s).trans hsize)

/-- The page with the dots before a place, white from there on. -/
def page (intensity : Array α) (width height x y : Nat) : Diffusion α :=
  let d := reached intensity width height x y
  ⟨d.buffer, d.dots ++ Array.replicate (width * height - (y * width + x)) false⟩

/-- Deciding the first dot of a page that is not decided yet. -/
theorem set_append_replicate {dots : Array Bool} {i : Nat} (hi : dots.size = i) (n : Nat)
    (black : Bool) (h : i < (dots ++ Array.replicate (n + 1) false).size) :
    (dots ++ Array.replicate (n + 1) false).set i black
      = dots.push black ++ Array.replicate n false := by
  subst hi
  apply Array.toList_inj.mp
  simp [List.replicate_succ]

/-- **No access is out of bounds when a dot is decided.** -/
theorem diffuseDot?_page (hsize : intensity.size = width * height) {x y : Nat} (hx : x < width)
    (hy : y < height) :
    diffuseDot? width height y (page intensity width height x y) x
      = some (page intensity width height (x + 1) y) := by
  have hon : OnScan width height x y := Or.inl ⟨Nat.le_of_lt hx, hy⟩
  have hbuffer : (page intensity width height x y).buffer.size = width * height :=
    (size_buffer_reached hon).trans hsize
  have hdots : (reached intensity width height x y).dots.size = y * width + x :=
    size_dots_reached hon
  have hplace := place_lt hx hy
  have hroom : y * width + x < (page intensity width height x y).buffer.size ∧
      y * width + x < (page intensity width height x y).dots.size := by
    constructor
    · exact hbuffer ▸ hplace
    · unfold page
      rw [Array.size_append, Array.size_replicate, hdots]
      omega
  have hread : y * width + x < (page intensity width height x y).buffer.size := hroom.1
  have hold : (page intensity width height x y).buffer[y * width + x]
      = valueAt intensity width height x y :=
    Option.some.inj ((Array.getElem?_eq_getElem hread).symm.trans (getElem?_reached hsize hx hy))
  have hleft : width * height - (y * width + x)
      = width * height - (y * width + (x + 1)) + 1 := by omega
  unfold diffuseDot?
  rw [dif_pos hroom]
  simp only [hold]
  rw [spreads?_eq x y _ shares hbuffer, Option.map_some]
  refine congrArg some ((Diffusion.mk.injEq ..).mpr ⟨?_, ?_⟩)
  · exact (buffer_reached_dot intensity width height x y).symm
  · rw [dots_reached_dot]
    simp only [page, hleft]
    exact set_append_replicate hdots _ _ _

/-- A loop that takes every state to the next one takes the first to the last. -/
theorem foldlM_range {σ : Type} {f : σ → Nat → Option σ} (state : Nat → σ) {n : Nat}
    (h : ∀ i < n, f (state i) i = some (state (i + 1))) :
    (List.range n).foldlM f (state 0) = some (state n) := by
  induction n with
  | zero => rfl
  | succ n ih =>
      rw [List.range_succ, List.foldlM_append, ih fun i hi => h i (Nat.lt_succ_of_lt hi)]
      show (f (state n) n >>= some) = _
      rw [h n (Nat.lt_succ_self n)]
      rfl

/-- The end of a row is the start of the next. -/
theorem page_row (y : Nat) :
    page intensity width height width y = page intensity width height 0 (y + 1) := by
  unfold page
  rw [reached_row, Nat.add_mul, Nat.one_mul, Nat.add_zero]

/-- **No access of the whole loop is out of bounds**, and the dots on the page are those of the
loop that does not check. -/
theorem diffuse?_eq (hsize : intensity.size = width * height) :
    diffuse? intensity width height = some (diffuse intensity width height) := by
  have hstart : page intensity width height 0 0
      = ⟨intensity, Array.replicate (width * height) false⟩ := by
    simp [page, reached]
  have hrow : ∀ y < height, diffuseRow? width height (page intensity width height 0 y) y
      = some (page intensity width height 0 (y + 1)) := by
    intro y hy
    rw [← page_row]
    exact foldlM_range (fun x => page intensity width height x y)
      fun x hx => diffuseDot?_page hsize hx hy
  have hend : (page intensity width height 0 height).dots = diffuse intensity width height := by
    simp [page, diffuse_eq_reached, Nat.mul_comm]
  unfold diffuse?
  rw [← hstart, foldlM_range (page intensity width height 0) hrow, Option.map_some, hend]

end

end Receipt.Dither
