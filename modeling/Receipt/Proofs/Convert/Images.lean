/-
How images are made ready before anything is printed.

A decoder may be slow, or sit at the other end of a network, so it matters which calls
it gets.  `noted` makes a decoder of a function and keeps a list of its calls, and the
list is part of what a preparation comes to.

The loop fills two tables, pictures by source and rasters by image, and either part of a
step can fail.  `Ready` is what is true between two steps: all images so far have been
made, both tables hold just what belongs to them, and the calls are their sources, each
once, in the order in which they first came.  A source is looked for in a table that
knows nothing of failures, and yet no call is made twice: whatever fails ends the loop.
-/
import Receipt.Convert
import Receipt.Proofs.Firsts

namespace Receipt

/-! ### Rasters that fit -/

namespace Raster

theorem width_of_ofData {width height : Nat} {data : List UInt8} {r : Raster}
    (h : ofData width height data = .ok r) : r.width = width ∧ 1 ≤ width := by
  unfold ofData at h
  split at h
  · simp at h
  · rename_i hwidth
    split at h
    · simp at h
    · split at h
      · simp at h
      · obtain rfl := Except.ok.inj h
        exact ⟨rfl, Nat.pos_of_ne_zero hwidth⟩

/-- A picture that is too wide is made as wide as there is room, and no other is scaled. -/
theorem width_fit (g : GrayImage) (maxWidth : Nat) :
    (fit g maxWidth).width = min g.width maxWidth := by
  unfold fit
  split
  · rename_i hwide
    unfold Resample.resize
    rw [if_neg (by omega)]
    exact (Nat.min_eq_right (Nat.le_of_lt hwide)).symm
  · exact (Nat.min_eq_left (by omega)).symm

/-- **A raster fits**: it is as wide as its picture, or as wide as there is room. -/
theorem width_of_rasterize {g : GrayImage} {maxWidth : Nat} {d : Dithering} {r : Raster}
    (h : rasterize g maxWidth d = .ok r) : 1 ≤ r.width ∧ r.width = min g.width maxWidth := by
  unfold rasterize at h
  split at h
  · simp at h
  · split at h
    · simp at h
    · obtain ⟨hwidth, hpos⟩ := width_of_ofData h
      rw [← hwidth] at hpos
      exact ⟨hpos, hwidth.trans (width_fit g maxWidth)⟩

end Raster

namespace Convert

/-! ### Calls of a decoder -/

/-- Computations beside a list of the sources that have been asked for. -/
abbrev Noting := StateM (List String)

/-- The decoder that is a function of the source, with its calls noted. -/
def noted (decode : String → Except Error GrayImage) : Decoder Noting := fun source asked =>
  (decode source, asked ++ [source])

variable (decode : String → Except Error GrayImage) (d : Dithering)

/-- The raster of an image, without any table. -/
def rasterOf (key : ImageKey) : Except Error Raster :=
  match decode key.source with
  | .error e => .error e
  | .ok g => Raster.rasterize g key.maxWidthDots d

variable {decode d}

theorem rasterOf_eq_ok {key : ImageKey} {r : Raster} (h : rasterOf decode d key = .ok r) :
    ∃ g, decode key.source = .ok g ∧ Raster.rasterize g key.maxWidthDots d = .ok r := by
  unfold rasterOf at h
  cases hg : decode key.source with
  | error e => simp [hg] at h
  | ok g => exact ⟨g, rfl, by simpa only [hg] using h⟩

/-! ### One image after the other -/

/-- Where a preparation stands when the images in `done` have been made. -/
structure Ready (decode : String → Except Error GrayImage) (d : Dithering)
    (done : List ImageKey) (p : Prepared) (asked : List String) : Prop where
  made : ∀ key ∈ done, ∃ r, rasterOf decode d key = .ok r
  firsts : FirstsOf asked (done.map ImageKey.source)
  pictures : ∀ source g,
    p.pictures.lookup source = some g ↔ source ∈ asked ∧ decode source = .ok g
  images : ∀ key r, p.images.find? key = some r ↔ key ∈ done ∧ rasterOf decode d key = .ok r

namespace Ready

variable {done : List ImageKey} {p : Prepared} {asked : List String} {key : ImageKey}

theorem nothing : Ready decode d [] ⟨[], []⟩ [] where
  made _ h := by simp at h
  firsts := FirstsOf.nil
  pictures _ _ := by simp
  images _ _ := by simp [ImageCache.find?]

/-- A source that has been asked for has its picture in the table. -/
theorem exists_picture (h : Ready decode d done p asked) {source : String}
    (hasked : source ∈ asked) : ∃ g, p.pictures.lookup source = some g := by
  obtain ⟨key, hkey, rfl⟩ := List.mem_map.mp ((h.firsts.mem_iff source).mp hasked)
  obtain ⟨r, hr⟩ := h.made key hkey
  obtain ⟨g, hg, -⟩ := rasterOf_eq_ok hr
  exact ⟨g, (h.pictures key.source g).mpr ⟨hasked, hg⟩⟩

/-- **The picture of the next image**: as the decoder has it, which is asked if it has not
been before. -/
theorem pictureOf_run (h : Ready decode d done p asked) (key : ImageKey) :
    ∃ asked', (pictureOf (noted decode) p key.source).run asked = (decode key.source, asked') ∧
      FirstsOf asked' ((done ++ [key]).map ImageKey.source) ∧
      (∀ source, source ∈ asked' ↔ source ∈ asked ∨ source = key.source) := by
  rw [List.map_append, List.map_singleton]
  by_cases hknown : key.source ∈ asked
  · obtain ⟨g, hg⟩ := h.exists_picture hknown
    refine ⟨asked, ?_, h.firsts.concat_of_mem ((h.firsts.mem_iff _).mp hknown), ?_⟩
    · unfold pictureOf
      rw [hg, ((h.pictures _ _).mp hg).2]
      rfl
    · intro source
      constructor
      · exact Or.inl
      · rintro (hsource | rfl)
        · exact hsource
        · exact hknown
  · have hnone : p.pictures.lookup key.source = none := by
      rw [Option.eq_none_iff_forall_ne_some]
      intro g hg
      exact hknown ((h.pictures _ _).mp hg).1
    refine ⟨asked ++ [key.source], ?_, ?_, by simp⟩
    · unfold pictureOf
      rw [hnone]
      rfl
    · exact h.firsts.concat_of_not_mem fun hmem => hknown ((h.firsts.mem_iff _).mpr hmem)

theorem pictures_add (h : Ready decode d done p asked) {g : GrayImage} {r : Raster}
    {asked' : List String} (hg : decode key.source = .ok g)
    (hasked' : ∀ source, source ∈ asked' ↔ source ∈ asked ∨ source = key.source)
    (source : String) (g' : GrayImage) :
    (p.add key g r).pictures.lookup source = some g' ↔
      source ∈ asked' ∧ decode source = .ok g' := by
  unfold Prepared.add
  dsimp only
  rw [hasked']
  by_cases hknown : (p.pictures.lookup key.source).isSome = true
  · obtain ⟨g₀, hg₀⟩ := Option.isSome_iff_exists.mp hknown
    have hmem := ((h.pictures _ _).mp hg₀).1
    rw [if_pos hknown, h.pictures]
    constructor
    · exact fun hs => ⟨Or.inl hs.1, hs.2⟩
    · rintro ⟨hs | rfl, hsource⟩
      · exact ⟨hs, hsource⟩
      · exact ⟨hmem, hsource⟩
  · rw [if_neg hknown, List.lookup_cons]
    by_cases hsource : source = key.source
    · subst hsource
      simp only [beq_self_eq_true, hg, Option.some.injEq, Except.ok.injEq, or_true, true_and]
    · rw [beq_eq_false_iff_ne.mpr hsource]
      simp only [hsource, or_false]
      exact h.pictures source g'

/-- What has been made of an image goes into the tables. -/
theorem add (h : Ready decode d done p asked) {g : GrayImage} {r : Raster}
    {asked' : List String} (hg : decode key.source = .ok g)
    (hr : rasterOf decode d key = .ok r)
    (hfirsts : FirstsOf asked' ((done ++ [key]).map ImageKey.source))
    (hasked' : ∀ source, source ∈ asked' ↔ source ∈ asked ∨ source = key.source) :
    Ready decode d (done ++ [key]) (p.add key g r) asked' where
  made k hk := by
    rcases List.mem_append.mp hk with hk | hk
    · exact h.made k hk
    · obtain rfl := List.mem_singleton.mp hk
      exact ⟨r, hr⟩
  firsts := hfirsts
  pictures := h.pictures_add hg hasked'
  images k r' := by
    unfold Prepared.add ImageCache.add ImageCache.find?
    rw [List.lookup_cons, List.mem_append, List.mem_singleton]
    by_cases hk : k = key
    · subst hk
      simp only [beq_self_eq_true, hr, Option.some.injEq, Except.ok.injEq, or_true, true_and]
    · rw [beq_eq_false_iff_ne.mpr hk]
      simp only [hk, or_false]
      exact h.images k r'

end Ready

/-- What a preparation comes to, and with which calls: everything that was asked for, or
the failure of the first image that cannot be made. -/
inductive Comes (decode : String → Except Error GrayImage) (d : Dithering)
    (keys : List ImageKey) : Except Error Prepared × List String → Prop where
  | ready {p : Prepared} {asked : List String} (h : Ready decode d keys p asked) :
    Comes decode d keys (.ok p, asked)
  | failed {before after : List ImageKey} {key : ImageKey} {e : Error} {asked : List String}
    (hkeys : keys = before ++ key :: after)
    (hbefore : ∀ k ∈ before, ∃ r, rasterOf decode d k = .ok r)
    (hkey : rasterOf decode d key = .error e)
    (hasked : FirstsOf asked ((before ++ [key]).map ImageKey.source)) :
    Comes decode d keys (.error e, asked)

/-- One step of a preparation, by any decoder with a state of its own. -/
theorem prepare_cons_run {σ : Type} {decode : Decoder (StateM σ)} {d : Dithering} (p : Prepared)
    (key : ImageKey) (rest : List ImageKey) (s : σ) :
    (prepare decode d p (key :: rest)).run s
      = match (pictureOf decode p key.source).run s with
        | (.error e, s) => (.error e, s)
        | (.ok g, s) =>
          match Raster.rasterize g key.maxWidthDots d with
          | .error e => (.error e, s)
          | .ok r => (prepare decode d (p.add key g r) rest).run s := by
  show (pictureOf decode p key.source >>= fun picture => _).run s = _
  rw [StateT.run_bind]
  rcases (pictureOf decode p key.source).run s with ⟨picture, s'⟩
  cases picture with
  | error e => rfl
  | ok g =>
      show StateT.run (match Raster.rasterize g key.maxWidthDots d with
        | .error e => pure (.error e)
        | .ok r => prepare decode d (p.add key g r) rest) s' = _
      dsimp only
      cases Raster.rasterize g key.maxWidthDots d <;> rfl

/-- **What a preparation comes to**, by the images that are still to be made. -/
theorem prepare_comes (keys : List ImageKey) : ∀ (done : List ImageKey) (p : Prepared)
    (asked : List String), Ready decode d done p asked →
    Comes decode d (done ++ keys) ((prepare (noted decode) d p keys).run asked) := by
  induction keys with
  | nil =>
      intro done p asked h
      rw [List.append_nil]
      exact .ready h
  | cons key rest ih =>
      intro done p asked h
      obtain ⟨asked', hpicture, hfirsts, hasked'⟩ := h.pictureOf_run key
      rw [prepare_cons_run, hpicture]
      cases hg : decode key.source with
      | error e =>
          have hkey : rasterOf decode d key = .error e := by simp only [rasterOf, hg]
          exact .failed rfl h.made hkey hfirsts
      | ok g =>
          have hkey : rasterOf decode d key = Raster.rasterize g key.maxWidthDots d := by
            simp only [rasterOf, hg]
          cases hr : Raster.rasterize g key.maxWidthDots d with
          | error e =>
              simp only [hr]
              exact .failed rfl h.made (hkey.trans hr) hfirsts
          | ok r =>
              simp only [hr]
              rw [show done ++ key :: rest = done ++ [key] ++ rest by simp]
              exact ih _ _ _ (h.add hg (hkey.trans hr) hfirsts hasked')

/-! ### Decoders that cannot be told apart -/

section

variable {m : Type → Type} [Monad m] {decode decode' : Decoder m}

theorem prepare_congr {d : Dithering} {keys : List ImageKey}
    (h : ∀ key ∈ keys, decode key.source = decode' key.source) (p : Prepared) :
    prepare decode d p keys = prepare decode' d p keys := by
  induction keys generalizing p with
  | nil => rfl
  | cons key rest ih =>
      have hpicture : pictureOf decode p key.source = pictureOf decode' p key.source := by
        unfold pictureOf
        rw [h key List.mem_cons_self]
      have hrest := ih fun k hk => h k (List.mem_cons_of_mem key hk)
      unfold prepare
      simp only [hpicture, hrest]

/-- A conversion depends on the decoder by the sources that are asked for, and not at all
if the printer prints no pictures. -/
theorem convert_congr {root : Node} {o : Options}
    (h : o.dialect.dialect.supports .imagePrinting = true →
      ∀ key ∈ root.imageRequests o.paperWidth, decode key.source = decode' key.source) :
    convert root o decode = convert root o decode' := by
  unfold convert
  dsimp only
  cases hs : o.dialect.dialect.supports .imagePrinting with
  | true =>
      unfold decodeImages
      rw [prepare_congr (h hs)]
  | false => rfl

end

/-! ### Documents -/

/-- A cache with the rasters of the images on a list and no others, each made from its
picture, as wide as that if it fits and no wider than there is room. -/
structure Fitting (decode : String → Except Error GrayImage) (d : Dithering)
    (keys : List ImageKey) (images : ImageCache) : Prop where
  keys : ∀ key, (∃ r, images.find? key = some r) ↔ key ∈ keys
  made : ∀ key r, images.find? key = some r → ∃ g, decode key.source = .ok g ∧
    Raster.rasterize g key.maxWidthDots d = .ok r ∧
    (1 ≤ r.width ∧ r.width ≤ key.maxWidthDots) ∧
    (g.width ≤ key.maxWidthDots → r.width = g.width)

theorem Ready.fitting {keys : List ImageKey} {p : Prepared} {asked : List String}
    (h : Ready decode d keys p asked) : Fitting decode d keys p.images where
  keys key := by
    constructor
    · rintro ⟨r, hr⟩
      exact ((h.images key r).mp hr).1
    · intro hkey
      obtain ⟨r, hr⟩ := h.made key hkey
      exact ⟨r, (h.images key r).mpr ⟨hkey, hr⟩⟩
  made key r hr := by
    obtain ⟨g, hg, hraster⟩ := rasterOf_eq_ok ((h.images key r).mp hr).2
    obtain ⟨hpos, hwidth⟩ := Raster.width_of_rasterize hraster
    refine ⟨g, hg, hraster, ⟨hpos, ?_⟩, ?_⟩
    · rw [hwidth]
      exact Nat.min_le_right _ _
    · intro hfits
      rw [hwidth]
      exact Nat.min_eq_left hfits

/-- The calls for a printer without pictures: none. -/
theorem convert_calls_nothing {root : Node} {o : Options}
    (h : o.dialect.dialect.supports .imagePrinting = false)
    (decode : String → Except Error GrayImage) :
    ((convert root o (noted decode)).run []).2 = [] := by
  unfold convert
  dsimp only
  rw [h]
  rfl

/-- **Every source is decoded once, and the first image that cannot be made ends it.**  The
sources are asked for in the order in which they first come, each once.  Either all images
can be made, and the cache that results is for just these, or the result is the failure of
the first that cannot, and no source behind it has been asked for.  A whole conversion
asks for nothing if the printer prints no pictures, and cannot tell decoders apart that
agree on what is asked for. -/
theorem decodes_each_source_once (root : Node) (o : Options)
    (decode : String → Except Error GrayImage) :
    let requests := root.imageRequests o.paperWidth
    let run := (decodeImages root o (noted decode)).run []
    (((∀ key ∈ requests, ∃ r, rasterOf decode o.dither key = .ok r) ∧
        FirstsOf run.2 (requests.map ImageKey.source) ∧
        ∃ images, run.1 = .ok images ∧ Fitting decode o.dither requests images) ∨
      ∃ before key after e, requests = before ++ key :: after ∧
        (∀ k ∈ before, ∃ r, rasterOf decode o.dither k = .ok r) ∧
        rasterOf decode o.dither key = .error e ∧ run.1 = .error e ∧
        FirstsOf run.2 ((before ++ [key]).map ImageKey.source)) ∧
    (o.dialect.dialect.supports .imagePrinting = false →
      ((convert root o (noted decode)).run []).2 = []) ∧
    ∀ decode', (∀ key ∈ requests, decode key.source = decode' key.source) →
      (convert root o (noted decode)).run [] = (convert root o (noted decode')).run [] := by
  intro requests run
  have hrun : run = (match (prepare (noted decode) o.dither ⟨[], []⟩ requests).run [] with
      | (result, asked) => (result.map Prepared.images, asked)) := rfl
  have hcomes : Comes decode o.dither requests
      ((prepare (noted decode) o.dither ⟨[], []⟩ requests).run []) :=
    prepare_comes requests [] ⟨[], []⟩ [] Ready.nothing
  refine ⟨?_, fun h => convert_calls_nothing h decode, ?_⟩
  · rw [hrun]
    generalize (prepare (noted decode) o.dither ⟨[], []⟩ requests).run [] = outcome at hcomes ⊢
    cases hcomes with
    | ready h => exact Or.inl ⟨h.made, h.firsts, _, rfl, h.fitting⟩
    | failed hkeys hbefore hkey hasked =>
        exact Or.inr ⟨_, _, _, _, hkeys, hbefore, hkey, rfl, hasked⟩
  · intro decode' h
    have hdecoders : ∀ key ∈ requests, noted decode key.source = noted decode' key.source := by
      intro key hkey
      unfold noted
      rw [h key hkey]
    rw [convert_congr fun _ => hdecoders]

end Convert

end Receipt
