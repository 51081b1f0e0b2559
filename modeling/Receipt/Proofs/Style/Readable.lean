/-
Attributes that nothing can read.

`Style.Readable` says, without looking at how styles are resolved, which values mean
something under which names: known words, numbers in range, borders to be seen.  Any other
entry of a style, and any entry under a name that is not looked up, might as well not be
there, since whatever resolves a style takes something out of a value only if the value is
readable under the name it is looked up by.
-/
import Receipt.Proofs.Decimal.Finite
import Receipt.Proofs.Dict
import Receipt.Proofs.Document.Matching

namespace Receipt

namespace Style

/-- The values that mean something under a name. -/
inductive Readable (key : String) : Json → Prop
  | align {s} (hkey : key = "textAlign")
      (hname : Text.nameKey s ∈ ["left", "start", "center", "right", "end"]) :
      Readable key (.string s)
  | justify {s} (hkey : key = "justifyContent")
      (hname : Text.nameKey s ∈ ["flex-start", "start", "flex-end", "end", "center",
        "space-between", "space-around", "space-evenly"]) :
      Readable key (.string s)
  | direction {s} (hkey : key = "flexDirection") (hname : Text.nameKey s = "row") :
      Readable key (.string s)
  /-- A finite positive number, or a text of one, where the unit `px` is left out. -/
  | size {v x} (hkey : key = "fontSize") (hx : length? v = some x) (hpos : 0.0 < x) :
      Readable key v
  | weightName {s} (hkey : key = "fontWeight")
      (hname : Text.nameKey s ∈ ["bold", "bolder", "normal", "lighter"]) :
      Readable key (.string s)
  | weightText {s x} (hkey : key = "fontWeight") (hx : Decimal.parse? (Text.nameKey s) = some x)
      (hfinite : x.isFinite = true) (hleast : 100.0 ≤ x) :
      Readable key (.string s)
  | weightNumber {n} (hkey : key = "fontWeight") (hfinite : n.toFloat.isFinite = true)
      (hleast : 100.0 ≤ n.toFloat) :
      Readable key (.number n)
  | borderText {s} (hkey : key ∈ ["borderTop", "borderBottom"])
      (hvisible : hidesBorder (Text.trim s) = false) :
      Readable key (.string s)
  | borderNumber {n} (hkey : key ∈ ["borderTop", "borderBottom"]) (hpos : 0.0 < n.toFloat) :
      Readable key (.number n)
  | widthNumber {n} (hkey : key = "width") (hfinite : n.toFloat.isFinite = true) :
      Readable key (.number n)
  | widthText {s x} (hkey : key = "width") (hx : Decimal.parse? (Text.trim s) = some x)
      (hfinite : x.isFinite = true) :
      Readable key (.string s)
  | widthShare {s digits x} (hkey : key = "width")
      (hpercent : (Text.trim s).toList = digits ++ ['%'])
      (hx : Decimal.parse? (Text.trim (String.ofList digits)) = some x)
      (hfinite : x.isFinite = true) :
      Readable key (.string s)
  /-- A finite number, or a text of one, where the unit `px` is left out. -/
  | distance {v x} (hkey : key ∈ ["margin", "marginTop", "marginBottom", "padding", "paddingTop",
      "paddingBottom"]) (hx : length? v = some x) :
      Readable key v

/-! ### What is resolved was readable -/

theorem mem_names_of_lookup {α : Type} {names : List (String × α)} {name : String} {a : α}
    (h : names.lookup name = some a) : name ∈ names.map Prod.fst := by
  obtain ⟨before, after, rfl, -⟩ := List.lookup_eq_some_iff.mp h
  simp

theorem eq_string_of_string? {v : Json} {s : String} (h : v.string? = some s) : v = .string s := by
  cases v with
  | string t => exact congrArg Json.string (Option.some.inj h)
  | _ => simp [Json.string?] at h

theorem isFinite_of_length? {v : Json} {x : Float} (h : length? v = some x) :
    x.isFinite = true :=
  (Option.filter_eq_some_iff.mp h).2

theorem readable_align {v : Json} {a : Alignment}
    (h : v.string?.bind Alignment.ofName? = some a) : Readable "textAlign" v := by
  obtain ⟨s, hs, ha⟩ := Option.bind_eq_some_iff.mp h
  rw [eq_string_of_string? hs]
  exact .align rfl (mem_names_of_lookup ha)

theorem readable_justify {v : Json} {j : Justify}
    (h : v.string?.bind Justify.ofName? = some j) : Readable "justifyContent" v := by
  obtain ⟨s, hs, hj⟩ := Option.bind_eq_some_iff.mp h
  rw [eq_string_of_string? hs]
  exact .justify rfl (mem_names_of_lookup hj)

theorem readable_direction {v : Json} {s : String}
    (h : v.string?.filter (fun d => Text.nameKey d == "row") = some s) :
    Readable "flexDirection" v := by
  obtain ⟨hs, hrow⟩ := Option.filter_eq_some_iff.mp h
  rw [eq_string_of_string? hs]
  exact .direction rfl (beq_iff_eq.mp hrow)

theorem readable_size {v : Json} {size : CharacterSize}
    (h : (length? v).bind CharacterSize.ofFontSize? = some size) : Readable "fontSize" v := by
  obtain ⟨x, hx, hsize⟩ := Option.bind_eq_some_iff.mp h
  have hfinite := isFinite_of_length? hx
  unfold CharacterSize.ofFontSize? at hsize
  split at hsize
  · simp at hsize
  · rename_i hranged
    have hnot : ¬x ≤ 0.0 := by
      intro hle
      simp [hfinite, hle] at hranged
    exact .size rfl hx (Decimal.pos_of_not_le hfinite hnot)

theorem finite_of_boldOfWeight? {x : Float} {bold : Bool} (h : boldOfWeight? x = some bold) :
    x.isFinite = true ∧ 100.0 ≤ x := by
  unfold boldOfWeight? at h
  split at h
  · rename_i hranged
    simpa using hranged
  · simp at h

theorem readable_weight {v : Json} {bold : Bool} (h : bold? v = some bold) :
    Readable "fontWeight" v := by
  cases v with
  | number n =>
      obtain ⟨hfinite, hleast⟩ := finite_of_boldOfWeight? h
      exact .weightNumber rfl hfinite hleast
  | string s =>
      unfold bold? at h
      dsimp only at h
      split at h
      · rename_i hname
        refine .weightName rfl ?_
        rcases Bool.or_eq_true _ _ ▸ hname with hname | hname <;> simp [beq_iff_eq.mp hname]
      · split at h
        · rename_i hname
          refine .weightName rfl ?_
          rcases Bool.or_eq_true _ _ ▸ hname with hname | hname <;> simp [beq_iff_eq.mp hname]
        · obtain ⟨x, hx, hweight⟩ := Option.bind_eq_some_iff.mp h
          obtain ⟨hfinite, hleast⟩ := finite_of_boldOfWeight? hweight
          exact .weightText rfl hx hfinite hleast
  | _ => simp [bold?] at h

theorem readable_border {key : String} (hkey : key ∈ ["borderTop", "borderBottom"]) {v : Json}
    {rule : Rule} (h : Receipt.border? v = some rule) : Readable key v := by
  cases v with
  | string s =>
      unfold Receipt.border? at h
      dsimp only at h
      split at h
      · simp at h
      · rename_i hvisible
        exact .borderText hkey (by simpa using hvisible)
  | number n =>
      unfold Receipt.border? at h
      dsimp only at h
      split at h
      · rename_i hpos
        exact .borderNumber hkey hpos
      · simp at h
  | _ => simp [Receipt.border?] at h

theorem isFinite_of_roundColumns? {x : Float} {available n : Nat}
    (h : roundColumns? x available = some n) : x.isFinite = true := by
  unfold roundColumns? at h
  split at h
  · assumption
  · simp at h

theorem readable_width {v : Json} {available n : Nat} (h : columns? v available = some n) :
    Readable "width" v := by
  obtain ⟨x, hx, hround⟩ := Option.bind_eq_some_iff.mp h
  have hfinite := isFinite_of_roundColumns? hround
  cases v with
  | number n =>
      obtain rfl := Option.some.inj hx
      exact .widthNumber rfl hfinite
  | string s =>
      dsimp only at hx
      split at hx
      · rename_i rest hpercent
        obtain ⟨share, hshare, rfl⟩ := Option.map_eq_some_iff.mp hx
        have hdigits : (Text.trim s).toList = rest.reverse ++ ['%'] := by
          rw [← List.reverse_reverse (Text.trim s).toList, hpercent, List.reverse_cons]
        exact .widthShare rfl hdigits hshare
          (Decimal.isFinite_left_of_div (Decimal.isFinite_left_of_mul hfinite))
      · exact .widthText rfl hx hfinite
  | _ => simp at hx

/-! ### Styles without entries that nothing reads -/

/-- A style with some of its entries left out, none of them readable. -/
structure Tidied (s t : Style) : Prop where
  kept : ∀ e ∈ t.entries, e ∈ s.entries
  dropped : ∀ e ∈ s.entries, e ∉ t.entries → ¬Readable e.1 e.2

namespace Tidied

variable {s t : Style} (h : s.Tidied t)

include h

/-- **What is taken out of readable values alone is taken out all the same.** -/
theorem bind_get? {α : Type} {key : String} {f : Json → Option α}
    (hf : ∀ v a, f v = some a → Readable key v) :
    (t.get? key).bind f = (s.get? key).bind f := by
  have hkept : ∀ v, t.get? key = some v → s.get? key = some v := fun v hv =>
    (Dict.get?_eq_some_iff s).mpr (h.kept _ ((Dict.get?_eq_some_iff t).mp hv))
  cases ht : t.get? key with
  | some v => rw [hkept v ht]
  | none =>
      cases hs : s.get? key with
      | none => rfl
      | some v =>
          have hdropped : (key, v) ∉ t.entries := by
            intro hmem
            rw [(Dict.get?_eq_some_iff t).mpr hmem] at ht
            simp at ht
          have hnot := h.dropped _ ((Dict.get?_eq_some_iff s).mp hs) hdropped
          show none = f v
          cases hv : f v with
          | none => rfl
          | some a => exact absurd (hf v a hv) hnot

theorem bind_string? {α : Type} {key : String} {f : String → Option α}
    (hf : ∀ v a, (Json.string? v).bind f = some a → Readable key v) :
    (t.string? key).bind f = (s.string? key).bind f := by
  unfold string?
  rw [Option.bind_assoc, Option.bind_assoc]
  exact h.bind_get? hf

theorem number?_distance (key : String) (hkey : key ∈ ["margin", "marginTop", "marginBottom",
    "padding", "paddingTop", "paddingBottom"]) : t.number? key = s.number? key :=
  h.bind_get? fun _ _ hx => .distance hkey hx

theorem text_eq : t.text = s.text := by
  have halign := h.bind_string? fun _ _ => readable_align
  have hsize : (t.number? "fontSize").bind CharacterSize.ofFontSize?
      = (s.number? "fontSize").bind CharacterSize.ofFontSize? := by
    unfold number?
    rw [Option.bind_assoc, Option.bind_assoc]
    exact h.bind_get? fun _ _ => readable_size
  have hbold := h.bind_get? fun _ _ => readable_weight
  unfold text
  rw [halign, hsize, hbold]

theorem view_eq : t.view = s.view := by
  have halign := h.bind_string? fun _ _ => readable_align
  have hjustify := h.bind_string? fun _ _ => readable_justify
  have hdirection : (t.string? "flexDirection").any (fun d => Text.nameKey d == "row")
      = (s.string? "flexDirection").any fun d => Text.nameKey d == "row" := by
    have hfiltered := h.bind_get? fun _ _ => readable_direction
    have hany : ∀ d : Style, (d.string? "flexDirection").any (fun d => Text.nameKey d == "row")
        = ((d.get? "flexDirection").bind fun v =>
            v.string?.filter fun d => Text.nameKey d == "row").isSome := by
      intro d
      unfold string?
      cases d.get? "flexDirection" with
      | none => rfl
      | some v => exact Option.isSome_filter.symm
    rw [hany, hany, hfiltered]
  unfold view
  rw [halign, hjustify, hdirection]

theorem spacing_eq : t.spacing = s.spacing := by
  unfold spacing side
  simp only [h.number?_distance "marginTop" (by decide),
    h.number?_distance "margin" (by decide),
    h.number?_distance "paddingTop" (by decide),
    h.number?_distance "padding" (by decide),
    h.number?_distance "marginBottom" (by decide),
    h.number?_distance "paddingBottom" (by decide)]

/-- **Without entries that nothing reads a style means what it did.** -/
theorem matches_style : s.Matches t where
  text := h.text_eq
  view := h.view_eq
  width _ := h.bind_get? fun _ _ => readable_width
  top := h.bind_get? fun _ _ => readable_border (by decide)
  bottom := h.bind_get? fun _ _ => readable_border (by decide)
  spacing := h.spacing_eq

end Tidied

end Style

end Receipt
