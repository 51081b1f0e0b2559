/-
Data that is written out in its URI.

The first comma ends the header, so a payload may hold more of them, and what is done with it
depends on the parts of the header alone: if one of them is the word for base64, in letters of any
case, the payload is read as that, and else it stands for its own bytes.
-/
import Mathlib.Data.List.TakeDrop
import Mathlib.Data.List.TakeWhile
import Receipt.Image.Source
import Receipt.Proofs.Image.Base64
import Receipt.Proofs.Text.Wrap

namespace Receipt.Source

/-! ### The first comma -/

theorem splitOnce?_append {c : Char} {before : String} (h : c ∉ before.toList) (behind : String) :
    splitOnce? c (before ++ String.singleton c ++ behind) = some (before, behind) := by
  have hpass : ∀ d ∈ before.toList, (d != c) = true := by
    intro d hd
    rw [bne_iff_ne]
    rintro rfl
    exact h hd
  unfold splitOnce?
  rw [String.toList_append, String.toList_append, String.toList_singleton, List.append_assoc,
    List.span_eq_takeWhile_dropWhile, List.takeWhile_append_of_pos hpass,
    List.dropWhile_append_of_pos hpass]
  simp

theorem splitOnce?_eq_none {c : Char} {s : String} (h : c ∉ s.toList) :
    splitOnce? c s = none := by
  have hpass : ∀ d ∈ s.toList, (d != c) = true := by
    intro d hd
    rw [bne_iff_ne]
    rintro rfl
    exact h hd
  unfold splitOnce?
  rw [List.span_eq_takeWhile_dropWhile, List.dropWhile_eq_nil_iff.mpr hpass]

/-! ### The parts of a header -/

/-- A header with a part that is the word for base64, whatever the case of its letters.  Its parts
are what stands between its semicolons. -/
def NamesBase64 (header : String) : Prop :=
  ∃ parts : List String, header = ";".intercalate parts ∧ (∀ part ∈ parts, ';' ∉ part.toList) ∧
    ∃ part ∈ parts, Text.lower part = "base64"

theorem saysBase64_iff {header : String} : saysBase64 header = true ↔ NamesBase64 header := by
  unfold saysBase64
  rw [List.any_eq_true]
  constructor
  · rintro ⟨part, hpart, hword⟩
    refine ⟨(header.toList.splitOn ';').map String.ofList, ?_, ?_, String.ofList part,
      List.mem_map_of_mem hpart, by simpa using hword⟩
    · apply String.toList_injective
      have hpieces : ((header.toList.splitOn ';').map String.ofList).map String.toList
          = header.toList.splitOn ';' := by
        rw [List.map_map]
        exact List.map_id'' (fun l => String.toList_ofList) _
      rw [String.toList_intercalate, hpieces]
      exact (List.intercalate_splitOn ';').symm
    · intro s hs
      obtain ⟨piece, hpiece, rfl⟩ := List.mem_map.mp hs
      rw [String.toList_ofList]
      intro hmem
      have hother : ∀ c ∈ piece, c ≠ ';' := by
        refine Text.forall_mem_splitOnP header.toList (fun c _ hc => ?_) piece hpiece
        simpa using hc
      exact hother ';' hmem rfl
  · rintro ⟨parts, rfl, hclean, part, hpart, hword⟩
    have hsplit : (";".intercalate parts).toList.splitOn ';' = parts.map String.toList := by
      rw [String.toList_intercalate]
      refine List.splitOn_intercalate ';' (fun l hl => ?_) ?_
      · obtain ⟨s, hs, rfl⟩ := List.mem_map.mp hl
        exact hclean s hs
      · exact List.ne_nil_of_mem (List.mem_map_of_mem hpart)
    rw [hsplit]
    refine ⟨part.toList, List.mem_map_of_mem hpart, ?_⟩
    rw [String.ofList_toList, hword]
    rfl

/-! ### Data -/

theorem dataUri_of_names {header payload : String} {bytes : List UInt8}
    (hcomma : ',' ∉ header.toList) (hnames : NamesBase64 header)
    (hpayload : Base64.Payload bytes payload) :
    dataUri (header ++ "," ++ payload) = .ok bytes := by
  have hsplit : splitOnce? ',' (header ++ "," ++ payload) = some (header, payload) :=
    splitOnce?_append hcomma payload
  unfold dataUri
  rw [hsplit]
  dsimp only
  rw [if_pos (saysBase64_iff.mpr hnames), Base64.decodeLoosely_of_payload hpayload]
  rfl

theorem dataUri_of_not_names {header payload : String} (hcomma : ',' ∉ header.toList)
    (hnames : ¬NamesBase64 header) :
    dataUri (header ++ "," ++ payload) = .ok payload.toUTF8.toList := by
  have hsplit : splitOnce? ',' (header ++ "," ++ payload) = some (header, payload) :=
    splitOnce?_append hcomma payload
  unfold dataUri
  rw [hsplit]
  dsimp only
  rw [if_neg (mt saysBase64_iff.mp hnames)]

theorem dataUri_of_no_comma {rest : String} (hcomma : ',' ∉ rest.toList) :
    dataUri rest = .error (.image .missingComma) := by
  unfold dataUri
  rw [splitOnce?_eq_none hcomma]

/-- **Inline data is what was written.**  Bytes come back from their base64 whatever padding it has
and whatever blanks stand in it, bare or behind a header that names base64.  Behind any other
header a text stands for its own bytes, and without a comma there is no data at all. -/
theorem inline_data_read :
    (∀ (bytes : List UInt8) (payload : String), Base64.Payload bytes payload →
      Base64.decodeLoosely payload = .ok bytes ∧
        ∀ header : String, ',' ∉ header.toList → NamesBase64 header →
          dataUri (header ++ "," ++ payload) = .ok bytes) ∧
      (∀ header payload : String, ',' ∉ header.toList → ¬NamesBase64 header →
        dataUri (header ++ "," ++ payload) = .ok payload.toUTF8.toList) ∧
      (∀ rest : String, ',' ∉ rest.toList → dataUri rest = .error (.image .missingComma)) := by
  refine ⟨fun bytes payload hpayload => ?_, fun header payload hcomma hnames => ?_,
    fun rest hcomma => dataUri_of_no_comma hcomma⟩
  · refine ⟨Base64.decodeLoosely_of_payload hpayload, fun header hcomma hnames => ?_⟩
    exact dataUri_of_names hcomma hnames hpayload
  · exact dataUri_of_not_names hcomma hnames

/-- Two bytes with a line break inside their base64 and a blank inside its padding, of which there
is too much; a text with a comma; and a text without. -/
theorem inline_data_read_wrapped :
    Base64.Payload [0x66, 0x6F] "Zm\n8= ==" ∧ NamesBase64 "image/png;BASE64" ∧
      ¬NamesBase64 "text/plain" ∧
      Base64.decodeLoosely "Zm\n8= ==" = .ok [0x66, 0x6F] ∧
      dataUri ("image/png;BASE64" ++ "," ++ "Zm\n8= ==") = .ok [0x66, 0x6F] ∧
      dataUri ("text/plain" ++ "," ++ "a,b") = .ok "a,b".toUTF8.toList ∧
      dataUri "Zm8=" = .error (.image .missingComma) := by
  obtain ⟨hbase64, htext, hnone⟩ := inline_data_read
  have hpayload : Base64.Payload [0x66, 0x6F] "Zm\n8= ==" := by
    refine ⟨3, ?_⟩
    have htext : (Base64.sextets [0x66, 0x6F]).map Base64.symbol = ['Z', 'm', '8'] := by decide
    have hlist : "Zm\n8= ==".toList = ['Z', 'm', '\n', '8', '=', ' ', '=', '='] :=
      String.toList_ofList
    rw [Base64.unpadded_eq, htext, hlist]
    refine .keep _ (.keep _ (.blank ?_ (.keep _ (.keep _ (.blank ?_ (.keep _ (.keep _ .nil)))))))
    · simp [Base64.blanks]
    · simp [Base64.blanks]
  have hnames : NamesBase64 "image/png;BASE64" := saysBase64_iff.mp (by decide)
  have hother : ¬NamesBase64 "text/plain" := fun h => by
    have hsays := saysBase64_iff.mpr h
    revert hsays
    decide
  obtain ⟨hbare, hbehind⟩ := hbase64 _ _ hpayload
  exact ⟨hpayload, hnames, hother, hbare, hbehind _ (by decide) hnames,
    htext _ _ (by decide) hother, hnone _ (by decide)⟩

end Receipt.Source
