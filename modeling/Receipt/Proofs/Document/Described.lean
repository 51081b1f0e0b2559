/-
What a value says of a document.

A value that is there already is read without a break: what nobody asks for is passed over, and
fields that can be read one by one can be read one after the other.  So a value is read as a
document exactly if it describes that document, and what it is to describe one is said here without
the reader.
-/
import Receipt.Proofs.Document.Fields

namespace Receipt

open Json (Origin Reading Items Members reading readingItems readingMembers)

/-! ### Tags -/

namespace NodeKind

/-- The tags that have a meaning. -/
def knownTags : List String :=
  ["document", "page", "view", "text", "image", "textnode"]

/-- A kind that no tag means but its own: an unknown tag is not a known one in other letters. -/
def Settled : NodeKind → Prop
  | .other tag => Text.lower tag ∉ knownTags
  | _ => True

/-- The kind that a tag means: a known one whatever the case of its letters, and else the tag
itself, as it is written. -/
def MeantBy (tag : String) : NodeKind → Prop
  | .other kept => kept = tag ∧ Text.lower tag ∉ knownTags
  | kind => Text.lower tag = kind.tag

theorem MeantBy.settled {tag : String} {kind : NodeKind} (h : kind.MeantBy tag) : kind.Settled := by
  cases kind with
  | other kept =>
      obtain ⟨rfl, hunknown⟩ := h
      exact hunknown
  | _ => exact trivial

theorem lookup_known_eq_none_iff (name : String) : known.lookup name = none ↔ name ∉ knownTags := by
  rw [List.lookup_eq_none_iff]
  simp [known, knownTags]

theorem meantBy_ofTag (tag : String) : (ofTag tag).MeantBy tag := by
  unfold ofTag
  cases hknown : known.lookup (Text.lower tag) with
  | none => exact ⟨rfl, (lookup_known_eq_none_iff _).mp hknown⟩
  | some kind =>
      obtain ⟨before, after, hsplit, -⟩ := List.lookup_eq_some_iff.mp hknown
      have hmem : (Text.lower tag, kind) ∈ known := by
        rw [hsplit]
        simp
      simp only [known, List.mem_cons, Prod.mk.injEq, List.not_mem_nil, or_false] at hmem
      rcases hmem with ⟨h, rfl⟩ | ⟨h, rfl⟩ | ⟨h, rfl⟩ | ⟨h, rfl⟩ | ⟨h, rfl⟩ | ⟨h, rfl⟩ <;> exact h

/-- **A tag is read as the kind that it means**, and there is one. -/
theorem ofTag_eq_iff {tag : String} {kind : NodeKind} : ofTag tag = kind ↔ kind.MeantBy tag := by
  constructor
  · rintro rfl
    exact meantBy_ofTag tag
  · intro h
    unfold ofTag
    cases kind with
    | other kept =>
        obtain ⟨rfl, hunknown⟩ := h
        rw [(lookup_known_eq_none_iff _).mpr hunknown]
        rfl
    | _ =>
        have hlower : Text.lower tag = _ := h
        rw [hlower]
        rfl

/-- A settled kind is written as a tag that means it. -/
theorem Settled.meantBy {kind : NodeKind} (h : kind.Settled) : kind.MeantBy kind.tag := by
  cases kind with
  | other tag => exact ⟨rfl, h⟩
  | _ =>
      dsimp only [MeantBy, tag]
      decide

end NodeKind

/-! ### Values that are there already -/

variable {o : Origin}

theorem toList_readingItems (items : List Json) :
    (readingItems items).toList = items.map Json.reading := by
  induction items with
  | nil => rfl
  | cons item rest ih => rw [readingItems, Json.Items.toList, ih, List.map_cons]

theorem lookup_eq_some_of_mem {fields : List (NodeField × Reading)}
    (h : (fields.map Prod.fst).Nodup) : ∀ e ∈ fields, fields.lookup e.1 = some e.2 := by
  induction fields with
  | nil => simp
  | cons first rest ih =>
      rw [List.map_cons, List.nodup_cons] at h
      refine List.forall_mem_cons.mpr ⟨List.lookup_cons_self, fun e he => ?_⟩
      have hne : e.1 ≠ first.1 := fun heq => h.1 (heq ▸ List.mem_map_of_mem he)
      rw [List.lookup_cons, beq_eq_false_iff_ne.mpr hne]
      exact ih h.2 e he

/-- Fields that can be read one by one can be read one after the other. -/
theorem exists_gathers {p : NodeParts} {fields : List (NodeField × Reading)}
    (hfresh : ∀ f ∈ fields.map Prod.fst, p.has f = false) (hnodup : (fields.map Prod.fst).Nodup)
    (hread : ∀ e ∈ fields, ∀ p : NodeParts, ∃ q, p.read o e.2 e.1 = .ok q) :
    ∃ q, Gathers o p fields q := by
  induction fields generalizing p with
  | nil => exact ⟨p, .nothing p⟩
  | cons e rest ih =>
      rw [List.map_cons, List.forall_mem_cons] at hfresh
      rw [List.map_cons, List.nodup_cons] at hnodup
      obtain ⟨hfirst, hothers⟩ := List.forall_mem_cons.mp hread
      obtain ⟨q, hq⟩ := hfirst p
      have hstill : ∀ g ∈ rest.map Prod.fst, q.has g = false := by
        intro g hg
        rw [NodeParts.has_read hq, if_neg fun hge : g = e.1 => hnodup.1 (hge ▸ hg)]
        exact hfresh.2 g hg
      obtain ⟨r, hr⟩ := ih hstill hnodup.2 hothers
      exact ⟨r, .field hfresh.1 hq hr⟩

theorem ReadsAs.gathers {fields : List (NodeField × Reading)} {n : Node}
    (h : ReadsAs o fields n) : ∃ q, Gathers o .none fields q := by
  refine exists_gathers (fun f _ => ?_) h.once fun e he p => ?_
  · cases f <;> rfl
  · have hlookup := lookup_eq_some_of_mem h.once e he
    obtain ⟨f, value⟩ := e
    cases f with
    | kind =>
        obtain ⟨tag, htag, hread⟩ := h.kind
        obtain rfl := Option.some.inj (hlookup.symm.trans htag)
        exact ⟨_, NodeParts.read_eq_ok_iff.mpr ⟨_, hread, rfl⟩⟩
    | props =>
        have hread := h.props
        rw [hlookup] at hread
        exact ⟨_, NodeParts.read_eq_ok_iff.mpr ⟨_, hread, rfl⟩⟩
    | style =>
        have hread := h.style
        rw [hlookup] at hread
        exact ⟨_, NodeParts.read_eq_ok_iff.mpr ⟨_, hread, rfl⟩⟩
    | children =>
        have hread := h.children
        rw [hlookup] at hread
        exact ⟨_, NodeParts.read_eq_ok_iff.mpr ⟨_, hread, rfl⟩⟩

theorem readNodeMembers_of_gathers {p q : NodeParts} {members : List (String × Json)}
    (h : Gathers .value p (readingMembers members).fields q) :
    readNodeMembers .value p (readingMembers members) = q.node (.missingField "type") := by
  induction members generalizing p with
  | nil =>
      cases h
      rw [readingMembers, readNodeMembers]
  | cons e rest ih =>
      obtain ⟨key, value⟩ := e
      rw [readingMembers, Json.Members.fields] at h
      rw [readingMembers, readNodeMembers_next]
      cases hfield : NodeField.ofName? key with
      | none =>
          rw [hfield] at h
          rw [Json.skip_reading]
          exact ih h
      | some f =>
          rw [hfield] at h
          cases h with
          | field fresh read others =>
              dsimp only
              rw [fresh, read]
              exact ih others

theorem readNodeItems_of_gathers {p q : NodeParts} {items : List Json} {position : Nat}
    (hlength : items.length + position ≤ NodeField.all.length)
    (h : Gathers .value p ((NodeField.all.drop position).zip (readingItems items).toList) q) :
    ∃ missing, readNodeItems .value position p (readingItems items) = q.node missing := by
  induction items generalizing p position with
  | nil =>
      rw [readingItems, Json.Items.toList, List.zip_nil_right] at h
      cases h
      rw [readingItems, readNodeItems]
      exact ⟨_, rfl⟩
      simp
  | cons item rest ih =>
      rw [List.length_cons] at hlength
      have hlt : position < NodeField.all.length := by omega
      have hfield := List.getElem?_eq_getElem hlt
      rw [readingItems, Json.Items.toList, (NodeField.drop_all hfield).1] at h
      rw [readingItems, readNodeItems_next, hfield]
      cases h with
      | field fresh read others =>
          dsimp only
          rw [read]
          exact ih (by omega) others

/-- **In a value that is there already, fields that are read as a node are that node.** -/
theorem readNode_of_readsAs {v : Json} {fields : List (NodeField × Reading)} {n : Node}
    (hfields : v.reading.fields? = some fields) (h : ReadsAs .value fields n) :
    readNode .value v.reading = .ok n := by
  obtain ⟨q, hq⟩ := h.gathers
  cases v with
  | object members =>
      rw [reading] at hfields ⊢
      obtain rfl := Option.some.inj hfields
      rw [readNode]
      exact (readNodeMembers_of_gathers hq).trans (hq.node_eq_ok_iff.mpr h)
  | array items =>
      rw [reading] at hfields ⊢
      have hshort : (readingItems items).toList.length ≤ NodeField.all.length := by
        by_contra hlong
        rw [Json.Reading.fields?, if_neg hlong] at hfields
        simp at hfields
      rw [Json.Reading.fields?, if_pos hshort] at hfields
      obtain rfl := Option.some.inj hfields
      have hlength : items.length + 0 ≤ NodeField.all.length := by
        simpa [toList_readingItems] using hshort
      obtain ⟨missing, hitems⟩ : ∃ missing,
          readNodeItems .value 0 .none (readingItems items) = q.node missing :=
        readNodeItems_of_gathers hlength hq
      rw [readNode]
      exact hitems.trans (hq.node_eq_ok_iff.mpr h)
  | _ => simp [reading, Json.Reading.fields?] at hfields

/-! ### The fields of a value -/

/-- The fields of a node in a value: by name in an object, by place in a list. -/
def Json.fields? : Json → Option (List (NodeField × Json))
  | .object members => some (members.filterMap fun e => (NodeField.ofName? e.1).map (·, e.2))
  | .array items =>
    if items.length ≤ NodeField.all.length then some (NodeField.all.zip items) else none
  | _ => none

theorem fields_readingMembers (members : List (String × Json)) :
    (readingMembers members).fields
      = (members.filterMap fun e => (NodeField.ofName? e.1).map (·, e.2)).map
        fun e => (e.1, e.2.reading) := by
  induction members with
  | nil => rfl
  | cons e rest ih =>
      rw [readingMembers, Json.Members.fields, ih, List.filterMap_cons]
      cases NodeField.ofName? e.1 <;> rfl

/-- The fields of a value that is there already are read as they are. -/
theorem fields?_reading (v : Json) :
    v.reading.fields? = v.fields?.map fun fields => fields.map fun e => (e.1, e.2.reading) := by
  cases v with
  | object members =>
      rw [reading]
      exact congrArg some (fields_readingMembers members)
  | array items =>
      rw [reading]
      dsimp only [Json.Reading.fields?, Json.fields?]
      rw [toList_readingItems, List.length_map, List.zip_map_right]
      split <;> rfl
  | _ =>
      rw [reading]
      rfl

theorem lookup_map_reading (fields : List (NodeField × Json)) (f : NodeField) :
    (fields.map fun e => (e.1, e.2.reading)).lookup f = (fields.lookup f).map Json.reading := by
  induction fields with
  | nil => rfl
  | cons e rest ih =>
      rw [List.map_cons, List.lookup_cons, List.lookup_cons, ih]
      cases f == e.1 <;> rfl

/-! ### What a value says -/

/-- The document that a value stands for.  It is written in fields, none of them twice, of which
only the tag has to be there, and a missing one is as good as an empty one. -/
inductive Json.Describes : Json → Node → Prop
  | intro {v : Json} {n : Node} {fields : List (NodeField × Json)} {tag : String}
      {props style : List (String × Json)} {children : List Json}
      (written : v.fields? = some fields) (once : (fields.map Prod.fst).Nodup)
      (hasKind : fields.lookup .kind = some (.string tag)) (kind : n.kind.MeantBy tag)
      (hasProps : (fields.lookup .props).getD (.object []) = .object props)
      (props : n.props = .ofList props)
      (hasStyle : (fields.lookup .style).getD (.object []) = .object style)
      (style : n.style = .ofList style)
      (hasChildren : (fields.lookup .children).getD (.array []) = .array children)
      (children : List.Forall₂ Json.Describes children n.children) : v.Describes n

mutual

/-- What holds of a node when it holds of its children holds of every node. -/
theorem Node.of_children {P : Node → Prop} (h : ∀ n : Node, (∀ c ∈ n.children, P c) → P n) :
    ∀ n, P n
  | ⟨_, _, _, children⟩ => h _ (Node.forall_of_children h children)

theorem Node.forall_of_children {P : Node → Prop}
    (h : ∀ n : Node, (∀ c ∈ n.children, P c) → P n) : ∀ ns : List Node, ∀ c ∈ ns, P c
  | [] => fun _ hc => nomatch hc
  | n :: rest => List.forall_mem_cons.mpr ⟨Node.of_children h n, Node.forall_of_children h rest⟩

end

theorem readKind_ok {r : Reading} {kind : NodeKind} (h : readKind r = .ok kind) :
    ∃ tag, r.asString = .ok tag ∧ kind.MeantBy tag := by
  unfold readKind at h
  cases htag : r.asString with
  | error e =>
      rw [htag] at h
      exact nomatch h
  | ok tag =>
      rw [htag] at h
      exact ⟨tag, rfl, NodeKind.ofTag_eq_iff.mp (Except.ok.inj h)⟩

theorem readKind_string_iff {value : Json} {kind : NodeKind} :
    readKind value.reading = .ok kind ↔ ∃ tag, value = .string tag ∧ kind.MeantBy tag := by
  constructor
  · intro h
    obtain ⟨tag, hvalue, hmeant⟩ := readKind_ok h
    exact ⟨tag, Json.eq_string_of_asString hvalue, hmeant⟩
  · rintro ⟨tag, rfl, hmeant⟩
    rw [reading]
    exact congrArg Except.ok (NodeKind.ofTag_eq_iff.mpr hmeant)

theorem partReads_dict_iff {written : Option Json} {d : Dict Json} :
    PartReads (Reading.asDict .value) .empty (written.map Json.reading) d ↔
      ∃ members, written.getD (.object []) = .object members ∧ d = .ofList members := by
  cases written with
  | none =>
      constructor
      · intro h
        exact ⟨[], rfl, h⟩
      · rintro ⟨members, hmembers, rfl⟩
        obtain rfl := Json.object.inj hmembers
        rfl
  | some value =>
      constructor
      · exact Json.eq_object_of_asDict
      · rintro ⟨members, hmembers, rfl⟩
        obtain rfl : value = .object members := hmembers
        exact Json.asDict_reading_object members

theorem readNodeList_readingItems_iff {items : List Json} {ns : List Node} :
    readNodeList .value (readingItems items) = .ok ns ↔
      List.Forall₂ (fun v n => readNode .value v.reading = .ok n) items ns := by
  constructor
  · intro h
    have hitems := readNodeList_ok h
    rwa [toList_readingItems, List.forall₂_map_left_iff] at hitems
  · intro h
    induction h with
    | nil => rw [readingItems, readNodeList]
    | cons hn _ ih =>
        rw [readingItems, readNodeList, hn, ih]
        rfl

theorem partReads_children_iff {written : Option Json} {ns : List Node} :
    PartReads (readNodes .value) [] (written.map Json.reading) ns ↔
      ∃ items, written.getD (.array []) = .array items ∧
        List.Forall₂ (fun v n => readNode .value v.reading = .ok n) items ns := by
  cases written with
  | none =>
      constructor
      · intro h
        obtain rfl : ns = [] := h
        exact ⟨[], rfl, .nil⟩
      · rintro ⟨items, hitems, hread⟩
        obtain rfl := Json.array.inj hitems
        exact List.forall₂_nil_left_iff.mp hread
  | some value =>
      constructor
      · intro h
        obtain ⟨_, o', harray, henter, -⟩ := readNodes_ok h
        cases value with
        | array items =>
            refine ⟨items, rfl, readNodeList_readingItems_iff.mp ?_⟩
            rw [Option.map_some, reading] at h
            exact h
        | _ =>
            rw [reading] at harray
            exact nomatch harray
      · rintro ⟨items, hitems, hread⟩
        obtain rfl : value = .array items := hitems
        rw [Option.map_some, reading]
        exact readNodeList_readingItems_iff.mpr hread

/-- A value is read as a node by its fields. -/
theorem readNode_reading_iff {v : Json} {n : Node} :
    readNode .value v.reading = .ok n ↔
      ∃ fields, v.fields? = some fields ∧
        ReadsAs .value (fields.map fun e => (e.1, e.2.reading)) n := by
  constructor
  · intro h
    obtain ⟨o', _, henter, hread, hreads⟩ := readNode_ok h
    obtain rfl : .value = o' := Except.ok.inj henter
    rw [fields?_reading] at hread
    obtain ⟨fields, hfields, rfl⟩ := Option.map_eq_some_iff.mp hread
    exact ⟨fields, hfields, hreads⟩
  · rintro ⟨fields, hfields, hreads⟩
    refine readNode_of_readsAs ?_ hreads
    rw [fields?_reading, hfields]
    rfl

theorem forall₂_imp_mem {α β : Type} {R S : α → β → Prop} {as : List α} {bs : List β}
    (h : List.Forall₂ R as bs) (himp : ∀ b ∈ bs, ∀ {a}, R a b → S a b) : List.Forall₂ S as bs := by
  induction h with
  | nil => exact .nil
  | cons hab _ ih =>
      obtain ⟨hfirst, hrest⟩ := List.forall_mem_cons.mp himp
      exact .cons (hfirst hab) (ih hrest)

theorem map_fst_reading (fields : List (NodeField × Json)) :
    (fields.map fun e => (e.1, e.2.reading)).map Prod.fst = fields.map Prod.fst :=
  List.map_map

/-- **A value is read as a document exactly if it describes that document.** -/
theorem readNode_iff_describes {n : Node} :
    ∀ {v : Json}, readNode .value v.reading = .ok n ↔ v.Describes n := by
  induction n using Node.of_children with
  | h n ih =>
      intro v
      rw [readNode_reading_iff]
      constructor
      · rintro ⟨fields, hfields, hreads⟩
        obtain ⟨honce, ⟨written, hwritten, hkind⟩, hprops, hstyle, hchildren⟩ := hreads
        rw [map_fst_reading] at honce
        rw [lookup_map_reading] at hwritten hprops hstyle hchildren
        obtain ⟨value, hvalue, rfl⟩ := Option.map_eq_some_iff.mp hwritten
        obtain ⟨tag, rfl, hmeant⟩ := readKind_string_iff.mp hkind
        obtain ⟨props, hasProps, hprops⟩ := partReads_dict_iff.mp hprops
        obtain ⟨style, hasStyle, hstyle⟩ := partReads_dict_iff.mp hstyle
        obtain ⟨children, hasChildren, hchildren⟩ := partReads_children_iff.mp hchildren
        exact .intro hfields honce hvalue hmeant hasProps hprops hasStyle hstyle hasChildren
          (forall₂_imp_mem hchildren fun c hc _ => (ih c hc).mp)
      · intro h
        obtain ⟨hfields, honce, hvalue, hmeant, hasProps, hprops, hasStyle, hstyle, hasChildren,
          hchildren⟩ := h
        refine ⟨_, hfields, ?_, ⟨_, ?_, readKind_string_iff.mpr ⟨_, rfl, hmeant⟩⟩, ?_, ?_, ?_⟩
        · rwa [map_fst_reading]
        · rw [lookup_map_reading, hvalue]
          rfl
        · rw [lookup_map_reading]
          exact partReads_dict_iff.mpr ⟨_, hasProps, hprops⟩
        · rw [lookup_map_reading]
          exact partReads_dict_iff.mpr ⟨_, hasStyle, hstyle⟩
        · rw [lookup_map_reading]
          exact partReads_children_iff.mpr ⟨_, hasChildren,
            forall₂_imp_mem hchildren fun c hc _ => (ih c hc).mpr⟩

end Receipt
