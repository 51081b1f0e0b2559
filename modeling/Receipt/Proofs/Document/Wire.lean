/-
Documents that are written and read again.

A reader takes more than a writer gives: tags in any case, parts that are missing, a list in place
of an object.  But what it makes of them is settled.  A known tag is one of the known kinds from
then on, any other tag is kept as it is, and a missing part is empty, so that writing the document
and reading it again changes nothing more.  The documents that come back from what they are written
as are exactly those that can come of reading at all.
-/
import Receipt.Proofs.Dict
import Receipt.Proofs.Document.Described

namespace Receipt

open Json (Origin Reading)

/-- A document all of whose kinds are settled. -/
inductive Node.Settled : Node → Prop
  | intro {n : Node} (kind : n.kind.Settled) (children : ∀ c ∈ n.children, c.Settled) : n.Settled

/-! ### What is read is settled -/

theorem exists_of_forall₂ {α β : Type} {R : α → β → Prop} {as : List α} {bs : List β}
    (h : List.Forall₂ R as bs) : ∀ b ∈ bs, ∃ a, R a b := by
  induction h with
  | nil => simp
  | cons hab _ ih => exact List.forall_mem_cons.mpr ⟨⟨_, hab⟩, ih⟩

/-- **Whatever a document is read from, its kinds are settled.** -/
theorem settled_of_readNode {n : Node} :
    ∀ {o : Origin} {r : Reading}, readNode o r = .ok n → n.Settled := by
  induction n using Node.of_children with
  | h n ih =>
      intro o r h
      obtain ⟨o', fields, -, -, hreads⟩ := readNode_ok h
      obtain ⟨_, -, hkind⟩ := hreads.kind
      obtain ⟨_, -, hmeant⟩ := readKind_ok hkind
      refine .intro hmeant.settled ?_
      have hchildren := hreads.children
      cases hwritten : fields.lookup .children with
      | none =>
          rw [hwritten] at hchildren
          have hnil : n.children = [] := hchildren
          simp [hnil]
      | some value =>
          rw [hwritten] at hchildren
          obtain ⟨items, o'', -, -, hitems⟩ := readNodes_ok hchildren
          intro c hc
          obtain ⟨r', hread⟩ := exists_of_forall₂ hitems c hc
          exact ih c hc hread

/-! ### What is written describes the document -/

theorem forall₂_nodesToJson {ns : List Node} (h : ∀ n ∈ ns, n.toJson.Describes n) :
    List.Forall₂ Json.Describes (nodesToJson ns) ns := by
  induction ns with
  | nil => exact .nil
  | cons n rest ih =>
      obtain ⟨hn, hrest⟩ := List.forall_mem_cons.mp h
      exact .cons hn (ih hrest)

/-- **A settled document is described by what it is written as.** -/
theorem describes_toJson {n : Node} (h : n.Settled) : n.toJson.Describes n := by
  induction n using Node.of_children with
  | h n ih =>
      obtain ⟨hkind, hchildren⟩ := h
      obtain ⟨kind, props, style, children⟩ := n
      have hwritten : (Node.mk kind props style children).toJson.fields? = some
          [(.children, .array (nodesToJson children)), (.props, .ofDict props),
            (.style, .ofDict style), (.kind, .string kind.tag)] := by
        rw [Node.toJson]
        rfl
      exact .intro hwritten (by simp) rfl hkind.meantBy rfl (Dict.ofList_entries props).symm rfl
        (Dict.ofList_entries style).symm rfl
        (forall₂_nodesToJson fun c hc => ih c hc (hchildren c hc))

/-! ### Writing and reading -/

theorem ofJson_iff_describes {v : Json} {n : Node} : Node.ofJson v = .ok n ↔ v.Describes n :=
  readNode_iff_describes

theorem ofJson_toJson {n : Node} (h : n.Settled) : Node.ofJson n.toJson = .ok n :=
  ofJson_iff_describes.mpr (describes_toJson h)

/-- **Documents survive being written.**  A document comes back from what it is written as exactly
if its kinds are settled, and they are in every document that is read, be it from a value or from
a text.  So one reading settles what there is to settle: a value is read as the document that it
describes, with a known tag in any case, any other tag as it is, and empty parts for those that are
missing. -/
theorem Node.reading_settles :
    (∀ n : Node, Node.ofJson n.toJson = .ok n ↔ n.Settled) ∧
      (∀ (v : Json) (n : Node), Node.ofJson v = .ok n ↔ v.Describes n) ∧
      (∀ (v : Json) (n : Node), Node.ofJson v = .ok n →
        n.Settled ∧ Node.ofJson n.toJson = .ok n) ∧
      (∀ (s : String) (n : Node), Node.parse s = .ok n →
        n.Settled ∧ Node.ofJson n.toJson = .ok n) := by
  refine ⟨fun n => ⟨settled_of_readNode, ofJson_toJson⟩, fun v n => ofJson_iff_describes,
    fun v n h => ?_, fun s n h => ?_⟩
  · have hsettled : n.Settled := settled_of_readNode h
    exact ⟨hsettled, ofJson_toJson hsettled⟩
  · obtain ⟨m, hread, hrest⟩ := bind_eq_ok h
    have hsettled : m.Settled := settled_of_readNode hread
    have hm : m = n := by
      dsimp only at hrest
      split at hrest
      · exact nomatch hrest
      · exact Except.ok.inj hrest
    subst hm
    exact ⟨hsettled, ofJson_toJson hsettled⟩

/-- A view whose tag is in capitals, with a child that is written as a list and of no known kind;
and a text that is nothing but its tag. -/
theorem Node.reading_settles_view :
    let v : Json := .object
      [("children", .array [.array [.string "QRcode"]]), ("id", .null), ("type", .string "VIEW")]
    let n : Node := (Node.ofKind .view).withChild (Node.ofKind (.other "QRcode"))
    Node.ofJson v = .ok n ∧ v.Describes n ∧ (n.Settled ∧ Node.ofJson n.toJson = .ok n) ∧
      Node.parse "[\"Text\"]" = .ok (Node.ofKind .text) ∧ (Node.ofKind .text).Settled := by
  intro v n
  have hvalue : Node.ofJson v = .ok n := by rfl
  have htoken : Reading.ofText "[\"Text\"]"
      = (.array (.next (.string (.ok "Text")) .done), some []) := by
    simp [Reading.ofText, Json.readValue, Json.readItems, Json.readItem, Json.skipBlanks,
      Json.scanString, Json.Scanned.push, Json.Scanned.text, Except.map]
  have htext : Node.parse "[\"Text\"]" = .ok (Node.ofKind .text) := by
    unfold Node.parse Json.ofText
    rw [htoken]
    rfl
  obtain ⟨-, hdescribes, hofJson, hparse⟩ := Node.reading_settles
  exact ⟨hvalue, (hdescribes v n).mp hvalue, hofJson v n hvalue, htext, (hparse _ _ htext).1⟩

end Receipt
