/-
The texts in a document.

A text is what a node of text holds in its properties.  Everything that is printed of a
document in letters comes from these texts, so what holds of all their characters holds
of the text of any node, which is theirs put one after the other.
-/
import Receipt.Document.Node

namespace Receipt

mutual

/-- The texts of a node and of all nodes below it. -/
def Node.texts : Node → List String
  | ⟨kind, props, style, children⟩ =>
    (if kind.isText then (Node.mk kind props style children).ownText?.toList else []) ++
      textsOf children

def textsOf : List Node → List String
  | [] => []
  | n :: rest => n.texts ++ textsOf rest

end

/-- All characters of the texts have a property. -/
def TextsIn (P : Char → Prop) (texts : List String) : Prop :=
  ∀ s ∈ texts, ∀ c ∈ s.toList, P c

theorem textsIn_append {P : Char → Prop} {as bs : List String} :
    TextsIn P (as ++ bs) ↔ TextsIn P as ∧ TextsIn P bs := by
  unfold TextsIn
  simp only [List.mem_append, or_imp, forall_and]

section

variable {P : Char → Prop}

theorem Node.textsIn_children {n : Node} (h : TextsIn P n.texts) :
    TextsIn P (textsOf n.children) := by
  obtain ⟨kind, props, style, children⟩ := n
  rw [texts] at h
  exact (textsIn_append.mp h).2

theorem Node.textsIn_own {n : Node} (h : TextsIn P n.texts) (htext : n.kind.isText = true)
    {s : String} (hs : n.ownText? = some s) : ∀ c ∈ s.toList, P c := by
  obtain ⟨kind, props, style, children⟩ := n
  rw [texts, if_pos htext, hs] at h
  exact (textsIn_append.mp h).1 s (by simp)

theorem textsIn_cons {n : Node} {rest : List Node} (h : TextsIn P (textsOf (n :: rest))) :
    TextsIn P n.texts ∧ TextsIn P (textsOf rest) := by
  rw [textsOf] at h
  exact textsIn_append.mp h

mutual

/-- **The text of a node is made of its texts.** -/
theorem Node.forall_mem_textContent : ∀ n : Node, n.kind.isText = true → TextsIn P n.texts →
    ∀ c ∈ n.textContent.toList, P c
  | ⟨kind, props, style, children⟩, htext, h => by
      have hown := fun s => Node.textsIn_own (s := s) h htext
      have hchildren := forall_mem_textContents children (Node.textsIn_children h)
      unfold Node.textContent
      split
      · rename_i s hs
        exact hown s hs
      · exact hchildren

theorem forall_mem_textContents : ∀ ns : List Node, TextsIn P (textsOf ns) →
    ∀ c ∈ (textContents ns).toList, P c
  | [], _ => by simp [textContents]
  | n :: rest, h => by
      obtain ⟨hn, hrest⟩ := textsIn_cons h
      have htail := forall_mem_textContents rest hrest
      rw [textContents]
      split
      · rename_i htext
        intro c hc
        rw [String.toList_append, List.mem_append] at hc
        exact hc.elim (Node.forall_mem_textContent n htext hn c) (htail c)
      · exact htail

end

end

end Receipt
