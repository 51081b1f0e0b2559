/-
Entries that nothing reads are as good as absent.

A document is tidied by leaving out entries of styles that mean nothing, here and there or
everywhere.  Every style keeps its meaning, so every node matches what becomes of it, and
by the congruence the whole document does.
-/
import Receipt.Proofs.Style.Readable

namespace Receipt

/-- A node with some entries left out of its style and of those below it, none of them
readable. -/
inductive Node.Tidied : Node → Node → Prop
  | node {kind props style style' children children'} (hstyle : style.Tidied style')
      (hchildren : List.Forall₂ Node.Tidied children children') :
      Node.Tidied ⟨kind, props, style, children⟩ ⟨kind, props, style', children'⟩

mutual

theorem Node.Tidied.matches_node {n m : Node} : n.Tidied m → n.Matches m
  | .node hstyle hchildren =>
      Node.matches_of_children (matches_of_tidied hchildren) _ _ hstyle.matches_style

theorem matches_of_tidied {ns ms : List Node} :
    List.Forall₂ Node.Tidied ns ms → List.Forall₂ Node.Matches ns ms
  | .nil => .nil
  | .cons hn hrest => .cons hn.matches_node (matches_of_tidied hrest)

end

namespace Convert

/-- **An entry that cannot be read is an entry that is not there.**  A document with some
of them left out is printed as the same bytes for every dialect, with all options and
images, and asks for the same images. -/
theorem render_tidied {root root' : Node} (h : root.Tidied root') :
    (∀ (o : Options) (d : Dialect) (images : ImageCache),
      render root' o d images = render root o d images) ∧
    ∀ paperWidth, root'.imageRequests paperWidth = root.imageRequests paperWidth :=
  ⟨h.matches_node.render, h.matches_node.imageRequests⟩

/-- A document with a style of which three entries mean nothing: an unknown name, an
alignment that there is not, and a distance that is no number. -/
def careless : Node :=
  (Node.view [Node.ofText "Total"]).withStyle
    (Dict.ofList [("colour", .string "red"), ("fontSize", .string "30px"),
      ("marginTop", .string "wide"), ("textAlign", .string "middle")])

/-- The same document without them. -/
def careful : Node :=
  (Node.view [Node.ofText "Total"]).withStyle (Dict.ofList [("fontSize", .string "30px")])

theorem render_tidied_careless :
    careless.Tidied careful ∧
    render careful .default EscPos.dialect [] = render careless .default EscPos.dialect [] := by
  have hcolour : ¬Style.Readable "colour" (.string "red") := by
    intro h
    cases h <;> simp_all
  have htop : ¬Style.Readable "marginTop" (.string "wide") := by
    have hlength : Style.length? (.string "wide") = none := rfl
    intro h
    cases h <;> simp_all
  have halign : ¬Style.Readable "textAlign" (.string "middle") := by
    intro h
    cases h with
    | align _ hname => exact absurd hname (by decide)
    | _ => simp_all
  have hentries : careless.style.entries = [("colour", .string "red"),
      ("fontSize", .string "30px"), ("marginTop", .string "wide"),
      ("textAlign", .string "middle")] := rfl
  have hentries' : careful.style.entries = [("fontSize", .string "30px")] := rfl
  have hstyle : careless.style.Tidied careful.style := by
    constructor
    · rw [hentries, hentries']
      simp
    · rw [hentries, hentries']
      simp [hcolour, htop, halign]
  have htidied : careless.Tidied careful := by
    refine .node hstyle (.cons ?_ .nil)
    exact .node ⟨fun _ he => he, fun _ he hnot => absurd he hnot⟩ .nil
  exact ⟨htidied, (render_tidied htidied).1 _ _ _⟩

end Convert

end Receipt
