/-
What white rasters put on paper besides white.

A white raster is made at any width, and its header tells the bytes of a row in 16 bits.
Of a row that takes more the printer takes the lowest 16 bits of its size for the whole
row.  The rest of the data is text to it: NUL characters, as many as the header leaves out,
for every row of every band.
-/
import Receipt.Proofs.EscPos.Paper

namespace Receipt.EscPos

/-- The printer finds in the bytes what leads to the same formatting as the commands, and
puts a number of events more on paper than they do. -/
def Exceeds (bytes : List UInt8) (cs : List Command) (count : Nat) : Prop :=
  ∃ is, printer.Finds bytes is ∧ ∀ f : Format, (effect f is).1 = f.after cs ∧
    (effect f is).2.length = (f.paper cs).length + count

theorem Exceeds.append {as bs : List UInt8} {cs ds : List Command} {m n : Nat}
    (h : Exceeds as cs m) (h' : Exceeds bs ds n) : Exceeds (as ++ bs) (cs ++ ds) (m + n) := by
  obtain ⟨is, hfinds, heffect⟩ := h
  obtain ⟨ks, hfinds', heffect'⟩ := h'
  refine ⟨is ++ ks, hfinds.append hfinds', fun f => ?_⟩
  obtain ⟨hafter, hlen⟩ := heffect f
  obtain ⟨hafter', hlen'⟩ := heffect' (f.after cs)
  rw [effect_append, Format.after_append, Format.paper_append, hafter]
  refine ⟨hafter', ?_⟩
  simp only [List.length_append, hlen, hlen']
  omega

end Receipt.EscPos
