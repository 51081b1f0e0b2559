/-
What ESC/POS bytes put on paper.

The reader finds instructions and a printer follows them.  A thing that is found in parts
does no more and no less than the thing at once, so merging changes nothing of what is
done, and bytes that are read as what was issued tell the printer the commands.

Of a raster less is needed for that than to read it back.  Pictures are not compared, so
the rows may be another number than the dimensions say, as long as they are whole rows:
data behind the last whole row would be taken for commands and text.
-/
import Receipt.Proofs.EscPos.Decode
import Receipt.Proofs.Printer.Paper

namespace Receipt

/-- The data of a raster comes in whole rows, of a size that printers can be told. -/
def Raster.WholeRows (r : Raster) : Prop :=
  r.data = [] ∨ (r.widthBytes ≤ Raster.maxRowBytes ∧ r.widthBytes ∣ r.data.length)

instance (r : Raster) : Decidable r.WholeRows :=
  inferInstanceAs (Decidable (_ ∨ _))

namespace EscPos

namespace Instruction

def modes (f : Format) : Instruction → Format
  | .reset => .default
  | .align a => { f with align := a }
  | .size s => { f with size := s }
  | .bold on => { f with bold := on }
  | _ => f

def prints (f : Format) : Instruction → List Event
  | .text bytes => bytes.map (Event.ofByte f.look)
  | .feed lines => List.replicate lines .advance
  | .cut c => [.cut c]
  | .raster rowBytes rows data => [.picture rowBytes rows data]
  | .codePage page => [.codePage page]
  | _ => []

end Instruction

/-- The printers of the dialect. -/
def printer : Printer Instruction Format :=
  { read? := read?, modes := Instruction.modes, prints := Instruction.prints, view := id }

/-! ### Parts and the whole -/

/-- The modes after instructions, and what they put on paper apart from pictures. -/
def effect (f : Format) (is : List Instruction) : Format × List Event :=
  (printer.after f is, Event.shared (printer.paper f is))

theorem effect_cons (f : Format) (i : Instruction) (is : List Instruction) :
    effect f (i :: is) = ((effect (i.modes f) is).1,
      Event.shared (i.prints f) ++ (effect (i.modes f) is).2) :=
  Prod.ext rfl (Event.shared_append _ _)

theorem effect_append (f : Format) (is ks : List Instruction) :
    effect f (is ++ ks) = ((effect (effect f is).1 ks).1,
      (effect f is).2 ++ (effect (effect f is).1 ks).2) := by
  unfold effect
  rw [Printer.after_append, Printer.paper_append, Event.shared_append]

theorem effect_absent {i : Instruction} (h : i.isAbsent = true) (f : Format)
    (is : List Instruction) : effect f (i :: is) = effect f is := by
  have hmodes : i.modes f = f := by cases i <;> simp_all [Instruction.isAbsent, Instruction.modes]
  have hprints : Event.shared (i.prints f) = [] := by
    cases i <;> simp_all [Instruction.isAbsent, Instruction.prints]
    rfl
  rw [effect_cons, hmodes, hprints]
  rfl

theorem effect_join {i k m : Instruction} (h : Instruction.join? i k = some m) (f : Format)
    (is : List Instruction) : effect f (m :: is) = effect f (i :: k :: is) := by
  rw [effect_cons, effect_cons, effect_cons]
  rcases join?_cases h with ⟨a, b, rfl, rfl, rfl⟩ | ⟨w, a, b, as, bs, rfl, rfl, rfl⟩ |
    ⟨as, bs, rfl, rfl, rfl⟩
  · simp [Instruction.modes, Instruction.prints, ← List.append_assoc]
  · rfl
  · simp [Instruction.modes, Instruction.prints]

theorem effect_push (f : Format) (i : Instruction) (is : List Instruction) :
    effect f (push i is) = effect f (i :: is) := by
  cases hi : i.isAbsent with
  | true => rw [push_absent hi, effect_absent hi]
  | false =>
      cases is with
      | nil => rw [push_nil hi]
      | cons k rest =>
          rw [push_cons hi]
          cases hj : Instruction.join? i k with
          | none => rfl
          | some m => exact effect_join hj f rest

/-- **Merged instructions do what they did before.** -/
theorem effect_merged (is : List Instruction) : ∀ f, effect f (merged is) = effect f is := by
  induction is with
  | nil => exact fun _ => rfl
  | cons i rest ih =>
      intro f
      rw [show merged (i :: rest) = push i (merged rest) from rfl, effect_push, effect_cons, ih,
        effect_cons]

/-! ### Commands -/

/-- A command is followed as what it was issued as, if its size is one that printers know. -/
theorem standFor_issued {c : Command} (h : ∀ s, c = .size s → s.Known) :
    printer.StandFor (issued c) [c] := by
  have hsize : ∀ s, c = .size s → s.clamped = s := fun s hs =>
    CharacterSize.clamped_eq_self (h s hs)
  constructor
  · intro f
    cases c with
    | size s =>
        show ({ f with size := s.clamped } : Format) = { f with size := s }
        rw [hsize s rfl]
    | _ => rfl
  · intro f
    rw [Format.paper_singleton]
    cases c <;> simp [issued, Printer.paper, printer, Instruction.prints, Command.paper] <;> rfl

theorem standFor_of_amountsTo {is : List Instruction} {c : Command}
    (h : ∀ s, c = .size s → s.Known) (hamounts : AmountsTo is (issued c)) :
    printer.StandFor is [c] := by
  have hstand := standFor_issued h
  have heffect (f : Format) : effect f is = effect f (issued c) := by
    rw [← effect_merged is, hamounts.merged_eq, effect_merged]
  exact ⟨fun f => (congrArg Prod.fst (heffect f)).trans (hstand.after f),
    fun f => (congrArg Prod.snd (heffect f)).trans (hstand.paper f)⟩

/-- A command that printers are told of by its bytes: a text without control characters
that start commands, a size that they know, or a raster of whole rows. -/
def Told : Command → Prop
  | .text s _ => CodePage.Plain s
  | .size s => s.Known
  | .raster r => r.WholeRows
  | _ => True

theorem tells_raster_nil {r : Raster} (h : r.data = []) :
    printer.Tells (raster r) [.raster r] := by
  have hraster : raster r = [] := by
    unfold raster parts
    rw [h]
    rfl
  rw [hraster]
  exact ⟨[], Printer.Finds.nil, fun _ => rfl, fun _ => rfl⟩

/-- The bytes of a raster do not depend on the number of rows that it claims to have. -/
theorem tells_raster {r : Raster} (h : r.WholeRows) : printer.Tells (raster r) [.raster r] := by
  rcases h with hnone | ⟨hbytes, hrows⟩
  · exact tells_raster_nil hnone
  · rcases Nat.eq_zero_or_pos r.widthBytes with hzero | hpos
    · rw [hzero] at hrows
      exact tells_raster_nil (List.eq_nil_of_length_eq_zero (Nat.zero_dvd.mp hrows))
    · obtain ⟨rows, hlen⟩ := hrows
      obtain ⟨is, hreads, hamounts⟩ :=
        reads_encode (c := .raster { r with height := rows }) ⟨hpos, hbytes, hlen⟩
      have hstand := standFor_of_amountsTo (c := .raster { r with height := rows }) (by simp)
        hamounts
      exact ⟨is, hreads, hstand.after, hstand.paper⟩

/-- **The bytes of a command tell printers the command.** -/
theorem tells_encode {c : Command} (h : Told c) : printer.Tells (encode c) [c] := by
  have told {c : Command} (hreadable : Readable c) (hsize : ∀ s, c = .size s → s.Known) :
      printer.Tells (encode c) [c] := by
    obtain ⟨is, hreads, hamounts⟩ := reads_encode hreadable
    exact ⟨is, hreads, standFor_of_amountsTo hsize hamounts⟩
  cases c with
  | text s page => exact told h (by simp)
  | size s => exact told trivial fun t ht => Command.size.inj ht ▸ h
  | raster r => exact tells_raster h
  | _ => exact told trivial (by simp)

/-- A reset behind other bytes is obeyed like any other, whether it was issued or spelled by
a text. -/
theorem leaves_reset {bytes text : List UInt8} {cs : List Command} (h : printer.Tells bytes cs)
    (htext : ∀ b ∈ text, b ≠ esc ∧ b ≠ gs) :
    printer.leaves (bytes ++ (text ++ [esc, 0x40])) = some .default := by
  obtain ⟨is, hread, -⟩ := h
  have hrest : printer.read? (text ++ [esc, 0x40])
      = some ((text.map fun b => .text [b]) ++ [.reset]) :=
    ((reads_text htext).append reads_reset).read?_eq
  unfold Printer.leaves
  rw [hread, hrest, Option.map_some, Option.map_some, Printer.after_append, Printer.after_append]
  rfl

end EscPos

end Receipt
