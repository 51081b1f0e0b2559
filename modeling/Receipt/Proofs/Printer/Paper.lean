/-
What comes to stand on the paper.

A family of printers has a grammar for the bytes it is sent, modes of its own and a way
to print in them.  `Printer` holds the three, and with them how the family sees a
formatting: one that can only double its characters does not tell a size of 2 from one
of 8.  What is on the paper is told in events that all families have in common.

`Tells` compares bytes with commands.  Bytes tell a printer the commands if, read with
anything behind them, they leave it in the modes that the commands leave, and put on the
paper what the commands put there, pictures and code pages apart.  Stated like that it
composes, so a dialect has to show it of the bytes of one command only.
-/
import Receipt.Printer.Dialect
import Receipt.Proofs.Printer.Modes

namespace Receipt

/-- How a character on paper looks. -/
structure Look where
  align : Alignment
  wide : Bool
  tall : Bool
  bold : Bool
  deriving DecidableEq, Repr

namespace Format

/-- The looks of what is printed in a formatting.  Magnified characters count as doubled. -/
def look (f : Format) : Look :=
  ⟨f.align, decide (1 < f.size.width), decide (1 < f.size.height), f.bold⟩

end Format

/-- One thing that a printer does. -/
inductive Event where
  | byte (look : Look) (b : UInt8)
  /-- The paper advances by a line. -/
  | advance
  | cut (c : Cut)
  | picture (rowBytes rows : Nat) (data : List UInt8)
  | codePage (page : CodePage)
  deriving DecidableEq, Repr

namespace Event

/-- What a byte of text does: it is printed, unless it ends the line. -/
def ofByte (look : Look) (b : UInt8) : Event :=
  if b = lineFeed then .advance else .byte look b

/-- Whether every family of printers can do it. -/
def isShared : Event → Bool
  | .picture .. | .codePage _ => false
  | _ => true

/-- Events without pictures and selections of code pages. -/
def shared (es : List Event) : List Event :=
  es.filter isShared

@[simp] theorem shared_nil : shared [] = [] := rfl

@[simp] theorem shared_append (as bs : List Event) :
    shared (as ++ bs) = shared as ++ shared bs := by
  simp [shared]

theorem shared_eq_self {es : List Event} (h : ∀ e ∈ es, e.isShared = true) : shared es = es :=
  List.filter_eq_self.mpr h

@[simp] theorem shared_ofByte (look : Look) (bytes : List UInt8) :
    shared (bytes.map (ofByte look)) = bytes.map (ofByte look) := by
  refine shared_eq_self fun e he => ?_
  obtain ⟨b, -, rfl⟩ := List.mem_map.mp he
  unfold ofByte
  split <;> rfl

@[simp] theorem shared_advances (lines : Nat) :
    shared (List.replicate lines advance) = List.replicate lines advance := by
  refine shared_eq_self fun e he => ?_
  rw [(List.mem_replicate.mp he).2]
  rfl

end Event

/-! ### Commands -/

/-- What a command puts on paper that has nothing to do with pictures. -/
def Command.paper (f : Format) : Command → List Event
  | .text s page => (page.encode s).map (Event.ofByte f.look)
  | .feed lines => List.replicate lines .advance
  | .cut c lines => List.replicate lines .advance ++ [.cut c]
  | _ => []

namespace Format

/-- What commands put on the paper of a printer in the given formatting. -/
def paper (f : Format) (cs : List Command) : List Event :=
  (executed f cs).flatMap fun e => e.2.paper e.1

@[simp] theorem paper_nil (f : Format) : f.paper [] = [] := rfl

theorem paper_append (f : Format) (as bs : List Command) :
    f.paper (as ++ bs) = f.paper as ++ (f.after as).paper bs := by
  unfold paper
  rw [executed_append, List.flatMap_append]

/-- Changing a mode puts nothing on paper. -/
theorem paper_singleton (f : Format) (c : Command) : f.paper [c] = c.paper f := by
  cases c <;> simp [paper, executed, Command.isMode, Command.paper]

end Format

/-! ### Printers -/

/-- A family of printers with instructions `ι` and modes `σ`. -/
structure Printer (ι σ : Type) where
  /-- What the bytes say, if they can be read to their end. -/
  read? : List UInt8 → Option (List ι)
  modes : σ → ι → σ
  prints : σ → ι → List Event
  /-- A formatting as the family knows it. -/
  view : Format → σ

namespace Printer

variable {ι σ : Type} (p : Printer ι σ)

def after (s : σ) (is : List ι) : σ :=
  is.foldl p.modes s

/-- What instructions put on the paper of a printer in the given modes. -/
def paper (s : σ) : List ι → List Event
  | [] => []
  | i :: rest => p.prints s i ++ paper (p.modes s i) rest

/-- The modes that bytes leave a printer in which has just been switched on. -/
def leaves (bytes : List UInt8) : Option σ :=
  (p.read? bytes).map (p.after (p.view .default))

theorem after_append (s : σ) (is ks : List ι) :
    p.after s (is ++ ks) = p.after (p.after s is) ks := by
  unfold after
  rw [List.foldl_append]

theorem paper_append (s : σ) (is ks : List ι) :
    p.paper s (is ++ ks) = p.paper s is ++ p.paper (p.after s is) ks := by
  induction is generalizing s with
  | nil => rfl
  | cons i rest ih =>
      rw [List.cons_append, paper, paper, ih, List.append_assoc]
      rfl

/-- The instructions stand for the commands: from any formatting they lead to the same one
and put the same on paper, pictures and code pages apart. -/
structure StandFor (is : List ι) (cs : List Command) : Prop where
  after : ∀ f : Format, p.after (p.view f) is = p.view (f.after cs)
  paper : ∀ f : Format, Event.shared (p.paper (p.view f) is) = f.paper cs

/-- The printer finds the instructions in the bytes, whatever is behind them, and goes on. -/
def Finds (bytes : List UInt8) (is : List ι) : Prop :=
  ∀ rest, p.read? (bytes ++ rest) = (p.read? rest).map (is ++ ·)

/-- The printer finds in the bytes what stands for the commands. -/
def Tells (bytes : List UInt8) (cs : List Command) : Prop :=
  ∃ is, p.Finds bytes is ∧ p.StandFor is cs

variable {p}

theorem Finds.nil : p.Finds [] [] := by
  intro rest
  simp

theorem Finds.append {as bs : List UInt8} {is ks : List ι} (h : p.Finds as is)
    (h' : p.Finds bs ks) : p.Finds (as ++ bs) (is ++ ks) := by
  intro rest
  rw [List.append_assoc, h, h', Option.map_map]
  congr 1
  funext l
  exact (List.append_assoc is ks l).symm

theorem StandFor.append {is ks : List ι} {as bs : List Command} (h : p.StandFor is as)
    (h' : p.StandFor ks bs) : p.StandFor (is ++ ks) (as ++ bs) where
  after f := by rw [after_append, h.after, h'.after, Format.after_append]
  paper f := by
    rw [paper_append, Event.shared_append, h.paper, h.after, h'.paper, Format.paper_append]

theorem Tells.nil : p.Tells [] [] :=
  ⟨[], Finds.nil, fun _ => rfl, fun _ => rfl⟩

theorem Tells.append {as bs : List UInt8} {cs ds : List Command} (h : p.Tells as cs)
    (h' : p.Tells bs ds) : p.Tells (as ++ bs) (cs ++ ds) := by
  obtain ⟨is, hfinds, hstand⟩ := h
  obtain ⟨ks, hfinds', hstand'⟩ := h'
  exact ⟨is ++ ks, hfinds.append hfinds', hstand.append hstand'⟩

/-- A dialect whose bytes tell of each command tells of all. -/
theorem tells_encodeAll {d : Dialect} {cs : List Command}
    (h : ∀ c ∈ cs, p.Tells (d.encode c) [c]) : p.Tells (d.encodeAll cs) cs := by
  induction cs with
  | nil => exact Tells.nil
  | cons c rest ih => exact (h c (by simp)).append (ih fun c' hc' => h c' (by simp [hc']))

theorem Tells.leaves_eq (hnil : p.read? [] = some []) {bytes : List UInt8} {cs : List Command}
    (h : p.Tells bytes cs) : p.leaves bytes = some (p.view (Format.default.after cs)) := by
  obtain ⟨is, hread, hstand⟩ := h
  have hall := hread []
  rw [List.append_nil, hnil] at hall
  unfold leaves
  rw [hall]
  simp [hstand.after]

end Printer

end Receipt
