/-
What ESC/Bematech bytes put on paper.

A printer of this family reads commands of `ESC` and one byte, which take no parameter,
and commands of `ESC` and two.  Bytes that mean something else to ESC/POS printers are
read its own way here: `ESC E` is emphasis and nothing more, `ESC d` is followed by a
flag, and any byte but `ESC` is text.  Lines are fed by the byte that ends a line, one
at a time.

The modes are the looks of what is printed, since sizes are not told apart any further.
There is no picture and no code page to be told of, and the dialect sends nothing for
them.
-/
import Receipt.Printer.Bematech
import Receipt.Proofs.EscPos.Reader
import Receipt.Proofs.Printer.CodePage
import Receipt.Proofs.Printer.Paper

namespace Receipt.Bematech

/-- One thing that a stream tells a printer. -/
inductive Instruction where
  | reset
  | align (a : Alignment)
  | wide (on : Bool)
  | tall (on : Bool)
  | bold (on : Bool)
  | cut (c : Cut)
  | byte (b : UInt8)
  deriving DecidableEq, Repr

/-! ### The reader -/

/-- The command `ESC c`, if it takes no parameter. -/
def shortInstruction? (c : UInt8) : Option Instruction :=
  if c = 0x40 then some .reset
  else if c = 0x45 then some (.bold true)
  else if c = 0x46 then some (.bold false)
  else if c = 0x77 then some (.cut .full)
  else if c = 0x6D then some (.cut .partly)
  else none

/-- The command `ESC c n`. -/
def longInstruction? (c n : UInt8) : Option Instruction :=
  if c = 0x61 then (EscPos.alignmentOf? n).map .align
  else if c = 0x57 then (EscPos.flagOf? n).map .wide
  else if c = 0x64 then (EscPos.flagOf? n).map .tall
  else none

/-- What a whole stream says, if it can be read to its end. -/
def read? : List UInt8 → Option (List Instruction)
  | [] => some []
  | b :: rest =>
    if b = esc then
      match rest with
      | [] => none
      | c :: rest =>
        match shortInstruction? c with
        | some i => (read? rest).map (i :: ·)
        | none =>
          match rest with
          | [] => none
          | n :: rest =>
            match longInstruction? c n with
            | some i => (read? rest).map (i :: ·)
            | none => none
    else (read? rest).map (.byte b :: ·)

namespace Instruction

def modes (look : Look) : Instruction → Look
  | .reset => Format.default.look
  | .align a => { look with align := a }
  | .wide on => { look with wide := on }
  | .tall on => { look with tall := on }
  | .bold on => { look with bold := on }
  | _ => look

def prints (look : Look) : Instruction → List Event
  | .byte b => [Event.ofByte look b]
  | .cut c => [.cut c]
  | _ => []

end Instruction

/-- The printers of the dialect. -/
def printer : Printer Instruction Look :=
  { read? := read?, modes := Instruction.modes, prints := Instruction.prints
    view := Format.look }

/-! ### Reading -/

theorem finds_short {c : UInt8} {i : Instruction} (h : shortInstruction? c = some i) :
    printer.Finds [esc, c] [i] := by
  intro rest
  show read? (esc :: c :: rest) = _
  rw [read?.eq_def]
  simp only [if_true, h]
  rfl

theorem finds_long {c n : UInt8} {i : Instruction} (hshort : shortInstruction? c = none)
    (h : longInstruction? c n = some i) : printer.Finds [esc, c, n] [i] := by
  intro rest
  show read? (esc :: c :: n :: rest) = _
  rw [read?.eq_def]
  simp only [if_true, hshort, h]
  rfl

theorem finds_bytes {bytes : List UInt8} (h : ∀ b ∈ bytes, b ≠ esc) :
    printer.Finds bytes (bytes.map .byte) := by
  induction bytes with
  | nil => exact Printer.Finds.nil
  | cons b tail ih =>
      have hone : printer.Finds [b] [.byte b] := by
        intro rest
        show read? (b :: rest) = _
        rw [read?.eq_def]
        simp only [if_neg (h b (by simp))]
        rfl
      exact hone.append (ih fun c hc => h c (by simp [hc]))

theorem finds_lineFeeds (lines : Nat) :
    printer.Finds (List.replicate lines lineFeed)
      ((List.replicate lines lineFeed).map .byte) := by
  refine finds_bytes fun b hb => ?_
  rw [(List.mem_replicate.mp hb).2]
  decide

/-! ### Printing -/

theorem after_bytes (look : Look) (bytes : List UInt8) :
    printer.after look (bytes.map .byte) = look := by
  induction bytes with
  | nil => rfl
  | cons b tail ih => exact ih

theorem paper_bytes (look : Look) (bytes : List UInt8) :
    printer.paper look (bytes.map .byte) = bytes.map (Event.ofByte look) := by
  induction bytes with
  | nil => rfl
  | cons b tail ih => exact congrArg (Event.ofByte look b :: ·) ih

theorem paper_lineFeeds (look : Look) (lines : Nat) :
    printer.paper look ((List.replicate lines lineFeed).map .byte)
      = List.replicate lines .advance := by
  rw [paper_bytes, List.map_replicate]
  rfl

/-! ### Commands -/

/-- A text is told by its bytes if none of them starts a command. -/
theorem tells_text {s : String} (h : CodePage.Plain s) (page : CodePage) :
    printer.Tells (page.encode s) [.text s page] := by
  refine ⟨_, finds_bytes fun b hb => (CodePage.encode_plain h b hb).1, fun f => ?_, fun f => ?_⟩
  · exact after_bytes _ _
  · rw [paper_bytes, Event.shared_ofByte, Format.paper_singleton]
    rfl

theorem tells_feed (lines : Nat) :
    printer.Tells (List.replicate lines lineFeed) [.feed lines] := by
  refine ⟨_, finds_lineFeeds lines, fun f => ?_, fun f => ?_⟩
  · exact after_bytes _ _
  · rw [paper_lineFeeds, Event.shared_advances, Format.paper_singleton]
    rfl

theorem tells_cut (c : Cut) (lines : Nat) :
    printer.Tells (encode (.cut c lines)) [.cut c lines] := by
  have hcut : printer.Finds (encode (.cut c lines))
      ((List.replicate lines lineFeed).map .byte ++ [.cut c]) := by
    cases c with
    | full => exact (finds_lineFeeds lines).append (finds_short rfl)
    | partly => exact (finds_lineFeeds lines).append (finds_short rfl)
  refine ⟨_, hcut, fun f => ?_, fun f => ?_⟩
  · rw [Printer.after_append, after_bytes]
    rfl
  · rw [Printer.paper_append, paper_lineFeeds, Event.shared_append, Event.shared_advances,
      Format.paper_singleton]
    rfl

/-- Both magnifications are told as flags. -/
theorem tells_size (s : CharacterSize) : printer.Tells (size s) [.size s] := by
  have hwide : printer.Finds [esc, 0x57, flagByte (1 < s.width)] [.wide (1 < s.width)] :=
    finds_long rfl (by cases decide (1 < s.width) <;> rfl)
  have htall : printer.Finds [esc, 0x64, flagByte (1 < s.height)] [.tall (1 < s.height)] :=
    finds_long rfl (by cases decide (1 < s.height) <;> rfl)
  exact ⟨_, hwide.append htall, fun f => rfl, fun f => rfl⟩

/-- **The bytes of a command tell printers the command.** -/
theorem tells_encode {c : Command} (h : ∀ s page, c = .text s page → CodePage.Plain s) :
    printer.Tells (encode c) [c] := by
  -- A change of mode is one instruction and puts nothing on paper.
  have short {b : UInt8} {i : Instruction} {c : Command} (hi : shortInstruction? b = some i)
      (hstand : printer.StandFor [i] [c]) : printer.Tells [esc, b] [c] :=
    ⟨_, finds_short hi, hstand⟩
  cases c with
  | reset => exact short rfl ⟨fun f => rfl, fun f => rfl⟩
  | align a =>
      exact ⟨_, finds_long rfl (i := .align a) (by cases a <;> rfl), fun f => rfl, fun f => rfl⟩
  | size s => exact tells_size s
  | bold on =>
      cases on with
      | true => exact short rfl ⟨fun f => rfl, fun f => rfl⟩
      | false => exact short rfl ⟨fun f => rfl, fun f => rfl⟩
  | text s page => exact tells_text (h s page rfl) page
  | feed lines => exact tells_feed lines
  | cut c lines => exact tells_cut c lines
  | raster r => exact ⟨[], Printer.Finds.nil, fun f => rfl, fun f => rfl⟩
  | codePage page => exact ⟨[], Printer.Finds.nil, fun f => rfl, fun f => rfl⟩

end Receipt.Bematech
