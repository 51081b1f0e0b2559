/-
What an ESC/POS printer obeys.

A job remembers the formatting that its commands leave a printer in.  What it does not
know is what a text may do: a text is sent in the bytes of its characters, and two
characters of ASCII have the bytes that start commands.  So a printer takes the bytes of
a document for the commands of its job, and is in the formatting that the job remembers,
as long as these two characters and malformed pictures stay out of what is sent.

That is the exact condition.  A text with one of the characters that gets as far as being
sent is never read back as a text, and one that spells a reset takes the printer out of
the formatting without the job knowing.
-/
import Receipt.Proofs.Convert.Frame
import Receipt.Proofs.EscPos.Legible
import Receipt.Proofs.Walk.Spelled

namespace Receipt

theorem Raster.Built.widthBytes_pos {r : Raster} (h : r.Built) : 0 < r.widthBytes := by
  rcases h with ⟨width, height, data, hok⟩ | ⟨width, height, rfl⟩
  · exact (EscPos.widthBytes_of_ofData hok).1
  · show 0 < (max width 1 + 7) / 8
    omega

/-- The characters that start no command. -/
theorem drawn_plain : Drawn fun c => c ≠ '\x1b' ∧ c ≠ '\x1d' :=
  ⟨by decide, by decide, by decide⟩

namespace Convert

/-! ### What is asked for -/

section

variable {root : Node} {o : Options} {images : ImageCache}

/-- What the opening and the closing ask for is neither text nor picture. -/
theorem mem_pieces_of_mem_operations {op : Operation} (h : op ∈ operations root o images)
    (hop : (∃ s, op = .text s) ∨ ∃ r, op = .raster r) :
    ∃ p ∈ root.pieces images o.paperWidth .default [], op ∈ p.operations := by
  simp only [operations, List.mem_append, List.mem_flatMap] at h
  rcases h with (h | h) | h
  · have hopening : op = .reset ∨ op = .selectCodePage := by
      unfold opening at h
      rcases List.mem_cons.mp h with rfl | h
      · exact Or.inl rfl
      · split at h
        · exact Or.inr (List.mem_singleton.mp h)
        · simp at h
    rcases hop with ⟨s, rfl⟩ | ⟨r, rfl⟩ <;> simp at hopening
  · exact h
  · have hclosing : ∃ c lines, op = .cut c lines := by
      unfold closing at h
      split at h
      · simp at h
      · exact ⟨_, _, List.mem_singleton.mp h⟩
    rcases hop with ⟨s, rfl⟩ | ⟨r, rfl⟩ <;> simp at hclosing

/-- A picture that is asked for is among the images. -/
theorem mem_images_of_mem_operations {r : Raster}
    (h : Operation.raster r ∈ operations root o images) :
    ∃ e ∈ images, e.2 = r := by
  obtain ⟨p, hp, hop⟩ := mem_pieces_of_mem_operations h (Or.inr ⟨r, rfl⟩)
  have hall : Piece.Everywhere images o.paperWidth .default
      fun p => ∀ r, Operation.raster r ∈ p.operations → ∃ e ∈ images, e.2 = r := {
    feed := by simp [Piece.operations]
    border := by simp [Piece.operations, Piece.runOperations]
    line := by simp [Piece.operations, Piece.runOperations]
    row := by simp [Piece.operations, Piece.lineOperations, Piece.segmentOperations]
    picture := fun path key s hs r hr => by
      obtain rfl : r = s := by simpa [Piece.operations] using hr
      obtain ⟨as, bs, hsplit, -⟩ := List.lookup_eq_some_iff.mp hs
      exact ⟨(key, r), by rw [hsplit]; simp, rfl⟩ }
  exact Node.forall_pieces hall [] root p hp r hop

/-- What is asked to be printed as text is spelled with the characters of the texts. -/
theorem plain_of_mem_operations (h : ∀ s ∈ root.texts, CodePage.Plain s) {s : String}
    (hs : Operation.text s ∈ operations root o images) : CodePage.Plain s := by
  obtain ⟨p, hp, hop⟩ := mem_pieces_of_mem_operations hs (Or.inl ⟨s, rfl⟩)
  exact Piece.spelled_operations
    (Node.spelled_pieces images o.paperWidth .default drawn_plain [] root h p hp) hop

end

/-! ### What is sent -/

/-- The job that a document is printed in, after some of its operations. -/
def jobAfter (o : Options) (d : Dialect) (ops : List Operation) : Job :=
  (Job.start o.paperWidth o.encoding d).run ops

section

variable {o : Options} {d : Dialect}

theorem bytes_jobAfter (ops : List Operation) :
    (jobAfter o d ops).bytes = d.encodeAll (jobAfter o d ops).commands.toList :=
  Job.bytes_run _ _ _ _

theorem format_jobAfter (ops : List Operation) :
    (jobAfter o d ops).format = Format.default.after (jobAfter o d ops).commands.toList := by
  obtain ⟨cs, hs, -⟩ := Job.run_alike ops (Job.start o.paperWidth o.encoding d)
  have hcs : (jobAfter o d ops).commands.toList = cs := hs.commands
  rw [hcs]
  exact hs.format

/-- What has been sent at some time is sent by all operations together. -/
theorem mem_jobAfter_append {before after : List Operation} {c : Command}
    (h : c ∈ (jobAfter o d before).commands.toList) :
    c ∈ (jobAfter o d (before ++ after)).commands.toList := by
  obtain ⟨cs, hs, -⟩ := Job.run_alike after (jobAfter o d before)
  unfold jobAfter at hs ⊢
  rw [Job.run_append, hs.commands]
  exact List.mem_append_left cs h

variable {root : Node} {images : ImageCache}

theorem plain_of_mem_commands (h : ∀ s ∈ root.texts, CodePage.Plain s) {s : String}
    {page : CodePage}
    (hs : Command.text s page ∈ (jobAfter o d (operations root o images)).commands.toList) :
    CodePage.Plain s := by
  obtain ⟨op, hop, hs⟩ := List.mem_flatMap.mp ((Job.mem_run_iff rfl rfl).mp hs)
  rcases EscPos.text_mem_plain hs with rfl | rfl
  · exact plain_of_mem_operations h hop
  · show CodePage.Plain "\n"
    decide

theorem raster_mem_operations {ops : List Operation} {r : Raster}
    (h : Command.raster r ∈ (jobAfter o d ops).commands.toList) : Operation.raster r ∈ ops := by
  obtain ⟨op, hop, hr⟩ := List.mem_flatMap.mp ((Job.mem_run_iff rfl rfl).mp h)
  obtain ⟨rfl, -⟩ := EscPos.raster_mem_plain hr
  exact hop

end

/-! ### What is obeyed -/

section

variable (root : Node) (o : Options)

/-- As long as what has been sent is legible, the printer is in the formatting that the job
remembers. -/
theorem leaves_jobAfter {ops : List Operation}
    (h : ∀ c ∈ (jobAfter o EscPos.dialect ops).commands.toList, EscPos.Legible c) :
    EscPos.printer.leaves (jobAfter o EscPos.dialect ops).bytes
      = some (jobAfter o EscPos.dialect ops).format := by
  have htold : ∀ c ∈ (jobAfter o EscPos.dialect ops).commands.toList,
      EscPos.printer.Tells (EscPos.dialect.encode c) [c] := by
    intro c hc
    refine EscPos.tells_encode (EscPos.told_of_legible (h c hc) ?_)
    rintro s rfl
    exact Job.known_of_mem_run hc
  rw [bytes_jobAfter, format_jobAfter]
  exact (Printer.tells_encodeAll htold).leaves_eq EscPos.read?_nil

/-- **An ESC/POS printer obeys what was issued and nothing else, exactly if everything that
is sent is legible.**  Its formatting is then the one that the job remembers, after any of
the operations.  A document whose texts are plain is legible, if its pictures are. -/
theorem renderJob_read_iff {images : ImageCache} (hbuilt : ∀ e ∈ images, e.2.Built) :
    ∃ job, renderJob root o EscPos.dialect images = .ok job ∧
      ((∃ is, EscPos.read? job.bytes = some is ∧
          EscPos.merged is = EscPos.merged (job.commands.toList.flatMap EscPos.issued)) ↔
        ∀ c ∈ job.commands.toList, EscPos.Legible c) ∧
      ((∀ c ∈ job.commands.toList, EscPos.Legible c) →
        ∀ before after, operations root o images = before ++ after →
          EscPos.printer.leaves (jobAfter o EscPos.dialect before).bytes
            = some (jobAfter o EscPos.dialect before).format) ∧
      ((∀ s ∈ root.texts, CodePage.Plain s) → (∀ e ∈ images, EscPos.Legible (.raster e.2)) →
        ∀ c ∈ job.commands.toList, EscPos.Legible c) := by
  refine ⟨jobAfter o EscPos.dialect (operations root o images),
    renderJob_eq_run root o _ fun e he => (hbuilt e he).consistent, ?_, ?_, ?_⟩
  · rw [bytes_jobAfter]
    refine EscPos.read_iff_legible fun r hr => ?_
    obtain ⟨e, he, rfl⟩ := mem_images_of_mem_operations (raster_mem_operations hr)
    exact ⟨(hbuilt e he).consistent, (hbuilt e he).widthBytes_pos⟩
  · intro hlegible before after hsplit
    refine leaves_jobAfter o fun c hc => hlegible c ?_
    rw [hsplit]
    exact mem_jobAfter_append hc
  · intro htexts hpictures c hc
    cases c with
    | text s page => exact plain_of_mem_commands htexts hc
    | raster r =>
        obtain ⟨e, he, rfl⟩ := mem_images_of_mem_operations (raster_mem_operations hc)
        exact hpictures e he
    | _ => trivial

/-- A text in bold letters. -/
def boldText (text : String) : Node :=
  (Node.ofText text).withStyle (Dict.ofList [("fontWeight", .string "bold")])

/-- A plain text beside a picture that it does not ask for. -/
theorem renderJob_read_plain :
    let images : ImageCache := [(⟨"logo", 576⟩, Raster.blank 8 1)]
    (∀ e ∈ images, e.2.Built) ∧
    ∃ job, renderJob (boldText "A?@") .default EscPos.dialect images = .ok job ∧
      ∃ is, EscPos.read? job.bytes = some is ∧
        EscPos.merged is = EscPos.merged (job.commands.toList.flatMap EscPos.issued) := by
  intro images
  have hbuilt : ∀ e ∈ images, e.2.Built := by
    intro e he
    obtain rfl := List.mem_singleton.mp he
    exact Raster.built_blank 8 1
  obtain ⟨job, hjob, hread, -, hplain⟩ := renderJob_read_iff (boldText "A?@") .default hbuilt
  exact ⟨hbuilt, job, hjob, hread.mpr (hplain (by decide) (by decide))⟩

/-- A text that spells a reset between its characters. -/
def resettingText : Node :=
  boldText "A\x1b@"

theorem pieces_resettingText (paperWidth : Nat) :
    resettingText.pieces [] paperWidth .default [] =
      Piece.feeds resettingText.style.spacing.top ++
        .line [⟨⟨.left, .normal, true⟩, "A\x1b@"⟩] ::
          Piece.feeds resettingText.style.spacing.bottom := by
  have hrole : resettingText.role = .text := by decide
  have hruns : Piece.texts (resettingText.runs .default
      (Format.default.along ([] ++ [resettingText.style])).align [])
      = [.line [⟨⟨.left, .normal, true⟩, "A\x1b@"⟩]] := by rfl
  have htop : resettingText.style.border? "borderTop" = none := by decide
  have hbottom : resettingText.style.border? "borderBottom" = none := by decide
  rw [Node.pieces_text [] paperWidth .default [] hrole, hruns]
  unfold Piece.framed Piece.borders
  rw [htop, hbottom]
  rfl

/-- What is asked for until the text has been sent. -/
def untilText (lines : Nat) : List Operation :=
  [.reset] ++ (Piece.feeds lines).flatMap Piece.operations ++
    [.apply ⟨.left, .normal, true⟩, .text "A\x1b@"]

theorem jobAfter_untilText (lines : Nat) :
    (jobAfter .default EscPos.dialect (untilText lines)).format = ⟨.left, .normal, true⟩ ∧
    ∃ cs, (∀ c ∈ cs, EscPos.Told c) ∧
      (jobAfter .default EscPos.dialect (untilText lines)).commands.toList
        = cs ++ [.text "A\x1b@" .cp860] := by
  by_cases hlines : lines = 0
  · subst hlines
    exact ⟨rfl, [.reset, .bold true], by simp [EscPos.Told], rfl⟩
  · have hfeeds : Piece.feeds lines = [.feed lines] := if_neg hlines
    unfold untilText
    rw [hfeeds]
    exact ⟨rfl, [.reset, .feed lines, .bold true], by simp [EscPos.Told], rfl⟩

/-- **Its reset is obeyed.**  The text does not come back as a text, and behind it the
printer is no longer in the bold letters that the job remembers. -/
theorem renderJob_resettingText :
    ∃ job, renderJob resettingText .default EscPos.dialect [] = .ok job ∧
      (¬∃ is, EscPos.read? job.bytes = some is ∧
        EscPos.merged is = EscPos.merged (job.commands.toList.flatMap EscPos.issued)) ∧
      ∃ before after, operations resettingText .default [] = before ++ after ∧
        before.getLast? = some (.text "A\x1b@") ∧
        (jobAfter .default EscPos.dialect before).format = ⟨.left, .normal, true⟩ ∧
        EscPos.printer.leaves (jobAfter .default EscPos.dialect before).bytes = some .default := by
  have hsplit : ∃ after, operations resettingText .default []
      = untilText resettingText.style.spacing.top ++ after := by
    unfold operations
    rw [pieces_resettingText, List.flatMap_append, List.flatMap_cons]
    refine ⟨.newline :: (Piece.feeds resettingText.style.spacing.bottom).flatMap Piece.operations
      ++ closing .default, ?_⟩
    simp [untilText, opening, Options.default, Piece.operations, Piece.runOperations]
  obtain ⟨after, hafter⟩ := hsplit
  obtain ⟨hformat, cs, htold, hcs⟩ := jobAfter_untilText resettingText.style.spacing.top
  refine ⟨jobAfter .default EscPos.dialect (operations resettingText .default []),
    renderJob_eq_run _ _ _ (by simp), ?_, _, after, hafter, ?_, hformat, ?_⟩
  · rintro ⟨is, hread, hmerged⟩
    have hmem : Command.text "A\x1b@" .cp860 ∈ (jobAfter .default EscPos.dialect
        (operations resettingText .default [])).commands.toList := by
      rw [hafter]
      exact mem_jobAfter_append (by rw [hcs]; simp)
    have hpictures : ∀ r, Command.raster r ∈ (jobAfter .default EscPos.dialect
        (operations resettingText .default [])).commands.toList → r.Consistent := by
      intro r hr
      obtain ⟨e, he, -⟩ := mem_images_of_mem_operations (raster_mem_operations hr)
      simp at he
    rw [bytes_jobAfter] at hread
    exact absurd (EscPos.legible_of_read hpictures hread hmerged _ hmem) (by decide)
  · rw [untilText, List.getLast?_append]
    rfl
  · have hbytes : (jobAfter .default EscPos.dialect
          (untilText resettingText.style.spacing.top)).bytes
        = EscPos.dialect.encodeAll cs ++ ([0x41] ++ [esc, 0x40]) := by
      rw [bytes_jobAfter, hcs]
      exact List.flatMap_append
    have htext : ∀ b ∈ [(0x41 : UInt8)], b ≠ esc ∧ b ≠ gs := by
      intro b hb
      obtain rfl := List.mem_singleton.mp hb
      decide
    rw [hbytes]
    exact EscPos.leaves_reset
      (Printer.tells_encodeAll fun c hc => EscPos.tells_encode (htold c hc)) htext

end

end Convert

end Receipt
