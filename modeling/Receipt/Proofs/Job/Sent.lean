/-
What each operation of a job sends.

`Job.Sent j cs j'` is all that later proofs need to know of an operation: which
commands it appends, and that the formatting the job remembers is the one those
commands leave a printer in.  Each operation has one lemma that says so, and the
lemmas compose, so no proof about a document opens an operation again.

The last field is what the remembering is for.  A mode command that sets what is in
force already is redundant, and none is ever sent.
-/
import Receipt.Job
import Receipt.Proofs.Printer.Modes

namespace Receipt

/-- A mode command that sets what is in force already. -/
def Command.Redundant (f : Format) (c : Command) : Prop :=
  c.isMode = true ∧ c.modes f = f

/-- No command of the list is redundant when it arrives. -/
def Economical (f : Format) : List Command → Prop
  | [] => True
  | c :: rest => ¬c.Redundant f ∧ Economical (c.modes f) rest

theorem economical_append {f : Format} {as bs : List Command} (ha : Economical f as)
    (hb : Economical (f.after as) bs) : Economical f (as ++ bs) := by
  induction as generalizing f with
  | nil => exact hb
  | cons c rest ih => exact ⟨ha.1, ih ha.2 hb⟩

theorem Economical.not_redundant {f : Format} {as bs : List Command} {c : Command}
    (h : Economical f (as ++ c :: bs)) : ¬c.Redundant (f.after as) := by
  induction as generalizing f with
  | nil => exact h.1
  | cons a rest ih => exact ih h.2

/-! ### Changing modes -/

/-- What it takes to have a mode in force: its command, or nothing if it is. -/
def change (f : Format) (c : Command) : List Command :=
  if c.modes f = f then [] else [c]

/-- A list of commands that takes a printer from one formatting to another, prints
nothing and wastes nothing. -/
structure Brings (f : Format) (cs : List Command) (g : Format) : Prop where
  after : f.after cs = g
  silent : executed f cs = []
  economical : Economical f cs

theorem brings_change {c : Command} (hc : c.isMode = true) (f : Format) :
    Brings f (change f c) (c.modes f) := by
  unfold change
  by_cases h : c.modes f = f
  · rw [if_pos h]
    exact ⟨h.symm, rfl, trivial⟩
  · rw [if_neg h]
    exact ⟨rfl, executed_mode hc f [], fun hr => h hr.2, trivial⟩

theorem Brings.trans {f g h : Format} {as bs : List Command} (ha : Brings f as g)
    (hb : Brings g bs h) : Brings f (as ++ bs) h where
  after := by rw [Format.after_append, ha.after, hb.after]
  silent := by rw [executed_append, ha.silent, ha.after, hb.silent]; rfl
  economical := economical_append ha.economical (by rw [ha.after]; exact hb.economical)

namespace Job

/-- The job `j'` is `j` with the commands `cs` after it. -/
structure Sent (j : Job) (cs : List Command) (j' : Job) : Prop where
  paperWidth : j'.paperWidth = j.paperWidth
  page : j'.page = j.page
  dialect : j'.dialect = j.dialect
  commands : j'.commands.toList = j.commands.toList ++ cs
  /-- What the job remembers is what the commands leave behind. -/
  format : j'.format = j.format.after cs
  /-- No mode is sent that is in force already. -/
  economical : Economical j.format cs

theorem Sent.refl (j : Job) : Sent j [] j :=
  ⟨rfl, rfl, rfl, by simp, rfl, trivial⟩

theorem Sent.trans {j j' j'' : Job} {as bs : List Command} (ha : Sent j as j')
    (hb : Sent j' bs j'') : Sent j (as ++ bs) j'' where
  paperWidth := hb.paperWidth.trans ha.paperWidth
  page := hb.page.trans ha.page
  dialect := hb.dialect.trans ha.dialect
  commands := by rw [hb.commands, ha.commands, List.append_assoc]
  format := by rw [hb.format, ha.format, Format.after_append]
  economical := economical_append ha.economical (by rw [← ha.format]; exact hb.economical)

/-! ### The operations -/

theorem send_sent (j : Job) {c : Command} (h : c.modes j.format = j.format)
    (hmode : c.isMode = false) : Sent j [c] (j.send c) :=
  ⟨rfl, rfl, rfl, by simp [send], h.symm, ⟨by simp [Command.Redundant, hmode], trivial⟩⟩

theorem reset_sent (j : Job) : Sent j [.reset] j.reset :=
  ⟨rfl, rfl, rfl, by simp [reset, send], rfl, ⟨by simp [Command.Redundant, Command.isMode], trivial⟩⟩

def enter (j : Job) (c : Command) : Job :=
  if c.modes j.format = j.format then j else { j.send c with format := c.modes j.format }

theorem enter_sent (j : Job) {c : Command} (hc : c.isMode = true) :
    Sent j (change j.format c) (j.enter c) := by
  have hb := brings_change hc j.format
  unfold enter
  by_cases h : c.modes j.format = j.format
  · rw [change, if_pos h, if_pos h]
    exact Sent.refl j
  · rw [change, if_neg h] at hb ⊢
    rw [if_neg h]
    exact ⟨rfl, rfl, rfl, by simp [send], hb.after.symm, hb.economical⟩

/-! Each of the three modes is remembered in a field of its own, and to differ in
that field is to differ. -/

theorem setAlign_eq_enter (j : Job) (a : Alignment) : j.setAlign a = j.enter (.align a) := by
  have h : j.format.align = a ↔ (Command.align a).modes j.format = j.format :=
    ⟨fun h => h ▸ rfl, fun h => (congrArg Format.align h).symm⟩
  unfold setAlign enter
  simp only [h]
  rfl

theorem setSize_eq_enter (j : Job) (s : CharacterSize) :
    j.setSize s = j.enter (.size s.clamped) := by
  have h : j.format.size = s.clamped ↔ (Command.size s.clamped).modes j.format = j.format :=
    ⟨fun h => h ▸ rfl, fun h => (congrArg Format.size h).symm⟩
  unfold setSize enter
  simp only [h]
  rfl

theorem setBold_eq_enter (j : Job) (on : Bool) : j.setBold on = j.enter (.bold on) := by
  have h : j.format.bold = on ↔ (Command.bold on).modes j.format = j.format :=
    ⟨fun h => h ▸ rfl, fun h => (congrArg Format.bold h).symm⟩
  unfold setBold enter
  simp only [h]
  rfl

/-- A step that leaves a printer in the formatting `g` and prints nothing. -/
def Reaches (j : Job) (g : Format) (j' : Job) : Prop :=
  ∃ cs, Sent j cs j' ∧ Brings j.format cs g

theorem Reaches.format {j j' : Job} {g : Format} (h : Reaches j g j') : j'.format = g := by
  obtain ⟨cs, hsent, hbrings⟩ := h
  rw [hsent.format, hbrings.after]

theorem Reaches.trans {j j' j'' : Job} {g h : Format} (ha : Reaches j g j')
    (hb : Reaches j' h j'') : Reaches j h j'' := by
  have hg := ha.format
  obtain ⟨as, hsa, hba⟩ := ha
  obtain ⟨bs, hsb, hbb⟩ := hb
  rw [hg] at hbb
  exact ⟨as ++ bs, hsa.trans hsb, hba.trans hbb⟩

theorem enter_reaches (j : Job) {c : Command} (hc : c.isMode = true) :
    Reaches j (c.modes j.format) (j.enter c) :=
  ⟨_, enter_sent j hc, brings_change hc j.format⟩

theorem setAlign_reaches (j : Job) (a : Alignment) :
    Reaches j { j.format with align := a } (j.setAlign a) := by
  rw [setAlign_eq_enter]
  exact enter_reaches j rfl

theorem setSize_reaches (j : Job) (s : CharacterSize) :
    Reaches j { j.format with size := s.clamped } (j.setSize s) := by
  rw [setSize_eq_enter]
  exact enter_reaches j rfl

theorem setBold_reaches (j : Job) (on : Bool) :
    Reaches j { j.format with bold := on } (j.setBold on) := by
  rw [setBold_eq_enter]
  exact enter_reaches j rfl

/-- Asking for a formatting has it in force, at a size that printers know. -/
theorem apply_reaches (j : Job) (f : Format) :
    Reaches j { f with size := f.size.clamped } (j.apply f) := by
  have ha := setAlign_reaches j f.align
  have hs := setSize_reaches (j.setAlign f.align) f.size
  have hb := setBold_reaches ((j.setAlign f.align).setSize f.size) f.bold
  rw [ha.format] at hs
  rw [hs.format] at hb
  exact (ha.trans hs).trans hb

theorem text_sent (j : Job) {s : String} (h : s.isEmpty = false) :
    Sent j [.text s j.page] (j.text s) := by
  have hs : j.text s = j.send (.text s j.page) := by simp [text, h]
  rw [hs]
  exact send_sent j rfl rfl

theorem text_empty (j : Job) {s : String} (h : s.isEmpty = true) : j.text s = j := by
  simp [text, h]

theorem feed_sent (j : Job) (lines : Nat) : Sent j [.feed lines] (j.feed lines) :=
  send_sent j rfl rfl

theorem cut_sent (j : Job) (c : Cut) (lines : Nat) : Sent j [.cut c lines] (j.cut c lines) :=
  send_sent j rfl rfl

end Job

end Receipt
