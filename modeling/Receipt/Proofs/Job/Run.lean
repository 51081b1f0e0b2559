/-
A job that drops redundant changes prints what one that drops nothing would.

`Operation` is the interface of a job and `Job.run` any use of it.  Beside it stands
`Operation.plain`, which sends every operation as it comes and so needs no memory at
all.  The two are compared by what a printer makes of their commands: `Alike` lists
leave it in the same modes and have it carry out the same things in the same modes.

One operation sends something like its plain form, by a case for each operation, and
runs follow by induction.  What makes the induction go through is that `Sent` keeps
the remembered formatting equal to the one a printer is in, a reset included.
-/
import Receipt.Proofs.Job.Sent

namespace Receipt

inductive Operation where
  | reset
  | align (a : Alignment)
  | size (s : CharacterSize)
  | bold (on : Bool)
  | apply (f : Format)
  | text (s : String)
  | newline
  | feed (lines : Nat)
  | cut (c : Cut) (lines : Nat)
  | selectCodePage
  | raster (r : Raster)

namespace Operation

def textCommands (page : CodePage) (s : String) : List Command :=
  if s.isEmpty then [] else [.text s page]

/-- The commands of a raster, if its data agrees with its dimensions and the dialect
prints rasters. -/
def rasterCommands (d : Dialect) (r : Raster) : List Command :=
  if r.Consistent ∧ d.supports .imagePrinting = true then [.raster r] else []

/-- The command that selects a code page, if the dialect has one. -/
def codePageCommands (page : CodePage) (d : Dialect) : List Command :=
  if d.supports .codePageSelection then [.codePage page] else []

/-- An operation sent as it comes, whatever is in force. -/
def plain (page : CodePage) (d : Dialect) : Operation → List Command
  | .reset => [.reset]
  | .align a => [.align a]
  | .size s => [.size s.clamped]
  | .bold on => [.bold on]
  | .apply f => [.align f.align, .size f.size.clamped, .bold f.bold]
  | .text s => textCommands page s
  | .newline => textCommands page "\n"
  | .feed lines => [.feed lines]
  | .cut c lines => [.cut c lines]
  | .selectCodePage => codePageCommands page d
  | .raster r => rasterCommands d r

theorem mem_textCommands {page : CodePage} {s : String} {c : Command} :
    c ∈ textCommands page s ↔ s.isEmpty = false ∧ c = .text s page := by
  unfold textCommands
  cases s.isEmpty <;> simp

theorem mem_rasterCommands {d : Dialect} {r : Raster} {c : Command} :
    c ∈ rasterCommands d r ↔
      (r.Consistent ∧ d.supports .imagePrinting = true) ∧ c = .raster r := by
  unfold rasterCommands
  by_cases h : r.Consistent ∧ d.supports .imagePrinting = true <;> simp [h]

theorem mem_codePageCommands {page : CodePage} {d : Dialect} {c : Command} :
    c ∈ codePageCommands page d ↔ d.supports .codePageSelection = true ∧ c = .codePage page := by
  unfold codePageCommands
  cases d.supports .codePageSelection <;> simp

end Operation

namespace Job

/-- The job after an operation.  A raster that is refused leaves it as it was. -/
def perform (j : Job) : Operation → Job
  | .reset => j.reset
  | .align a => j.setAlign a
  | .size s => j.setSize s
  | .bold on => j.setBold on
  | .apply f => j.apply f
  | .text s => j.text s
  | .newline => j.newline
  | .feed lines => j.feed lines
  | .cut c lines => j.cut c lines
  | .selectCodePage => j.selectCodePage
  | .raster r =>
    match j.raster r with
    | .ok j' => j'
    | .error _ => j

def run (j : Job) (ops : List Operation) : Job :=
  ops.foldl perform j

end Job

/-! ### Commands that a printer cannot tell apart -/

/-- Two lists of commands with the same effect on a printer in formatting `f`. -/
structure Alike (f : Format) (as bs : List Command) : Prop where
  after : f.after as = f.after bs
  executed : executed f as = executed f bs

theorem Alike.refl (f : Format) (as : List Command) : Alike f as as :=
  ⟨rfl, rfl⟩

theorem Alike.append {f : Format} {as bs as' bs' : List Command} (h : Alike f as bs)
    (h' : Alike (f.after as) as' bs') : Alike f (as ++ as') (bs ++ bs') where
  after := by rw [Format.after_append, Format.after_append, h'.after, h.after]
  executed := by rw [executed_append, executed_append, h.executed, h'.executed, h.after]

/-- Lists that only change modes are alike once they lead to the same ones. -/
theorem Brings.alike {f g : Format} {as bs : List Command} (ha : Brings f as g)
    (hafter : f.after bs = g) (hsilent : Receipt.executed f bs = []) : Alike f as bs :=
  ⟨ha.after.trans hafter.symm, ha.silent.trans hsilent.symm⟩

namespace Job

theorem text_sends (j : Job) (s : String) :
    Sent j (Operation.textCommands j.page s) (j.text s) := by
  unfold Operation.textCommands
  cases h : s.isEmpty with
  | true => rw [text_empty j h]; exact Sent.refl j
  | false => exact text_sent j h

/-- A raster is refused exactly if its data does not agree with its dimensions. -/
theorem raster_error_iff (j : Job) (r : Raster) :
    (∃ e, j.raster r = .error e) ↔ ¬r.Consistent := by
  unfold raster
  by_cases hr : r.Consistent
  · simp only [hr, not_true_eq_false, if_false, iff_false, not_exists]
    intro e
    split <;> simp
  · simp [hr]

theorem perform_raster_refused (j : Job) {r : Raster} (h : ¬r.Consistent) :
    j.perform (.raster r) = j := by
  obtain ⟨e, he⟩ := (raster_error_iff j r).mpr h
  simp [perform, he]

theorem raster_sends (j : Job) (r : Raster) :
    Sent j (Operation.rasterCommands j.dialect r) (j.perform (.raster r)) := by
  unfold Operation.rasterCommands
  by_cases hr : r.Consistent
  · by_cases hs : j.dialect.supports .imagePrinting = true
    · have hj : j.perform (.raster r) = j.send (.raster r) := by
        simp [perform, raster, hr, hs]
      rw [hj, if_pos ⟨hr, hs⟩]
      exact send_sent j rfl rfl
    · have hj : j.perform (.raster r) = j := by simp [perform, raster, hr, hs]
      rw [hj, if_neg fun h => hs h.2]
      exact Sent.refl j
  · rw [perform_raster_refused j hr, if_neg fun h => hr h.1]
    exact Sent.refl j

theorem selectCodePage_sends (j : Job) :
    Sent j (Operation.codePageCommands j.page j.dialect) j.selectCodePage := by
  unfold Operation.codePageCommands selectCodePage
  split
  · exact send_sent j rfl rfl
  · exact Sent.refl j

/-- **One operation sends something that a printer cannot tell from its plain form.** -/
theorem perform_alike (j : Job) (op : Operation) :
    ∃ cs, Sent j cs (j.perform op) ∧ Alike j.format cs (op.plain j.page j.dialect) := by
  -- A change of mode sends less than its plain form; everything else sends just that.
  have change {g : Format} {j' : Job} {bs : List Command} (h : Reaches j g j')
      (hafter : j.format.after bs = g) (hsilent : executed j.format bs = []) :
      ∃ cs, Sent j cs j' ∧ Alike j.format cs bs := by
    obtain ⟨cs, hsent, hbrings⟩ := h
    exact ⟨cs, hsent, hbrings.alike hafter hsilent⟩
  cases op with
  | reset => exact ⟨_, reset_sent j, Alike.refl _ _⟩
  | align a => exact change (setAlign_reaches j a) rfl rfl
  | size s => exact change (setSize_reaches j s) rfl rfl
  | bold on => exact change (setBold_reaches j on) rfl rfl
  | apply f => exact change (apply_reaches j f) rfl rfl
  | text s => exact ⟨_, text_sends j s, Alike.refl _ _⟩
  | newline => exact ⟨_, text_sends j "\n", Alike.refl _ _⟩
  | feed lines => exact ⟨_, feed_sent j lines, Alike.refl _ _⟩
  | cut c lines => exact ⟨_, cut_sent j c lines, Alike.refl _ _⟩
  | selectCodePage => exact ⟨_, selectCodePage_sends j, Alike.refl _ _⟩
  | raster r => exact ⟨_, raster_sends j r, Alike.refl _ _⟩

theorem run_alike (ops : List Operation) (j : Job) :
    ∃ cs, Sent j cs (j.run ops) ∧
      Alike j.format cs (ops.flatMap (Operation.plain j.page j.dialect)) := by
  induction ops generalizing j with
  | nil => exact ⟨[], Sent.refl j, Alike.refl _ _⟩
  | cons op rest ih =>
      obtain ⟨as, hsa, haa⟩ := perform_alike j op
      obtain ⟨bs, hsb, hab⟩ := ih (j.perform op)
      rw [hsa.page, hsa.dialect, hsa.format] at hab
      exact ⟨as ++ bs, hsa.trans hsb, haa.append hab⟩

/-- Changes of mode apart, a run sends just the plain commands. -/
theorem mem_run_iff {j : Job} (hj : j.commands = #[]) {ops : List Operation} {c : Command}
    (hc : c.isMode = false) :
    c ∈ (j.run ops).commands.toList ↔
      c ∈ ops.flatMap (Operation.plain j.page j.dialect) := by
  obtain ⟨cs, hs, ha⟩ := run_alike ops j
  have hcs : (j.run ops).commands.toList = cs := by
    rw [hs.commands, hj]
    rfl
  have hsent := mem_executed_iff j.format cs c
  have hplain := mem_executed_iff j.format (ops.flatMap (Operation.plain j.page j.dialect)) c
  rw [ha.executed, hplain] at hsent
  rw [hcs]
  simpa [hc] using hsent.symm

theorem mem_enter {j : Job} {c c' : Command} (h : c' ∈ (j.enter c).commands.toList) :
    c' ∈ j.commands.toList ∨ c' = c := by
  unfold enter at h
  split at h
  · exact Or.inl h
  · simpa [send] using h

/-- An operation sends no other commands than its plain form has. -/
theorem mem_perform {j : Job} {op : Operation} {c : Command}
    (h : c ∈ (j.perform op).commands.toList) :
    c ∈ j.commands.toList ∨ c ∈ op.plain j.page j.dialect := by
  -- What is not a change of mode is sent as it comes.
  have asItComes {cs : List Command} {j' : Job} (hs : Sent j cs j')
      (hc : c ∈ j'.commands.toList) : c ∈ j.commands.toList ∨ c ∈ cs := by
    rw [hs.commands] at hc
    exact List.mem_append.mp hc
  have halign {j : Job} {a : Alignment} (hc : c ∈ (j.setAlign a).commands.toList) :
      c ∈ j.commands.toList ∨ c = .align a := by
    rw [setAlign_eq_enter] at hc
    exact mem_enter hc
  have hsize {j : Job} {s : CharacterSize} (hc : c ∈ (j.setSize s).commands.toList) :
      c ∈ j.commands.toList ∨ c = .size s.clamped := by
    rw [setSize_eq_enter] at hc
    exact mem_enter hc
  have hbold {j : Job} {on : Bool} (hc : c ∈ (j.setBold on).commands.toList) :
      c ∈ j.commands.toList ∨ c = .bold on := by
    rw [setBold_eq_enter] at hc
    exact mem_enter hc
  cases op with
  | reset => exact asItComes (reset_sent j) h
  | align a => exact (halign h).imp_right List.mem_singleton.mpr
  | size s => exact (hsize h).imp_right List.mem_singleton.mpr
  | bold on => exact (hbold h).imp_right List.mem_singleton.mpr
  | apply f =>
      rcases hbold h with h | rfl
      · rcases hsize h with h | rfl
        · rcases halign h with h | rfl
          · exact Or.inl h
          · exact Or.inr (by simp [Operation.plain])
        · exact Or.inr (by simp [Operation.plain])
      · exact Or.inr (by simp [Operation.plain])
  | text s => exact asItComes (text_sends j s) h
  | newline => exact asItComes (text_sends j "\n") h
  | feed lines => exact asItComes (feed_sent j lines) h
  | cut k lines => exact asItComes (cut_sent j k lines) h
  | selectCodePage => exact asItComes (selectCodePage_sends j) h
  | raster r => exact asItComes (raster_sends j r) h

theorem mem_run {ops : List Operation} {c : Command} :
    ∀ {j : Job}, c ∈ (j.run ops).commands.toList →
      c ∈ j.commands.toList ∨ c ∈ ops.flatMap (Operation.plain j.page j.dialect) := by
  induction ops with
  | nil => exact fun h => Or.inl h
  | cons op rest ih =>
      intro j h
      obtain ⟨cs, hs, -⟩ := perform_alike j op
      rw [List.flatMap_cons, List.mem_append]
      rcases ih (j := j.perform op) h with h | h
      · exact (mem_perform h).imp_right Or.inl
      · rw [hs.page, hs.dialect] at h
        exact Or.inr (Or.inr h)

/-! ### Sizes in a run -/

/-- The size a job remembers is one that printers know. -/
theorem perform_known (j : Job) (h : j.format.size.Known) (op : Operation) :
    (j.perform op).format.size.Known := by
  -- An operation either has no say in the size or brings it into range.
  have keep {cs : List Command} {j' : Job} (hs : Sent j cs j')
      (hf : j.format.after cs = j.format) : j'.format.size.Known := by
    rw [hs.format, hf]
    exact h
  cases op with
  | reset => exact CharacterSize.known_normal
  | align a => exact (setAlign_reaches j a).format ▸ h
  | size s => exact (setSize_reaches j s).format ▸ CharacterSize.known_clamped s
  | bold on => exact (setBold_reaches j on).format ▸ h
  | apply f => exact (apply_reaches j f).format ▸ CharacterSize.known_clamped f.size
  | text s => exact keep (text_sends j s) (by unfold Operation.textCommands; split <;> rfl)
  | newline => exact keep (text_sends j "\n") rfl
  | feed lines => exact keep (feed_sent j lines) rfl
  | cut c lines => exact keep (cut_sent j c lines) rfl
  | selectCodePage =>
      exact keep (selectCodePage_sends j) (by unfold Operation.codePageCommands; split <;> rfl)
  | raster r => exact keep (raster_sends j r) (by unfold Operation.rasterCommands; split <;> rfl)

theorem run_known (ops : List Operation) (j : Job) (h : j.format.size.Known) :
    (j.run ops).format.size.Known := by
  induction ops generalizing j with
  | nil => exact h
  | cons op rest ih => exact ih (j.perform op) (perform_known j h op)

/-- Sizes are brought into range before they are sent. -/
theorem known_of_mem_run {ops : List Operation} {paperWidth : Nat} {page : CodePage}
    {d : Dialect} {s : CharacterSize}
    (h : Command.size s ∈ ((start paperWidth page d).run ops).commands.toList) : s.Known := by
  rcases mem_run h with h | h
  · simp [start] at h
  · obtain ⟨op, -, hop⟩ := List.mem_flatMap.mp h
    cases op with
    | size t =>
        obtain rfl := Command.size.inj (List.mem_singleton.mp hop)
        exact CharacterSize.known_clamped t
    | apply f =>
        obtain rfl : s = f.size.clamped := by simpa [Operation.plain] using hop
        exact CharacterSize.known_clamped f.size
    | text t => simp [Operation.plain, Operation.mem_textCommands] at hop
    | newline => simp [Operation.plain, Operation.mem_textCommands] at hop
    | selectCodePage => simp [Operation.plain, Operation.mem_codePageCommands] at hop
    | raster r => simp [Operation.plain, Operation.mem_rasterCommands] at hop
    | _ => simp [Operation.plain] at hop

/-- A run spells its commands in the dialect it was started with. -/
theorem bytes_run (paperWidth : Nat) (page : CodePage) (d : Dialect) (ops : List Operation) :
    ((start paperWidth page d).run ops).bytes
      = d.encodeAll ((start paperWidth page d).run ops).commands.toList := by
  obtain ⟨cs, hs, -⟩ := run_alike ops (start paperWidth page d)
  unfold bytes
  rw [hs.dialect]
  rfl

theorem bytes_prefix_run (j : Job) (ops : List Operation) : j.bytes <+: (j.run ops).bytes := by
  obtain ⟨cs, hs, -⟩ := run_alike ops j
  refine ⟨j.dialect.encodeAll cs, ?_⟩
  unfold bytes Dialect.encodeAll
  rw [hs.commands, hs.dialect, List.flatMap_append]

/-- **A job simulates one that sends every change.**  After any operations on a new
job, what it remembers is what its commands leave a printer in; the printer has
carried out what the plain commands would have it carry out; no command among them
was redundant; and the bytes so far stand at the front of any later ones.  A raster
that is refused changes nothing. -/
theorem run_simulates_plain (paperWidth : Nat) (page : CodePage) (d : Dialect)
    (ops : List Operation) :
    let j := (start paperWidth page d).run ops
    (Format.default.after j.commands.toList = j.format ∧ j.format.size.Known) ∧
    executed .default j.commands.toList
      = executed .default (ops.flatMap (Operation.plain page d)) ∧
    (∀ as c bs, j.commands.toList = as ++ c :: bs →
      ¬c.Redundant (Format.default.after as)) ∧
    (∀ more, j.bytes <+: (j.run more).bytes) ∧
    ∀ r : Raster, ¬r.Consistent →
      (∃ e, j.raster r = .error e) ∧ j.perform (.raster r) = j := by
  intro j
  obtain ⟨cs, hs, ha⟩ := run_alike ops (start paperWidth page d)
  have hcs : j.commands.toList = cs := hs.commands
  refine ⟨⟨?_, ?_⟩, ?_, ?_, bytes_prefix_run j, ?_⟩
  · rw [hcs]
    exact hs.format.symm
  · exact run_known ops _ CharacterSize.known_normal
  · rw [hcs]
    exact ha.executed
  · intro as c bs hsplit
    have heco : Economical .default cs := hs.economical
    rw [← hcs, hsplit] at heco
    exact heco.not_redundant
  · intro r hr
    exact ⟨(raster_error_iff j r).mpr hr, perform_raster_refused j hr⟩

end Job

end Receipt
