/-
A printer that follows commands.

Three of the commands change a mode and print nothing.  Everything else is carried
out in the modes that the commands before it left behind, and a reset, whatever
else it does, brings all three back.  So a list of commands says two things: the
modes the printer ends in, and what it carries out, each command with the modes in
force when it arrives.

`Format.after` is the first and `executed` the second.  Two lists of commands that
agree on both cannot be told apart on paper, however often one of them repeats a
mode that the other does not.
-/
import Receipt.Printer.Command

namespace Receipt

namespace Command

/-- Whether a command changes a mode and does nothing else. -/
def isMode : Command → Bool
  | .align _ | .size _ | .bold _ => true
  | _ => false

/-- The modes after a command. -/
def modes (f : Format) : Command → Format
  | .reset => .default
  | .align a => { f with align := a }
  | .size s => { f with size := s }
  | .bold on => { f with bold := on }
  | _ => f

end Command

def Format.after (f : Format) (cs : List Command) : Format :=
  cs.foldl Command.modes f

/-- What a printer carries out, each command with the modes in force. -/
def executed (f : Format) : List Command → List (Format × Command)
  | [] => []
  | c :: rest =>
    if c.isMode then executed (c.modes f) rest else (f, c) :: executed (c.modes f) rest

namespace Format

@[simp] theorem after_nil (f : Format) : f.after [] = f := rfl

@[simp] theorem after_cons (f : Format) (c : Command) (cs : List Command) :
    f.after (c :: cs) = (c.modes f).after cs := rfl

theorem after_append (f : Format) (as bs : List Command) :
    f.after (as ++ bs) = (f.after as).after bs := by
  unfold after
  rw [List.foldl_append]

end Format

@[simp] theorem executed_nil (f : Format) : executed f [] = [] := rfl

theorem executed_mode {c : Command} (h : c.isMode = true) (f : Format) (cs : List Command) :
    executed f (c :: cs) = executed (c.modes f) cs := by
  rw [executed, if_pos h]

theorem executed_content {c : Command} (h : c.isMode = false) (f : Format) (cs : List Command) :
    executed f (c :: cs) = (f, c) :: executed (c.modes f) cs := by
  rw [executed, if_neg (by simp [h])]

/-- What is carried out for two lists in a row: the second starts in the modes that
the first one leaves. -/
theorem executed_append (f : Format) (as bs : List Command) :
    executed f (as ++ bs) = executed f as ++ executed (f.after as) bs := by
  induction as generalizing f with
  | nil => rfl
  | cons c rest ih =>
      rw [List.cons_append, Format.after_cons]
      cases h : c.isMode with
      | true => rw [executed_mode h, executed_mode h, ih]
      | false => rw [executed_content h, executed_content h, ih, List.cons_append]

/-- What is carried out are the commands that do more than change a mode. -/
theorem mem_executed_iff (f : Format) (cs : List Command) (c : Command) :
    (∃ g, (g, c) ∈ executed f cs) ↔ c ∈ cs ∧ c.isMode = false := by
  induction cs generalizing f with
  | nil => simp
  | cons a rest ih =>
      cases h : a.isMode with
      | true =>
          rw [executed_mode h, ih, List.mem_cons]
          constructor
          · intro hc
            exact ⟨Or.inr hc.1, hc.2⟩
          · rintro ⟨rfl | hc, hmode⟩
            · simp [h] at hmode
            · exact ⟨hc, hmode⟩
      | false =>
          rw [executed_content h]
          simp only [List.mem_cons, Prod.mk.injEq, exists_or]
          rw [ih]
          constructor
          · rintro (⟨g, -, rfl⟩ | hc)
            · exact ⟨Or.inl rfl, h⟩
            · exact ⟨Or.inr hc.1, hc.2⟩
          · rintro ⟨rfl | hc, hmode⟩
            · exact Or.inl ⟨f, rfl, rfl⟩
            · exact Or.inr ⟨hc, hmode⟩

/-- What is carried out are the commands other than changes of mode. -/
theorem map_snd_executed (f : Format) (cs : List Command) :
    (executed f cs).map Prod.snd = cs.filter fun c => !c.isMode := by
  induction cs generalizing f with
  | nil => rfl
  | cons c rest ih =>
      cases h : c.isMode with
      | true => rw [executed_mode h, ih, List.filter_cons_of_neg (by simp [h])]
      | false =>
          rw [executed_content h, List.map_cons, ih, List.filter_cons_of_pos (by simp [h])]

/-- A command of two lists in a row stands in the first or in the second. -/
theorem split_append {as bs xs ys : List Command} {c : Command}
    (h : as ++ bs = xs ++ c :: ys) :
    (∃ zs, as = xs ++ c :: zs ∧ ys = zs ++ bs) ∨ ∃ zs, xs = as ++ zs ∧ bs = zs ++ c :: ys := by
  rcases List.append_eq_append_iff.mp h with ⟨zs, hxs, hbs⟩ | ⟨zs, has, hys⟩
  · exact Or.inr ⟨zs, hxs, hbs⟩
  · cases zs with
    | nil =>
        rw [List.append_nil] at has
        exact Or.inr ⟨[], by rw [has, List.append_nil], hys.symm⟩
    | cons z zs =>
        obtain ⟨rfl, rfl⟩ := List.cons.inj hys
        exact Or.inl ⟨zs, has, rfl⟩

/-! ### Sizes that printers know -/

/-- Both magnifications are between 1 and 8. -/
def CharacterSize.Known (s : CharacterSize) : Prop :=
  (1 ≤ s.width ∧ s.width ≤ 8) ∧ (1 ≤ s.height ∧ s.height ≤ 8)

instance (s : CharacterSize) : Decidable s.Known :=
  inferInstanceAs (Decidable (_ ∧ _))

namespace CharacterSize

theorem clampAxis_bounds (n : UInt8) : 1 ≤ clampAxis n ∧ clampAxis n ≤ 8 := by
  unfold clampAxis
  split
  · decide
  · split
    · decide
    · constructor
      · exact UInt8.not_lt.mp (by assumption)
      · exact UInt8.not_lt.mp (by assumption)

theorem clampAxis_eq_self {n : UInt8} (hlo : 1 ≤ n) (hhi : n ≤ 8) : clampAxis n = n := by
  unfold clampAxis
  rw [if_neg (UInt8.not_lt.mpr hlo), if_neg (UInt8.not_lt.mpr hhi)]

/-- A size that has been brought into range is one that printers know. -/
theorem known_clamped (s : CharacterSize) : s.clamped.Known :=
  ⟨clampAxis_bounds s.width, clampAxis_bounds s.height⟩

theorem clamped_eq_self {s : CharacterSize} (h : s.Known) : s.clamped = s := by
  unfold clamped
  rw [clampAxis_eq_self h.1.1 h.1.2, clampAxis_eq_self h.2.1 h.2.2]

theorem known_normal : normal.Known := by decide

end CharacterSize

end Receipt
