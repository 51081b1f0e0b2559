/-
What is found in a dictionary is what is listed in it.

So two dictionaries in which the same is found are the same, their entries being in order, and
what an operation does is said by what is found behind it.
-/
import Mathlib.Data.List.Sort
import Receipt.Dict

namespace Receipt.Dict

variable {α : Type}

theorem lookup_eq_some_iff_mem {l : List (String × α)} (h : l.Pairwise fun a b => a.1 < b.1)
    {k : String} {v : α} : l.lookup k = some v ↔ (k, v) ∈ l := by
  induction l with
  | nil => simp
  | cons e rest ih =>
      obtain ⟨first, hrest⟩ := List.pairwise_cons.mp h
      obtain ⟨k', v'⟩ := e
      rw [List.lookup_cons]
      cases hk : k == k' with
      | true =>
          obtain rfl := eq_of_beq hk
          -- The key cannot stand further behind as well.
          have hnot : (k, v) ∉ rest := fun hmem => String.lt_irrefl k (first _ hmem)
          simp [hnot, eq_comm]
      | false =>
          have hne : k ≠ k' := by simpa using hk
          simp [ih hrest, hne]

/-- **A key is found with the one value that is listed under it.** -/
theorem get?_eq_some_iff (d : Dict α) {k : String} {v : α} :
    d.get? k = some v ↔ (k, v) ∈ d.entries :=
  lookup_eq_some_iff_mem d.sorted

/-! ### What the operations leave to be found -/

theorem lookup_cons_eq_ite (e : String × α) (rest : List (String × α)) (key : String) :
    (e :: rest).lookup key = if key = e.1 then some e.2 else rest.lookup key := by
  rw [List.lookup_cons]
  by_cases hkey : key = e.1
  · rw [if_pos hkey, beq_iff_eq.mpr hkey]
  · rw [if_neg hkey, beq_eq_false_iff_ne.mpr hkey]

theorem lookup_insertEntry (k : String) (v : α) (l : List (String × α)) (key : String) :
    (insertEntry k v l).lookup key = if key = k then some v else l.lookup key := by
  induction l with
  | nil => rw [insertEntry, lookup_cons_eq_ite]
  | cons e rest ih =>
      unfold insertEntry
      split
      · rw [lookup_cons_eq_ite]
      · split
        · rename_i hk
          rw [lookup_cons_eq_ite, lookup_cons_eq_ite e, ← hk]
          split <;> rfl
        · rename_i hk
          rw [lookup_cons_eq_ite, lookup_cons_eq_ite, ih]
          by_cases hkey : key = e.1
          · rw [if_pos hkey, if_pos hkey, if_neg fun h => hk (h.symm.trans hkey)]
          · rw [if_neg hkey, if_neg hkey]

theorem lookup_filter_ne (k : String) (l : List (String × α)) (key : String) :
    (l.filter fun e => e.1 != k).lookup key = if key = k then none else l.lookup key := by
  induction l with
  | nil => exact (ite_self none).symm
  | cons e rest ih =>
      by_cases hk : e.1 = k
      · rw [List.filter_cons_of_neg (by simpa using hk), ih, lookup_cons_eq_ite, hk]
        split <;> rfl
      · rw [List.filter_cons_of_pos (by simpa using hk), lookup_cons_eq_ite, lookup_cons_eq_ite, ih]
        by_cases hkey : key = e.1
        · rw [if_pos hkey, if_pos hkey, if_neg fun h => hk (hkey.symm.trans h)]
        · rw [if_neg hkey, if_neg hkey]

theorem get?_insert (d : Dict α) (k : String) (v : α) (key : String) :
    (d.insert k v).get? key = if key = k then some v else d.get? key :=
  lookup_insertEntry k v d.entries key

theorem get?_erase (d : Dict α) (k key : String) :
    (d.erase k).get? key = if key = k then none else d.get? key :=
  lookup_filter_ne k d.entries key

/-- **Dictionaries in which the same is found are the same.** -/
theorem ext_get? {d e : Dict α} (h : ∀ k, d.get? k = e.get? k) : d = e := by
  have : Std.Irrefl fun a b : String × α => a.1 < b.1 := ⟨fun a => String.lt_irrefl a.1⟩
  have : Std.Antisymm fun a b : String × α => a.1 < b.1 :=
    ⟨fun a b hab hba => absurd (String.lt_trans hab hba) (String.lt_irrefl a.1)⟩
  have hentries : d.entries = e.entries := d.sorted.eq_of_mem_iff e.sorted fun ⟨k, v⟩ => by
    rw [← d.get?_eq_some_iff, h k, e.get?_eq_some_iff]
  obtain ⟨l, hl⟩ := d
  obtain ⟨m, hm⟩ := e
  obtain rfl : l = m := hentries
  rfl

/-! ### Entries in order -/

/-- An entry behind all others goes to the end. -/
theorem insertEntry_eq_append {k : String} {v : α} {l : List (String × α)}
    (h : ∀ e ∈ l, e.1 < k) : insertEntry k v l = l ++ [(k, v)] := by
  induction l with
  | nil => rfl
  | cons e rest ih =>
      have he : e.1 < k := h e (by simp)
      have hne : k ≠ e.1 := fun hk => String.lt_irrefl e.1 (hk ▸ he)
      unfold insertEntry
      rw [if_neg fun hk => String.lt_irrefl k (String.lt_trans hk he), if_neg hne,
        ih fun e he => h e (by simp [he])]
      rfl

/-- Entries that follow in order go to the end one after the other. -/
theorem entries_foldl_insert {d : Dict α} {l : List (String × α)}
    (h : (d.entries ++ l).Pairwise fun a b => a.1 < b.1) :
    (l.foldl (fun d e => d.insert e.1 e.2) d).entries = d.entries ++ l := by
  induction l generalizing d with
  | nil => simp
  | cons e rest ih =>
      have hentries : (d.insert e.1 e.2).entries = d.entries ++ [e] :=
        insertEntry_eq_append fun a ha => (List.pairwise_append.mp h).2.2 a ha e (by simp)
      have hsorted : d.entries ++ e :: rest = (d.insert e.1 e.2).entries ++ rest := by simp [hentries]
      rw [List.foldl_cons, hsorted]
      exact ih (hsorted ▸ h)

/-- **A dictionary is that of its entries.** -/
theorem ofList_entries (d : Dict α) : ofList d.entries = d := by
  have hentries : (ofList d.entries).entries = d.entries :=
    entries_foldl_insert (d := empty) d.sorted
  exact ext_get? fun k => congrArg (List.lookup k) hentries

end Receipt.Dict
