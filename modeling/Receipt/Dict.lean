/-
Dictionaries: text keys in increasing order, each with one value.

The order is that of code points.  It is part of the type, so two dictionaries
with the same keys and values are equal, and whoever lists the entries sees them
in this order.
-/
namespace Receipt

/-- A finite map from text keys, kept in increasing order of the keys. -/
structure Dict (α : Type) where
  /-- The keys with their values, in order. -/
  entries : List (String × α)
  /-- Every key stands before the keys greater than it, and no key twice. -/
  sorted : entries.Pairwise fun a b => a.1 < b.1

namespace Dict

variable {α : Type}

theorem lt_of_not_lt_of_ne {a b : String} (h : ¬a < b) (hne : a ≠ b) : b < a := by
  by_cases hb : b < a
  · exact hb
  · exact absurd (String.le_antisymm (String.not_lt.mp hb) (String.not_lt.mp h)) hne

/-! ### Lists of entries -/

/-- The entries with `v` under `k`, in place of what was there. -/
def insertEntry (k : String) (v : α) : List (String × α) → List (String × α)
  | [] => [(k, v)]
  | e :: rest =>
    if k < e.1 then (k, v) :: e :: rest
    else if k = e.1 then (k, v) :: rest
    else e :: insertEntry k v rest

theorem mem_insertEntry {k : String} {v : α} {l : List (String × α)} {e : String × α}
    (h : e ∈ insertEntry k v l) : e = (k, v) ∨ e ∈ l := by
  induction l with
  | nil => exact Or.inl (by simpa [insertEntry] using h)
  | cons a rest ih =>
    unfold insertEntry at h
    split at h
    · simpa using h
    · split at h
      · rcases List.mem_cons.mp h with h | h
        · exact Or.inl h
        · exact Or.inr (List.mem_cons_of_mem _ h)
      · rcases List.mem_cons.mp h with h | h
        · exact Or.inr (h ▸ List.mem_cons_self)
        · exact (ih h).imp id (List.mem_cons_of_mem _)

theorem insertEntry_sorted (k : String) (v : α) {l : List (String × α)}
    (h : l.Pairwise fun a b => a.1 < b.1) :
    (insertEntry k v l).Pairwise fun a b => a.1 < b.1 := by
  induction l with
  | nil => simp [insertEntry]
  | cons a rest ih =>
    obtain ⟨ha, hrest⟩ := List.pairwise_cons.mp h
    unfold insertEntry
    split
    · rename_i hk
      refine List.pairwise_cons.mpr ⟨fun b hb => ?_, h⟩
      rcases List.mem_cons.mp hb with rfl | hb
      · exact hk
      · exact String.lt_trans hk (ha b hb)
    · split
      · rename_i hk
        exact List.pairwise_cons.mpr ⟨fun b hb => hk ▸ ha b hb, hrest⟩
      · rename_i hlt hne
        refine List.pairwise_cons.mpr ⟨fun b hb => ?_, ih hrest⟩
        rcases mem_insertEntry hb with rfl | hb
        · exact lt_of_not_lt_of_ne hlt hne
        · exact ha b hb

/-! ### Dictionaries -/

def empty : Dict α :=
  ⟨[], List.Pairwise.nil⟩

instance : Inhabited (Dict α) := ⟨empty⟩

instance : EmptyCollection (Dict α) := ⟨empty⟩

def get? (d : Dict α) (k : String) : Option α :=
  d.entries.lookup k

def contains (d : Dict α) (k : String) : Bool :=
  (d.get? k).isSome

/-- The dictionary with `v` under `k`; a value that was there is replaced. -/
def insert (d : Dict α) (k : String) (v : α) : Dict α :=
  ⟨insertEntry k v d.entries, insertEntry_sorted k v d.sorted⟩

def erase (d : Dict α) (k : String) : Dict α :=
  ⟨d.entries.filter fun e => e.1 != k, d.sorted.filter _⟩

def size (d : Dict α) : Nat :=
  d.entries.length

def isEmpty (d : Dict α) : Bool :=
  d.entries.isEmpty

/-- The dictionary of a list of entries.  Of a repeated key the last value holds. -/
def ofList (l : List (String × α)) : Dict α :=
  l.foldl (fun d e => d.insert e.1 e.2) empty

end Dict

end Receipt
