/-
Joining what was read in parts.

Two neighbours are parts of one thing if they are feeds, texts, or rasters with rows
of the same bytes.  `merged` joins such neighbours from the right and drops what is
absent altogether: a feed of no lines, a raster of no rows, a text of no bytes.

All that later proofs need is `AmountsTo`: that a list of instructions, wherever it
stands, can be exchanged for another.
-/
import Mathlib.Algebra.BigOperators.Group.List.Basic
import Mathlib.Algebra.Order.BigOperators.Group.List
import Mathlib.Algebra.Order.Ring.Nat
import Receipt.Proofs.EscPos.Reader

namespace Receipt.EscPos

namespace Instruction

/-- Whether there is nothing in an instruction. -/
def isAbsent : Instruction → Bool
  | .feed lines => lines == 0
  | .raster _ rows data => rows == 0 && data.isEmpty
  | .text bytes => bytes.isEmpty
  | _ => false

/-- Two neighbours as one, if they are parts of one thing. -/
def join? : Instruction → Instruction → Option Instruction
  | .feed m, .feed n => some (.feed (m + n))
  | .raster w m as, .raster w' n bs =>
    if w = w' then some (.raster w (m + n) (as ++ bs)) else none
  | .text as, .text bs => some (.text (as ++ bs))
  | _, _ => none

end Instruction

open Instruction

/-- One instruction more at the front, joined to its neighbour if it can be. -/
def push (i : Instruction) (is : List Instruction) : List Instruction :=
  if i.isAbsent then is
  else
    match is with
    | [] => [i]
    | k :: rest =>
      match join? i k with
      | some m => m :: rest
      | none => i :: k :: rest

/-- The instructions with neighbours joined and without what is absent. -/
def merged (is : List Instruction) : List Instruction :=
  is.foldr push []

/-! ### The laws of joining -/

/-- What two neighbours that can be joined are. -/
theorem join?_cases {i k m : Instruction} (h : join? i k = some m) :
    (∃ a b, i = .feed a ∧ k = .feed b ∧ m = .feed (a + b)) ∨
    (∃ w a b as bs, i = .raster w a as ∧ k = .raster w b bs ∧
      m = .raster w (a + b) (as ++ bs)) ∨
    (∃ as bs, i = .text as ∧ k = .text bs ∧ m = .text (as ++ bs)) := by
  unfold join? at h
  split at h
  · exact Or.inl ⟨_, _, rfl, rfl, (Option.some.inj h).symm⟩
  · split at h
    · rename_i hw
      subst hw
      exact Or.inr (Or.inl ⟨_, _, _, _, _, rfl, rfl, (Option.some.inj h).symm⟩)
    · simp at h
  · exact Or.inr (Or.inr ⟨_, _, rfl, rfl, (Option.some.inj h).symm⟩)
  · simp at h

/-- Joining is associative: a third neighbour can be joined to the two just as it
can be joined to the second. -/
theorem join?_assoc {i k m : Instruction} (h : join? i k = some m) (x : Instruction) :
    join? m x = (join? k x).bind (join? i) := by
  rcases join?_cases h with ⟨a, b, rfl, rfl, rfl⟩ | ⟨w, a, b, as, bs, rfl, rfl, rfl⟩ |
    ⟨as, bs, rfl, rfl, rfl⟩
  · cases x <;> simp [join?, Nat.add_assoc]
  · cases x with
    | raster w' c cs =>
        by_cases hw : w = w'
        · simp [join?, hw, Nat.add_assoc]
        · simp [join?, hw]
    | _ => simp [join?]
  · cases x <;> simp [join?]

/-- What can be joined to the second of two parts can be joined to the first. -/
theorem join?_trans {i k x m y : Instruction} (h : join? i k = some m)
    (hx : join? k x = some y) : ∃ z, join? i y = some z := by
  rcases join?_cases h with ⟨a, b, rfl, rfl, rfl⟩ | ⟨w, a, b, as, bs, rfl, rfl, rfl⟩ |
    ⟨as, bs, rfl, rfl, rfl⟩
  · cases x with
    | feed c => exact ⟨_, by obtain rfl := Option.some.inj hx; rfl⟩
    | _ => simp [join?] at hx
  · cases x with
    | raster v c cs =>
        by_cases hw : w = v
        · subst hw
          simp only [join?, if_true, Option.some.injEq] at hx
          subst hx
          exact ⟨_, if_pos rfl⟩
        · simp [join?, hw] at hx
    | _ => simp [join?] at hx
  · cases x with
    | text cs => exact ⟨_, by obtain rfl := Option.some.inj hx; rfl⟩
    | _ => simp [join?] at hx

theorem join?_absent_left {i k m : Instruction} (h : join? i k = some m)
    (hi : i.isAbsent = true) : m = k := by
  rcases join?_cases h with ⟨a, b, rfl, rfl, rfl⟩ | ⟨w, a, b, as, bs, rfl, rfl, rfl⟩ |
    ⟨as, bs, rfl, rfl, rfl⟩ <;> simp_all [isAbsent]

theorem join?_absent_right {i k m : Instruction} (h : join? i k = some m)
    (hk : k.isAbsent = true) : m = i := by
  rcases join?_cases h with ⟨a, b, rfl, rfl, rfl⟩ | ⟨w, a, b, as, bs, rfl, rfl, rfl⟩ |
    ⟨as, bs, rfl, rfl, rfl⟩ <;> simp_all [isAbsent]

theorem join?_present {i k m : Instruction} (h : join? i k = some m)
    (hi : i.isAbsent = false) : m.isAbsent = false := by
  rcases join?_cases h with ⟨a, b, rfl, rfl, rfl⟩ | ⟨w, a, b, as, bs, rfl, rfl, rfl⟩ |
    ⟨as, bs, rfl, rfl, rfl⟩
  · simp_all [isAbsent]
  · by_cases ha : a = 0
    · simp_all [isAbsent]
    · simp [isAbsent, ha]
  · simp_all [isAbsent]

theorem push_absent {i : Instruction} (h : i.isAbsent = true) (is : List Instruction) :
    push i is = is := by
  unfold push
  rw [if_pos h]

theorem push_nil {i : Instruction} (h : i.isAbsent = false) : push i [] = [i] := by
  unfold push
  rw [if_neg (by simp [h])]

theorem push_cons {i : Instruction} (h : i.isAbsent = false) (k : Instruction)
    (is : List Instruction) :
    push i (k :: is) = match join? i k with
      | some m => m :: is
      | none => i :: k :: is := by
  unfold push
  rw [if_neg (by simp [h])]

/-- **Two parts pushed one after the other are the whole pushed at once.** -/
theorem push_push {i k m : Instruction} (h : join? i k = some m) (is : List Instruction) :
    push i (push k is) = push m is := by
  cases hk : k.isAbsent with
  | true => rw [push_absent hk, join?_absent_right h hk]
  | false =>
      cases hi : i.isAbsent with
      | true => rw [push_absent hi, join?_absent_left h hi]
      | false =>
          have hm := join?_present h hi
          cases is with
          | nil => rw [push_nil hk, push_cons hi, h, push_nil hm]
          | cons x rest =>
              have hassoc := join?_assoc h x
              rw [push_cons hk, push_cons hm]
              cases hx : join? k x with
              | none =>
                  rw [hx] at hassoc
                  rw [hassoc]
                  simp only [Option.bind_none]
                  rw [push_cons hi, h]
              | some y =>
                  rw [hx] at hassoc
                  rw [hassoc, Option.bind_some]
                  simp only
                  rw [push_cons hi]
                  obtain ⟨z, hz⟩ := join?_trans h hx
                  rw [hz]

/-! ### Lists that amount to the same -/

/-- Wherever one list stands, the other may stand instead. -/
def AmountsTo (is ks : List Instruction) : Prop :=
  ∀ rest, is.foldr push rest = ks.foldr push rest

theorem AmountsTo.refl (is : List Instruction) : AmountsTo is is :=
  fun _ => rfl

theorem AmountsTo.append {is ks is' ks' : List Instruction} (h : AmountsTo is ks)
    (h' : AmountsTo is' ks') : AmountsTo (is ++ is') (ks ++ ks') := by
  intro rest
  rw [List.foldr_append, List.foldr_append, h' rest, h]

theorem AmountsTo.merged_eq {is ks : List Instruction} (h : AmountsTo is ks) :
    merged is = merged ks :=
  h []

theorem amountsTo_absent {i : Instruction} (h : i.isAbsent = true) : AmountsTo [] [i] :=
  fun rest => (push_absent h rest).symm

theorem AmountsTo.join {is : List Instruction} {i k m : Instruction} (h : AmountsTo is [k])
    (hj : join? i k = some m) : AmountsTo (i :: is) [m] := by
  intro rest
  rw [List.foldr_cons, h rest]
  exact push_push hj rest

theorem amountsTo_text (bytes : List UInt8) :
    AmountsTo (bytes.map fun b => .text [b]) [.text bytes] := by
  induction bytes with
  | nil => exact amountsTo_absent rfl
  | cons b rest ih => exact ih.join rfl

theorem amountsTo_feed (counts : List Nat) :
    AmountsTo (counts.map .feed) [.feed counts.sum] := by
  induction counts with
  | nil => exact amountsTo_absent rfl
  | cons n rest ih => exact ih.join rfl

/-! ### Quantities

A quantity that joining adds up is the same before and after merging.
-/

/-- A quantity of instructions that joining adds up. -/
structure Additive (f : Instruction → Nat) : Prop where
  join : ∀ {i k m}, join? i k = some m → f m = f i + f k
  absent : ∀ {i}, i.isAbsent = true → f i = 0

theorem Additive.push {f : Instruction → Nat} (hf : Additive f) (i : Instruction)
    (is : List Instruction) : ((push i is).map f).sum = f i + (is.map f).sum := by
  cases hi : i.isAbsent with
  | true => rw [push_absent hi, hf.absent hi, Nat.zero_add]
  | false =>
      cases is with
      | nil => rw [push_nil hi]; rfl
      | cons k rest =>
          rw [push_cons hi]
          cases hj : join? i k with
          | none => simp
          | some m => simp [hf.join hj, Nat.add_assoc]

theorem Additive.merged {f : Instruction → Nat} (hf : Additive f) (is : List Instruction) :
    ((merged is).map f).sum = (is.map f).sum := by
  induction is with
  | nil => rfl
  | cons i rest ih =>
      rw [show EscPos.merged (i :: rest) = EscPos.push i (EscPos.merged rest) from rfl,
        hf.push, ih, List.map_cons, List.sum_cons]

/-- What merges to the same has as much of the quantity. -/
theorem Additive.sum_eq {f : Instruction → Nat} (hf : Additive f) {is ks : List Instruction}
    (h : EscPos.merged is = EscPos.merged ks) : (is.map f).sum = (ks.map f).sum := by
  rw [← hf.merged is, h, hf.merged]

/-- What merges to instructions that have nothing of a quantity has nothing of it. -/
theorem Additive.zero_of_merged_eq {f : Instruction → Nat} (hf : Additive f)
    {is ks : List Instruction} (his : ∀ i ∈ is, f i = 0)
    (h : EscPos.merged is = EscPos.merged ks) : ∀ k ∈ ks, f k = 0 := by
  have hzero : (ks.map f).sum = 0 := by
    rw [← hf.sum_eq h, List.sum_eq_zero_iff]
    intro n hn
    obtain ⟨i, hi, rfl⟩ := List.mem_map.mp hn
    exact his i hi
  exact fun k hk => List.sum_eq_zero_iff.mp hzero _ (List.mem_map_of_mem hk)

/-- The bytes that the dimensions of a raster ask for. -/
def Instruction.area : Instruction → Nat
  | .raster rowBytes rows _ => rowBytes * rows
  | _ => 0

def Instruction.dataLength : Instruction → Nat
  | .raster _ _ data => data.length
  | _ => 0

theorem additive_area : Additive Instruction.area where
  join h := by
    rcases join?_cases h with ⟨a, b, rfl, rfl, rfl⟩ | ⟨w, a, b, as, bs, rfl, rfl, rfl⟩ |
      ⟨as, bs, rfl, rfl, rfl⟩
    · rfl
    · exact Nat.mul_add w a b
    · rfl
  absent {i} h := by
    cases i with
    | raster w rows data =>
        simp only [isAbsent, Bool.and_eq_true, beq_iff_eq] at h
        simp [Instruction.area, h.1]
    | _ => rfl

theorem additive_dataLength : Additive Instruction.dataLength where
  join h := by
    rcases join?_cases h with ⟨a, b, rfl, rfl, rfl⟩ | ⟨w, a, b, as, bs, rfl, rfl, rfl⟩ |
      ⟨as, bs, rfl, rfl, rfl⟩
    · rfl
    · exact List.length_append
    · rfl
  absent {i} h := by
    cases i with
    | raster w rows data =>
        simp only [isAbsent, Bool.and_eq_true, List.isEmpty_iff] at h
        simp [Instruction.dataLength, h.2]
    | _ => rfl

/-- An instruction is whole exactly if it has the bytes that it asks for. -/
theorem whole_iff (i : Instruction) : i.Whole ↔ i.dataLength = i.area := by
  cases i <;> simp [Instruction.Whole, Instruction.dataLength, Instruction.area]

end Receipt.EscPos
