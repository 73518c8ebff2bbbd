import Mathlib.Data.List.Basic

/-! # Exit codes of scripts -/

namespace ExitStatus

open List

variable {α : Type} {codes : Nat → Nat} {pos : Nat}

def runAnds (codes : Nat → Nat) : (pos : Nat) → List α → List Nat × Nat
 | _, [] => ([], 0)
 | pos, _ :: rest =>
  if codes pos = 0 then
   let r := runAnds codes (pos + 1) rest
   (pos :: r.1, r.2)
  else ([pos], codes pos)

def runLists (codes : Nat → Nat) : (pos : Nat) → List (List α) → List Nat × Nat
 | _, [] => ([], 0)
 | pos, [l] => runAnds codes pos l
 | pos, l :: l' :: rest =>
  let r := runLists codes (pos + l.length) (l' :: rest)
  ((runAnds codes pos l).1 ++ r.1, r.2)

theorem runAnds_eq_zero {l : List α} : (runAnds codes pos l).2 = 0 ↔ ∀ i < l.length, codes (pos + i) = 0 := by
 induction l generalizing pos with
 | nil => simp [runAnds]
 | cons a l ih =>
  rw [runAnds]
  split
  · rename_i hzero
    rw [ih]
    constructor
    · intro h i hi
      cases i with
      | zero => exact hzero
      | succ i =>
       have := h i (Nat.lt_of_succ_lt_succ hi)
       rwa [Nat.add_assoc, Nat.add_comm 1 i] at this
    · intro h i hi
      have := h (i + 1) (Nat.succ_lt_succ hi)
      rwa [Nat.add_assoc, Nat.add_comm 1 i]
  · rename_i hfail
    constructor
    · exact fun h => absurd h hfail
    · exact fun h => absurd (h 0 (Nat.succ_pos _)) hfail

theorem mem_runAnds {l : List α} (h : ∀ i < l.length, codes (pos + i) = 0) {i : Nat} (hi : i < l.length) :
  pos + i ∈ (runAnds codes pos l).1 := by
 induction l generalizing pos i with
 | nil => exact absurd hi (Nat.not_lt_zero i)
 | cons a l ih =>
  have hzero : codes pos = 0 := h 0 (Nat.succ_pos _)
  rw [runAnds, if_pos hzero]
  cases i with
  | zero => exact mem_cons_self
  | succ i =>
   refine mem_cons_of_mem _ ?_
   rw [Nat.add_comm i 1, ← Nat.add_assoc]
   refine ih (fun j hj => ?_) (Nat.lt_of_succ_lt_succ hi)
   have := h (j + 1) (Nat.succ_lt_succ hj)
   rwa [Nat.add_comm j 1, ← Nat.add_assoc] at this

theorem runLists_concat (codes : Nat → Nat) (pos : Nat) (init : List (List α)) (last : List α) :
  (runLists codes pos (init ++ [last])).2 = (runAnds codes (pos + init.flatten.length) last).2 ∧
   ∀ i ∈ (runAnds codes (pos + init.flatten.length) last).1, i ∈ (runLists codes pos (init ++ [last])).1 := by
 induction init generalizing pos with
 | nil => exact ⟨rfl, fun _ h => h⟩
 | cons l init ih =>
  have hlen : pos + (l :: init).flatten.length = pos + l.length + init.flatten.length := by
   rw [flatten_cons, length_append, Nat.add_assoc]
  obtain ⟨l', rest, hrest⟩ : ∃ l' rest, init ++ [last] = l' :: rest := by cases init <;> simp
  obtain ⟨hstatus, hmem⟩ := ih (pos + l.length)
  rw [hlen, cons_append, hrest, runLists, ← hrest]
  exact ⟨hstatus, fun i hi => mem_append_right _ (hmem i hi)⟩

def Succeeded (mark : α → Bool) (codes : Nat → Nat) (script : List (List α)) : Prop :=
 ∀ i a, script.flatten[i]? = some a → mark a = true → i ∈ (runLists codes 0 script).1 ∧ codes i = 0

theorem succeeded_iff {mark : α → Bool} (init : List (List α)) (last : List α) :
  (∀ codes, (runLists codes 0 (init ++ [last])).2 = 0 → Succeeded mark codes (init ++ [last])) ↔
   ∀ a ∈ init.flatten, mark a = false := by
 constructor
 · intro h a ha
   by_contra hmark
   obtain ⟨i, hi, hget⟩ := getElem_of_mem ha
   have hzero : (runLists (fun j => if j = i then 1 else 0) 0 (init ++ [last])).2 = 0 := by
    rw [(runLists_concat _ 0 init last).1, runAnds_eq_zero]
    intro j _
    rw [if_neg (by omega)]
   have hsome : (init ++ [last]).flatten[i]? = some a := by
    rw [flatten_append, List.getElem?_append_left hi, List.getElem?_eq_getElem hi, hget]
   have := (h _ hzero i a hsome (by simpa using hmark)).2
   simp at this
 · intro h codes hzero i a hget hmark
   obtain ⟨hstatus, hmem⟩ := runLists_concat codes 0 init last
   rw [hstatus, runAnds_eq_zero] at hzero
   rw [flatten_append, flatten_singleton] at hget
   by_cases hi : i < init.flatten.length
   · rw [List.getElem?_append_left hi] at hget
     rw [h a (mem_of_getElem? hget)] at hmark
     cases hmark
   rw [List.getElem?_append_right (Nat.le_of_not_lt hi)] at hget
   have hlt := (List.getElem?_eq_some_iff.mp hget).1
   have hpos : 0 + init.flatten.length + (i - init.flatten.length) = i := by omega
   have hin := hmem _ (mem_runAnds hzero hlt)
   have hcode := hzero _ hlt
   rw [hpos] at hin hcode
   exact ⟨hin, hcode⟩

end ExitStatus
