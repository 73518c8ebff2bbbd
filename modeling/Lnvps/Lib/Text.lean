import Mathlib.Data.List.DropRight
import Mathlib.Tactic

/-! # Cutting a text -/

namespace Text

open List

variable {α : Type} {p : α → Bool} {s a b : List α} {sep : α}

def splitOnce (p : α → Bool) : List α → Option (List α × List α)
 | [] => none
 | c :: s => if p c then some ([], s) else (splitOnce p s).map fun (a, b) => (c :: a, b)

theorem splitOnce_append (ha : ∀ c ∈ a, p c = false) (hsep : p sep = true) :
  splitOnce p (a ++ sep :: b) = some (a, b) := by
 induction a with
 | nil => simp [splitOnce, hsep]
 | cons c a ih =>
  rw [forall_mem_cons] at ha
  simp [splitOnce, ha.1, ih ha.2]

theorem eq_append_of_splitOnce (h : splitOnce p s = some (a, b)) : ∃ sep, p sep = true ∧ s = a ++ sep :: b := by
 induction s generalizing a with
 | nil => exact nomatch h
 | cons c s ih =>
  rw [splitOnce] at h
  split at h
  · cases h
    exact ⟨c, ‹_›, rfl⟩
  obtain ⟨⟨a', b'⟩, hs, h⟩ := Option.map_eq_some_iff.mp h
  cases h
  obtain ⟨sep, hsep, rfl⟩ := ih hs
  exact ⟨sep, hsep, rfl⟩

def rsplitOnce (p : α → Bool) (s : List α) : Option (List α × List α) :=
 (splitOnce p s.reverse).map fun (b, a) => (a.reverse, b.reverse)

theorem rsplitOnce_append (hb : ∀ c ∈ b, p c = false) (hsep : p sep = true) :
  rsplitOnce p (a ++ sep :: b) = some (a, b) := by
 have h := @splitOnce_append α p b.reverse a.reverse sep (by simpa using hb) hsep
 simp [rsplitOnce, h]

theorem eq_append_of_rsplitOnce (h : rsplitOnce p s = some (a, b)) : ∃ sep, p sep = true ∧ s = a ++ sep :: b := by
 obtain ⟨⟨b', a'⟩, hsplit, h⟩ := Option.map_eq_some_iff.mp h
 obtain ⟨rfl, rfl⟩ := Prod.mk.inj h
 obtain ⟨sep, hsep, hs⟩ := eq_append_of_splitOnce hsplit
 exact ⟨sep, hsep, by simpa using congrArg reverse hs⟩

@[simp] theorem dropPrefix?_cons [BEq α] [ReflBEq α] (c : α) (s : List α) : (c :: s).dropPrefix? [c] = some s :=
 dropPrefix?_append_of_beq s (BEq.refl [c])

def trim (blank : α → Bool) (s : List α) : List α := (s.dropWhile blank).rdropWhile blank

theorem trim_cons (hsep : p sep = true) : trim p (sep :: s) = trim p s := by
 rw [trim, dropWhile_cons, if_pos hsep, trim]

theorem rdropWhile_append_cons {d : α} (hd : p d = false) : (a ++ d :: b).rdropWhile p = a ++ d :: b.rdropWhile p := by
 induction b using reverseRecOn with
 | nil => exact rdropWhile_concat_neg p a d (by simp [hd])
 | append_singleton b c ih =>
  rw [← cons_append, ← append_assoc, rdropWhile_concat, rdropWhile_concat, ih]
  split <;> simp

theorem trim_cons_of_neg {c : α} (hc : p c = false) : trim p (c :: s) = c :: s.rdropWhile p := by
 rw [trim, dropWhile_cons, if_neg (by simp [hc])]
 exact rdropWhile_append_cons (a := []) hc

theorem trim_blanks_append (ha : ∀ c ∈ a, p c = true) : trim p (a ++ s) = trim p s := by
 rw [trim, dropWhile_append_of_pos ha, trim]

theorem trim_append_blanks (hb : ∀ c ∈ b, p c = true) : trim p (s ++ b) = trim p s := by
 rcases hs : s.dropWhile p with _ | ⟨c, t⟩
 · rw [trim, trim, dropWhile_append, hs, dropWhile_eq_nil_iff.mpr hb]
   rfl
 rw [trim, trim, dropWhile_append, hs]
 induction b using reverseRecOn with
 | nil => simp
 | append_singleton b d ih =>
  simp only [forall_mem_append, forall_mem_singleton] at hb
  rw [← ih hb.1]
  simpa using rdropWhile_concat_pos p (c :: t ++ b) d hb.2

theorem exists_trim (p : α → Bool) (s : List α) :
  ∃ a b, (∀ c ∈ a ++ b, p c = true) ∧ s = a ++ (trim p s ++ b) := by
 refine ⟨s.takeWhile p, (s.dropWhile p).rtakeWhile p, fun c hc => ?_, ?_⟩
 · rcases mem_append.mp hc with hc | hc
   · exact mem_takeWhile_imp hc
   · exact mem_rtakeWhile_imp hc
 · rw [trim, rdropWhile_append_rtakeWhile, takeWhile_append_dropWhile]

theorem trim_rdropWhile : trim p (s.rdropWhile p) = trim p s := by
 have hblanks : trim p (s.rdropWhile p ++ s.rtakeWhile p) = trim p (s.rdropWhile p) :=
  trim_append_blanks fun c hc => mem_rtakeWhile_imp hc
 rw [← hblanks, rdropWhile_append_rtakeWhile]

theorem trim_append {c : α} (hc : p c = false) (hb : ∀ d ∈ b, p d = false) (hne : b ≠ []) :
  trim p (c :: (a ++ b)) = c :: (a ++ b) := by
 rw [trim, dropWhile_cons, if_neg (by simp [hc]), rdropWhile_eq_self_iff]
 intro _
 rw [getLast_cons (by simp [hne]), getLast_append_of_ne_nil _ hne]
 simp [hb _ (getLast_mem hne)]

theorem trim_of_forall (hs : ∀ c ∈ s, p c = false) : trim p s = s := by
 cases s with
 | nil => rfl
 | cons c s =>
  rw [trim, dropWhile_cons, if_neg (by simp [hs c]), rdropWhile_eq_self_iff]
  intro hne
  simp [hs _ (getLast_mem hne)]

theorem isDigit_toDigits (n : Nat) : ∀ c ∈ Nat.toDigits 10 n, c.isDigit = true :=
 fun _ hc => Nat.isDigit_of_mem_toDigits (by decide) (by decide) hc

theorem whole_append (n : Nat) (cs : List Char) (hcs : ∀ c ∈ cs.head?, c.isDigit = false) :
  (Nat.toDigits 10 n ++ cs).takeWhile Char.isDigit = Nat.toDigits 10 n ∧
   (Nat.toDigits 10 n ++ cs).dropWhile Char.isDigit = cs := by
 rw [takeWhile_append_of_pos (isDigit_toDigits n), dropWhile_append_of_pos (isDigit_toDigits n)]
 cases cs with
 | nil => simp
 | cons c cs =>
  have hc := hcs c rfl
  simp [hc]

def digitValue (c : Char) : Option Nat :=
 let n := "0123456789abcdef".toList.idxOf c
 if n < 16 then some n else none

theorem digitValue_digitChar {n : Nat} (h : n < 16) : digitValue (Nat.digitChar n) = some n := by
 interval_cases n <;> rfl

def readDigits (base : Nat) (cs : List Char) : Option Nat :=
 if cs = [] then none
 else cs.foldlM (fun n c => do
  let d ← digitValue c
  if d < base then some (n * base + d) else none) 0

theorem readDigits_toDigits {base : Nat} (hbase : 1 < base) (hle : base ≤ 16) (n : Nat) :
  readDigits base (Nat.toDigits base n) = some n := by
 have hdigit {d : Nat} (hd : d < base) : digitValue (Nat.digitChar d) = some d := digitValue_digitChar (by omega)
 rw [readDigits, if_neg Nat.toDigits_ne_nil]
 induction n using Nat.strong_induction_on with
 | _ n ih =>
  rw [Nat.toDigits_eq_if hbase]
  split
  · simp [hdigit ‹_›, *]
  · have hmod : n % base < base := Nat.mod_lt _ (by omega)
    rw [foldlM_append, ih _ (Nat.div_lt_self (by omega) hbase)]
    simp [hdigit hmod, hmod, Nat.div_add_mod']

theorem mem_toDigits {base n : Nat} (hbase : 1 < base) {c : Char} (hc : c ∈ Nat.toDigits base n) :
  ∃ d < base, c = Nat.digitChar d := by
 induction n using Nat.strong_induction_on with
 | _ n ih =>
  rw [Nat.toDigits_eq_if hbase] at hc
  split at hc
  · exact ⟨n, ‹_›, mem_singleton.mp hc⟩
  · rcases mem_append.mp hc with hc | hc
    · exact ih _ (Nat.div_lt_self (by omega) hbase) hc
    · exact ⟨n % base, Nat.mod_lt _ (by omega), mem_singleton.mp hc⟩

theorem mem_intercalate {c : α} {ls : List (List α)} (h : c ∈ intercalate [sep] ls) : c = sep ∨ ∃ l ∈ ls, c ∈ l := by
 induction ls with
 | nil => simp at h
 | cons l ls ih =>
  cases ls with
  | nil => exact .inr ⟨l, by simp, by simpa using h⟩
  | cons l' ls =>
   rw [intercalate_cons_cons, append_assoc, mem_append, mem_append, mem_singleton] at h
   rcases h with h | h | h
   · exact .inr ⟨l, mem_cons_self, h⟩
   · exact .inl h
   · exact (ih h).imp_right fun ⟨m, hm, hc⟩ => ⟨m, mem_cons_of_mem _ hm, hc⟩

theorem trim_trim (p : α → Bool) (s : List α) : trim p (trim p s) = trim p s := by
 rw [show trim p s = (s.dropWhile p).rdropWhile p from rfl, trim_rdropWhile, trim,
  dropWhile_idempotent]

end Text
