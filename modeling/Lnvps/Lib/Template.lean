import Lnvps.Lib.Outcome

/-! # Texts with references -/

namespace Template

open Outcome List

variable {ε : Type}

def refsFrom : Option (List Char) → List Char → Option (List String)
 | none, '$' :: '{' :: rest => refsFrom (some []) rest
 | none, _ :: rest => refsFrom none rest
 | none, [] => some []
 | some name, '}' :: rest => (refsFrom none rest).map fun names => String.ofList name.reverse :: names
 | some name, c :: rest => refsFrom (some (c :: name)) rest
 | some _, [] => none

def refs (template : String) : Option (List String) := refsFrom none template.toList

def expandFrom (value : String → Except ε String) (unclosed : ε) :
  Option (List Char) → List Char → Except ε (List Char)
 | none, '$' :: '{' :: rest => expandFrom value unclosed (some []) rest
 | none, c :: rest => (expandFrom value unclosed none rest).map fun out => c :: out
 | none, [] => .ok []
 | some name, '}' :: rest =>
  match value (String.ofList name.reverse) with
  | .error e => .error e
  | .ok v => (expandFrom value unclosed none rest).map fun out => v.toList ++ out
 | some name, c :: rest => expandFrom value unclosed (some (c :: name)) rest
 | some _, [] => .error unclosed

def expand (value : String → Except ε String) (unclosed : ε) (template : String) : Except ε String :=
 (expandFrom value unclosed none template.toList).map String.ofList

variable {value : String → Except ε String} {unclosed : ε}

theorem expandFrom_ok_iff (mode : Option (List Char)) (s : List Char) :
  (∃ out, expandFrom value unclosed mode s = .ok out) ↔
   ∃ names, refsFrom mode s = some names ∧ ∀ name ∈ names, ∃ v, value name = .ok v := by
 fun_induction refsFrom mode s with
 | case1 rest ih => exact ih
 | case2 c rest hopen ih =>
  rw [expandFrom]
  · rw [map_ok_iff, ih]
  · exact hopen
 | case3 => simp [expandFrom]
 | case4 name rest ih =>
  rw [expandFrom]
  cases hv : value (String.ofList name.reverse) with
  | error e => simp [hv]
  | ok v => simp [map_ok_iff, ih, hv]
 | case5 name c rest hclose ih =>
  rw [expandFrom]
  · exact ih
  · exact hclose
 | case6 name => simp [expandFrom]

theorem expand_ok_iff (template : String) : (∃ out, expand value unclosed template = .ok out) ↔
  ∃ names, refs template = some names ∧ ∀ name ∈ names, ∃ v, value name = .ok v := by
 rw [expand, map_ok_iff]
 exact expandFrom_ok_iff none template.toList

inductive Expansion (value : String → Option String) : List Char → List Char → Prop
 | nil : Expansion value [] []
 | literal {c : Char} {rest out : List Char} (hc : ¬['$', '{'] <+: c :: rest) (h : Expansion value rest out) :
   Expansion value (c :: rest) (c :: out)
 | reference {name rest out : List Char} {v : String} (hname : '}' ∉ name) (hv : value (String.ofList name) = some v)
   (h : Expansion value rest out) : Expansion value ('$' :: '{' :: (name ++ '}' :: rest)) (v.toList ++ out)

variable {e : String → ε} {s out : List Char}

theorem scan_induction {P : List Char → Prop} (nil : P [])
  (literal : ∀ c rest, ¬['$', '{'] <+: c :: rest → P rest → P (c :: rest))
  (reference : ∀ name rest, '}' ∉ name → P rest → P ('$' :: '{' :: (name ++ '}' :: rest)))
  (unclosed : ∀ rest, '}' ∉ rest → P ('$' :: '{' :: rest)) (s : List Char) : P s := by
 induction hn : s.length using Nat.strong_induction_on generalizing s with | _ n ih
 subst hn
 rcases s with _ | ⟨c, rest⟩
 · exact nil
 by_cases hopen : ['$', '{'] <+: c :: rest
 · obtain ⟨rest', ht⟩ := hopen
   obtain ⟨rfl, rfl⟩ := cons.inj ht
   by_cases hclosed : '}' ∈ rest'
   · obtain ⟨name, rest, rfl, hname⟩ := eq_append_cons_of_mem hclosed
     exact reference name rest hname (ih _ (by simp; omega) rest rfl)
   · exact unclosed rest' hclosed
 · exact literal c rest hopen (ih _ (by simp) rest rfl)

section Expand

variable {value : String → Except ε String} {unclosed : ε}

theorem expandFrom_literal {c : Char} (hc : ¬['$', '{'] <+: c :: s) :
  expandFrom value unclosed none (c :: s) = (expandFrom value unclosed none s).map fun out => c :: out := by
 rw [expandFrom]
 rintro r rfl rfl
 exact hc (by simp)

theorem expandFrom_closed {name : List Char} (hname : '}' ∉ name) (acc rest : List Char) :
  expandFrom value unclosed (some acc) (name ++ '}' :: rest) =
   (value (String.ofList (acc.reverse ++ name))).bind fun v =>
    (expandFrom value unclosed none rest).map fun out => v.toList ++ out := by
 induction name generalizing acc with
 | nil =>
  rw [nil_append, append_nil, expandFrom]
  cases value (String.ofList acc.reverse) <;> rfl
 | cons c name ih =>
  rw [mem_cons, not_or] at hname
  rw [cons_append, expandFrom, ih hname.2, reverse_cons, append_assoc, singleton_append]
  exact Ne.symm hname.1

theorem expandFrom_unclosed (hs : '}' ∉ s) (acc : List Char) :
  expandFrom value unclosed (some acc) s = .error unclosed := by
 induction s generalizing acc with
 | nil => rfl
 | cons c s ih =>
  rw [mem_cons, not_or] at hs
  rw [expandFrom, ih hs.2]
  exact Ne.symm hs.1

end Expand

theorem expandFrom_eq_ok {value : String → Option String} {unclosed : ε} :
  expandFrom (fun name => ofOption (e name) (value name)) unclosed none s = .ok out ↔ Expansion value s out := by
 constructor
 · induction s using scan_induction generalizing out with
   | nil =>
    intro h
    cases h
    exact .nil
   | literal c rest hc ih =>
    rw [expandFrom_literal hc, map_eq_ok]
    rintro ⟨out, h, rfl⟩
    exact .literal hc (ih h)
   | reference name rest hname ih =>
    intro h
    obtain ⟨v, hv, h⟩ := bind_eq_ok.mp ((expandFrom_closed hname [] rest).symm.trans h)
    obtain ⟨out', h', rfl⟩ := map_eq_ok.mp h
    exact .reference hname (ofOption_eq_ok.mp hv) (ih h')
   | unclosed rest hrest =>
    intro h
    cases (expandFrom_unclosed hrest []).symm.trans h
 · intro h
   induction h with
   | nil => rfl
   | literal hc h ih =>
    rw [expandFrom_literal hc, ih]
    rfl
   | reference hname hv h ih =>
    rw [expandFrom, expandFrom_closed hname, reverse_nil, nil_append, hv, ih]
    rfl

def lookups (bound : String → Bool) : List Char → List String
 | '$' :: '{' :: rest =>
  if '}' ∈ rest then
   let name := String.ofList (rest.takeWhile (· ≠ '}'))
   name :: if bound name then lookups bound (rest.dropWhile (· ≠ '}')).tail else []
  else []
 | _ :: rest => lookups bound rest
 | [] => []
termination_by s => s.length
decreasing_by
 · have := (List.dropWhile_sublist (l := rest) (· ≠ '}')).length_le
   grind
 · simp

end Template
