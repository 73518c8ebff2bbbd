import Lnvps.Compose

/-! # The references of a compose document -/

namespace Lnvps.Compose

open Template

def extractRefs : List Char → List String
 | '$' :: '{' :: rest =>
  if '}' ∈ rest then
   let name := String.ofList (rest.takeWhile (· ≠ '}'))
   (if name.isEmpty then [] else [name]) ++ extractRefs (rest.dropWhile (· ≠ '}')).tail
  else extractRefs ('{' :: rest)
 | _ :: rest => extractRefs rest
 | [] => []
termination_by s => s.length
decreasing_by
 · have := (List.dropWhile_sublist (l := rest) (· ≠ '}')).length_le
   grind
 · simp
 · simp

theorem extractRefs_of_notMem {s : List Char} (hs : '}' ∉ s) : extractRefs s = [] := by
 fun_induction extractRefs s <;> simp_all

theorem lookups_extractRefs (bound : String → Bool) (s : List Char) :
  (lookups bound s).filter (!·.isEmpty) <+: extractRefs s ∧
   ((∀ name ∈ lookups bound s, bound name = true) → (lookups bound s).filter (!·.isEmpty) = extractRefs s) := by
 fun_induction lookups bound s with
 | case1 rest hclosed name ih =>
  rw [extractRefs, if_pos hclosed]
  change (name :: _).filter _ <+: (if name.isEmpty then [] else [name]) ++ _ ∧
   (_ → (name :: _).filter _ = (if name.isEmpty then [] else [name]) ++ _)
  clear_value name
  generalize lookups bound _ = names at *
  generalize extractRefs _ = refs at *
  cases hbound : bound name with
  | true => cases hempty : name.isEmpty <;> simpa [hbound, hempty] using ih
  | false => cases hempty : name.isEmpty <;> simp [hbound, hempty]
 | case2 rest hopen => simp [extractRefs_of_notMem, hopen]
 | case3 c rest hopen ih =>
  rw [extractRefs]
  · exact ih
  · exact hopen
 | case4 => simp [extractRefs]

def lookedUp (s : String) (vars : Vars) : List String := lookups (fun name => (vars.lookup name).isSome) s.toList

theorem substitute_single_pass (s : String) (vars : Vars) :
  ((∃ out, substitute s vars = .ok out) ↔
   ∃ names, Template.refs s = some names ∧ ∀ name ∈ names, (vars.lookup name).isSome = true) ∧
  (∀ out, substitute s vars = .ok out ↔ Expansion (fun name => vars.lookup name) s.toList out.toList) ∧
  (lookedUp s vars).filter (!·.isEmpty) <+: extractRefs s.toList ∧
  ((∀ name ∈ lookedUp s vars, (vars.lookup name).isSome = true) →
   (lookedUp s vars).filter (!·.isEmpty) = extractRefs s.toList) := by
 refine ⟨substitute_ok_iff s, fun out => ?_, lookups_extractRefs _ s.toList⟩
 rw [substitute, expand, Outcome.map_eq_ok]
 constructor
 · rintro ⟨chars, h, rfl⟩
   rw [String.toList_ofList]
   exact expandFrom_eq_ok.mp h
 · intro h
   exact ⟨_, expandFrom_eq_ok.mpr h, String.ofList_toList⟩

/-- Without a value for the first name the second one is not looked up. -/
theorem lookedUp_stops : lookedUp "$\x7bA\x7d$\x7bB\x7d" [] = ["A"] ∧
  extractRefs "$\x7bA\x7d$\x7bB\x7d".toList = ["A", "B"] := by
 constructor
 · simp [lookedUp, lookups]
 · simp [extractRefs]

end Lnvps.Compose
