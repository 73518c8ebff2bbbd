import Mathlib.Tactic

/-! # Loops -/

namespace Loop

inductive Pass (α β : Type*)
 | again (a : α)
 | leave (b : β)

variable {α β : Type*}

def run (body : α → Pass α β) : (rounds : Nat) → α → Option β
 | 0, _ => none
 | rounds + 1, a =>
  match body a with
  | .again a' => run body rounds a'
  | .leave b => some b

theorem run_of_variant (body : α → Pass α β) (Inv : α → Prop) (variant : α → Nat) (Post : β → Prop)
  (hagain : ∀ a a', Inv a → body a = .again a' → Inv a' ∧ variant a' < variant a)
  (hleave : ∀ a b, Inv a → body a = .leave b → Post b) {a : α} (ha : Inv a) :
  ∃ b, (∀ rounds > variant a, run body rounds a = some b) ∧ Post b := by
 induction hn : variant a using Nat.strong_induction_on generalizing a with
 | _ n ih =>
  cases hpass : body a with
  | leave b =>
   refine ⟨b, fun rounds hrounds => ?_, hleave a b ha hpass⟩
   obtain ⟨rounds, rfl⟩ := Nat.exists_eq_succ_of_ne_zero (Nat.ne_zero_of_lt hrounds)
   rw [run, hpass]
  | again a' =>
   obtain ⟨ha', hlt⟩ := hagain a a' ha hpass
   obtain ⟨b, hrun, hpost⟩ := ih (variant a') (hn ▸ hlt) ha' rfl
   refine ⟨b, fun rounds hrounds => ?_, hpost⟩
   obtain ⟨rounds, rfl⟩ := Nat.exists_eq_succ_of_ne_zero (Nat.ne_zero_of_lt hrounds)
   rw [run, hpass]
   exact hrun rounds (by omega)

def Reaches (body : α → Pass α β) : α → α → Prop := Relation.ReflTransGen fun a a' => body a = .again a'

variable {ε : Type*}

def guarded (body : α → Pass α β) (failure : α → Option ε) (a : α) : Pass α (Except ε β) :=
 match failure a with
 | some e => .leave (.error e)
 | none =>
  match body a with
  | .again a' => .again a'
  | .leave b => .leave (.ok b)

variable {body : α → Pass α β} {failure : α → Option ε} {a : α}

theorem run_guarded (h : ∀ b, Reaches body a b → failure b = none) (rounds : Nat) :
  run (guarded body failure) rounds a = (run body rounds a).map .ok := by
 induction rounds generalizing a with
 | zero => rfl
 | succ rounds ih =>
  rw [run, run, guarded, h a .refl]
  cases hpass : body a with
  | leave b => rfl
  | again a' => exact ih fun b hb => h b (.head hpass hb)

theorem run_guarded_error_iff :
  (∃ rounds e, run (guarded body failure) rounds a = some (.error e)) ↔ ∃ b, Reaches body a b ∧ failure b ≠ none := by
 constructor
 · rintro ⟨rounds, e, h⟩
   by_contra hnone
   rw [run_guarded] at h
   · obtain ⟨b, -, hb⟩ := Option.map_eq_some_iff.mp h
     cases hb
   · intro b hb
     by_contra hfail
     exact hnone ⟨b, hb, hfail⟩
 · rintro ⟨b, hreach, hfail⟩
   induction hreach using Relation.ReflTransGen.head_induction_on with
   | refl =>
    obtain ⟨e, he⟩ := Option.ne_none_iff_exists'.mp hfail
    refine ⟨1, e, ?_⟩
    rw [run, guarded, he]
   | @head a a' hstep _ ih =>
    obtain ⟨rounds, e, h⟩ := ih
    cases hfirst : failure a with
    | some e' =>
     refine ⟨1, e', ?_⟩
     rw [run, guarded, hfirst]
    | none =>
     refine ⟨rounds + 1, e, ?_⟩
     rw [run, guarded, hfirst, hstep]
     exact h

end Loop
