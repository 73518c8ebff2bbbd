import Lnvps.Lib.Table

/-! # Calls that take turns -/

namespace Calls

open Table List

variable {δ φ : Type}

structure Call (φ : Type) where
 id : Nat
 phase : φ

structure World (δ φ : Type) where
 db : δ
 calls : List (Call φ) := []

namespace World

variable (w : World δ φ)

def start (id : Nat) (phase : φ) : Option (World δ φ) :=
 if w.calls.all fun c => c.id ≠ id then some { w with calls := w.calls ++ [⟨id, phase⟩] } else none

def advance (id : Nat) (query : δ → φ → δ × φ) : Option (World δ φ) :=
 (lookup (·.id) id w.calls).map fun call => {
  db := (query w.db call.phase).1
  calls := updateWhere (fun c => c.id = id) (fun c => { c with phase := (query w.db call.phase).2 }) w.calls }

def alone (id : Nat) (p : φ → Bool) : Bool := w.calls.all fun c => c.id = id ∨ !p c.phase

end World

structure Holds (Inv : δ → Prop) (P : δ → φ → Prop) (w : World δ φ) : Prop where
 db : Inv w.db
 keyed : Keyed (·.id) w.calls
 phases : ∀ c ∈ w.calls, P w.db c.phase

variable {Inv : δ → Prop} {P : δ → φ → Prop} {w w' : World δ φ} {id : Nat} {phase : φ} {query : δ → φ → δ × φ}

theorem Holds.start (h : Holds Inv P w) (hstart : w.start id phase = some w') (hphase : P w.db phase) :
  Holds Inv P w' := by
 unfold World.start at hstart
 split at hstart
 · rename_i hnew
   cases hstart
   refine ⟨h.db, h.keyed.snoc fun c hc => ?_, ?_⟩
   · simpa using all_eq_true.mp hnew c hc
   · rw [forall_mem_append]
     exact ⟨h.phases, forall_mem_singleton.mpr hphase⟩
 · cases hstart

theorem Holds.advance (h : Holds Inv P w) (hadvance : w.advance id query = some w')
  (hquery : ∀ call, lookup (·.id) id w.calls = some call →
   Inv (query w.db call.phase).1 ∧ P (query w.db call.phase).1 (query w.db call.phase).2 ∧
    ∀ c ∈ w.calls, c.id ≠ id → P (query w.db call.phase).1 c.phase) : Holds Inv P w' := by
 obtain ⟨call, hcall, rfl⟩ := Option.map_eq_some_iff.mp hadvance
 obtain ⟨hdb, hown, hothers⟩ := hquery call hcall
 refine ⟨hdb, h.keyed.updateWhere fun _ _ _ => rfl, fun c hc => ?_⟩
 obtain ⟨old, hold, rfl⟩ := mem_updateWhere.mp hc
 split
 · exact hown
 · rename_i hne
   exact hothers old hold (by simpa using hne)

theorem Holds.of_lookup {call : Call φ} (h : Holds Inv P w) (hcall : lookup (·.id) id w.calls = some call) :
  P w.db call.phase := h.phases call (mem_of_lookup hcall)

theorem World.alone_iff {p : φ → Bool} : w.alone id p = true ↔ ∀ c ∈ w.calls, c.id ≠ id → p c.phase = false := by
 simp only [alone, all_eq_true, decide_eq_true_eq, Bool.not_eq_true']
 exact forall₂_congr fun c _ => or_iff_not_imp_left

end Calls
