import Mathlib.Tactic

/-! # Fallible computations -/

namespace Outcome

open List

variable {ε α β : Type}

def ofOption (e : ε) : Option α → Except ε α
 | some a => .ok a
 | none => .error e

def ensure (c : Bool) (e : ε) : Except ε Unit := if c then .ok () else .error e

variable {x : Except ε α} {f : α → Except ε β} {e : ε} {xs : List α}

theorem bind_eq_ok {b : β} : (x >>= f) = .ok b ↔ ∃ a, x = .ok a ∧ f a = .ok b := by
 cases x with
 | error e => exact ⟨nofun, fun ⟨_, h, _⟩ => nomatch h⟩
 | ok a =>
  constructor
  · intro h
    exact ⟨a, rfl, h⟩
  · rintro ⟨a', h, hf⟩
    cases h
    exact hf

theorem bind_eq_error : (x >>= f) = .error e ↔ x = .error e ∨ ∃ a, x = .ok a ∧ f a = .error e := by
 cases x with
 | error e' | ok a => simp [bind, Except.bind]

@[simp] theorem mapError_eq_ok {ε' : Type} {f : ε → ε'} {a : α} : x.mapError f = .ok a ↔ x = .ok a := by
 cases x <;> simp [Except.mapError]

theorem map_eq_ok {f : α → β} {b : β} : x.map f = .ok b ↔ ∃ a, x = .ok a ∧ f a = b := by
 cases x <;> simp [Except.map]

theorem map_ok_iff {f : α → β} : (∃ b, x.map f = .ok b) ↔ ∃ a, x = .ok a := by
 cases x with
 | error e => exact ⟨nofun, nofun⟩
 | ok a => exact ⟨fun _ => ⟨a, rfl⟩, fun _ => ⟨f a, rfl⟩⟩

@[simp] theorem ofOption_eq_ok {x : Option α} {a : α} : ofOption e x = .ok a ↔ x = some a := by
 cases x with
 | none => exact ⟨nofun, nofun⟩
 | some b => simp [ofOption]

@[simp] theorem ensure_eq_ok {c : Bool} {u : Unit} : ensure c e = .ok u ↔ c = true := by
 cases c with
 | false => exact ⟨nofun, nofun⟩
 | true => simp [ensure]

@[simp] theorem ofOption_eq_error {e' : ε} {x : Option α} : ofOption e x = .error e' ↔ x = none ∧ e = e' := by
 cases x <;> simp [ofOption]

@[simp] theorem ensure_eq_error {e' : ε} {c : Bool} : ensure c e = .error e' ↔ c = false ∧ e = e' := by
 cases c <;> simp [ensure]

theorem toOption_eq_some {x : Except ε α} {a : α} : x.toOption = some a ↔ x = .ok a := by
 cases x <;> simp [Except.toOption]

theorem forM_eq_ok {f : α → Except ε Unit} : xs.forM f = .ok () ↔ ∀ x ∈ xs, f x = .ok () := by
 induction xs with
 | nil => simp [List.forM, pure, Except.pure]
 | cons x xs ih =>
  rw [List.forM, bind_eq_ok, forall_mem_cons, ← ih]
  constructor
  · rintro ⟨_, hx, hxs⟩
    exact ⟨hx, hxs⟩
  · rintro ⟨hx, hxs⟩
    exact ⟨(), hx, hxs⟩

theorem mapM_cons_eq_ok {x : α} {ys : List β} :
  (x :: xs).mapM f = .ok ys ↔ ∃ y ys', f x = .ok y ∧ xs.mapM f = .ok ys' ∧ ys = y :: ys' := by
 rw [mapM_cons, bind_eq_ok]
 constructor
 · rintro ⟨y, hy, hrest⟩
   obtain ⟨ys', hys, heq⟩ := bind_eq_ok.mp hrest
   exact ⟨y, ys', hy, hys, (Except.ok.inj heq).symm⟩
 · rintro ⟨y, ys', hy, hys, rfl⟩
   exact ⟨y, hy, bind_eq_ok.mpr ⟨ys', hys, rfl⟩⟩

theorem mapM_eq_map {g : α → β} (h : ∀ x ∈ xs, f x = .ok (g x)) : xs.mapM f = .ok (xs.map g) := by
 induction xs with
 | nil => rfl
 | cons x xs ih =>
  rw [forall_mem_cons] at h
  exact mapM_cons_eq_ok.mpr ⟨g x, xs.map g, h.1, ih h.2, rfl⟩

theorem mapM_ok_iff : (∃ ys, xs.mapM f = .ok ys) ↔ ∀ x ∈ xs, ∃ y, f x = .ok y := by
 induction xs with
 | nil => simp [pure, Except.pure]
 | cons x xs ih =>
  rw [forall_mem_cons, ← ih]
  constructor
  · rintro ⟨ys, h⟩
    obtain ⟨y, ys', hy, hys, -⟩ := mapM_cons_eq_ok.mp h
    exact ⟨⟨y, hy⟩, ys', hys⟩
  · rintro ⟨⟨y, hy⟩, ys', hys⟩
    exact ⟨y :: ys', mapM_cons_eq_ok.mpr ⟨y, ys', hy, hys, rfl⟩⟩

theorem mem_of_mapM {ys : List β} (h : xs.mapM f = .ok ys) {y : β} : y ∈ ys ↔ ∃ x ∈ xs, f x = .ok y := by
 induction xs generalizing ys with
 | nil =>
  cases h
  simp
 | cons x xs ih =>
  obtain ⟨z, zs, hz, hzs, rfl⟩ := mapM_cons_eq_ok.mp h
  rw [mem_cons, ih hzs]
  simp [hz, eq_comm]

end Outcome
