import Mathlib.Tactic

/-! # Programs over one slot -/

namespace Slots

open Function

variable {κ σ α β ι : Type} {key : κ}

theorem run_filter {step : (κ → σ) → ι → κ → σ} {concerns : ι → Bool}
  (hframe : ∀ st l, concerns l = false → step st l key = st key)
  (hcongr : ∀ st st' l, st key = st' key → step st l key = step st' l key) {st st' : κ → σ}
  (h : st key = st' key) (ls : List ι) : ls.foldl step st key = (ls.filter concerns).foldl step st' key := by
 induction ls generalizing st st' with
 | nil => exact h
 | cons l ls ih =>
  cases hl : concerns l with
  | true =>
   rw [List.filter_cons_of_pos hl]
   exact ih (hcongr st st' l h)
  | false =>
   rw [List.filter_cons_of_neg (by simp [hl])]
   exact ih ((hframe st l hl).trans h)

variable {m : StateM (κ → σ) α}

theorem map_apply (f : α → β) (st : κ → σ) : (f <$> m) st = (f (m st).1, (m st).2) := rfl

theorem bind_apply (f : α → StateM (κ → σ) β) (st : κ → σ) : (m >>= f) st = f (m st).1 (m st).2 := rfl

variable [DecidableEq κ]

def Local (key : κ) (m : StateM (κ → σ) α) : Prop :=
 ∃ g : σ → α × σ, ∀ st, m st = ((g (st key)).1, Function.update st key (g (st key)).2)

theorem Local.pure (a : α) : Local key (Pure.pure a : StateM (κ → σ) α) :=
 ⟨fun s => (a, s), fun st => by rw [update_eq_self]; rfl⟩

theorem Local.bind {f : α → StateM (κ → σ) β} (hm : Local key m) (hf : ∀ a, Local key (f a)) :
  Local key (m >>= f) := by
 obtain ⟨g, hg⟩ := hm
 choose g' hg' using hf
 refine ⟨fun s => g' (g s).1 (g s).2, fun st => ?_⟩
 simp only [bind_apply, hg, hg', update_self, update_idem]

def readSlot (key : κ) : StateM (κ → σ) σ := fun st => (st key, st)

def writeSlot (key : κ) (f : σ → σ) : StateM (κ → σ) Unit := fun st => ((), Function.update st key (f (st key)))

theorem Local.readSlot : Local key (readSlot key : StateM (κ → σ) σ) :=
 ⟨fun s => (s, s), fun st => by rw [update_eq_self]; rfl⟩

theorem Local.writeSlot (f : σ → σ) : Local key (writeSlot key f) := ⟨fun s => ((), f s), fun _ => rfl⟩

theorem Local.congr (h : Local key m) {st st' : κ → σ} (hkey : st key = st' key) :
  (m st).2 key = (m st').2 key := by
 obtain ⟨g, hg⟩ := h
 simp only [hg, hkey, update_self]

theorem Local.frame (h : Local key m) (st : κ → σ) {k : κ} (hk : k ≠ key) : (m st).2 k = st k := by
 obtain ⟨g, hg⟩ := h
 rw [hg]
 exact update_of_ne hk _ st

end Slots
