import Mathlib.Data.List.Nodup

/-! # Tables of rows -/

namespace Table

open List Option

variable {α κ : Type}

def updateWhere (p : α → Bool) (f : α → α) (rows : List α) : List α :=
 rows.map fun r => if p r then f r else r

def Keyed (key : α → κ) (rows : List α) : Prop := (rows.map key).Nodup

instance [DecidableEq κ] (key : α → κ) (rows : List α) : Decidable (Keyed key rows) :=
 inferInstanceAs (Decidable (rows.map key).Nodup)

section

variable {p : α → Bool} {f : α → α} {rows : List α} {key : α → κ} {r s : α}

theorem mem_updateWhere : s ∈ updateWhere p f rows ↔ ∃ r ∈ rows, (if p r then f r else r) = s :=
 mem_map

theorem mem_updateWhere_of_not (hr : r ∈ rows) (hp : p r = false) : r ∈ updateWhere p f rows :=
 mem_updateWhere.mpr ⟨r, hr, by simp [hp]⟩

theorem mem_updateWhere_of (hr : r ∈ rows) (hp : p r = true) : f r ∈ updateWhere p f rows :=
 mem_updateWhere.mpr ⟨r, hr, by simp [hp]⟩

theorem map_updateWhere {β : Type} (col : α → β) (hf : ∀ r ∈ rows, p r = true → col (f r) = col r) :
  (updateWhere p f rows).map col = rows.map col := by
 unfold updateWhere
 rw [List.map_map]
 apply map_congr_left
 intro r hr
 by_cases h : p r = true
 · simp [h, hf r hr h]
 · simp [h]

theorem Keyed.updateWhere (h : Keyed key rows) (hf : ∀ r ∈ rows, p r = true → key (f r) = key r) :
  Keyed key (updateWhere p f rows) := by
 unfold Keyed
 rw [map_updateWhere key hf]
 exact h

theorem updateWhere_eq_self (hf : ∀ r ∈ rows, p r = true → f r = r) : updateWhere p f rows = rows := by
 unfold updateWhere
 rw [List.map_congr_left (g := id) ?_, List.map_id]
 intro r hr
 by_cases h : p r = true
 · simp [h, hf r hr h]
 · simp [h]

theorem updateWhere_updateWhere {g : α → α} (hp : ∀ r, p r = true → p (g r) = true)
  (hf : ∀ r, f (g r) = f r) : updateWhere p f (updateWhere p g rows) = updateWhere p f rows := by
 unfold updateWhere
 rw [List.map_map]
 apply map_congr_left
 intro r _
 by_cases h : p r = true
 · simp [h, hp r h, hf r]
 · simp [h]

theorem Keyed.eq_of_key (h : Keyed key rows) (hr : r ∈ rows) (hs : s ∈ rows) (hk : key r = key s) : r = s :=
 inj_on_of_nodup_map h hr hs hk

theorem mem_snoc : s ∈ rows ++ [r] ↔ s ∈ rows ∨ s = r := by simp

theorem Keyed.snoc (h : Keyed key rows) (hr : ∀ s ∈ rows, key s ≠ key r) : Keyed key (rows ++ [r]) := by
 unfold Keyed
 rw [map_append, nodup_append]
 refine ⟨h, nodup_singleton _, ?_⟩
 intro a ha b hb
 rw [List.mem_map] at ha
 obtain ⟨s, hs, rfl⟩ := ha
 rw [map_cons, map_nil, mem_singleton] at hb
 rw [hb]
 exact hr s hs

theorem Keyed.filter_length_le_one (h : Keyed key rows) {q : α → Bool}
  (hq : ∀ r ∈ rows, ∀ s ∈ rows, q r = true → q s = true → key r = key s) : (rows.filter q).length ≤ 1 := by
 have hnd : (rows.filter q).Nodup := (List.Nodup.of_map _ h).filter _
 rcases hrows : rows.filter q with _ | ⟨a, _ | ⟨b, l⟩⟩
 · simp
 · simp
 exfalso
 have ha : a ∈ rows.filter q := by simp [hrows]
 have hb : b ∈ rows.filter q := by simp [hrows]
 rw [mem_filter] at ha hb
 have hab := h.eq_of_key ha.1 hb.1 (hq a ha.1 b hb.1 ha.2 hb.2)
 rw [hrows, hab] at hnd
 simp at hnd

end

section Lookup

variable [DecidableEq κ] {key : α → κ} {k : κ} {rows : List α} {r : α} {p : α → Bool} {f : α → α}

def lookup (key : α → κ) (k : κ) (rows : List α) : Option α := rows.find? fun r => key r = k

theorem mem_of_lookup (h : lookup key k rows = some r) : r ∈ rows := List.mem_of_find?_eq_some h

theorem key_of_lookup (h : lookup key k rows = some r) : key r = k := by
 simpa using List.find?_some h

theorem lookup_eq_none : lookup key k rows = none ↔ ∀ r ∈ rows, key r ≠ k := by
 simp [lookup]

theorem Keyed.lookup_of_mem (h : Keyed key rows) (hr : r ∈ rows) : lookup key (key r) rows = some r := by
 rcases hl : lookup key (key r) rows with _ | s
 · exact absurd rfl (lookup_eq_none.mp hl r hr)
 · rw [h.eq_of_key (mem_of_lookup hl) hr (key_of_lookup hl)]

theorem Keyed.lookup_filter (h : Keyed key rows) : lookup key k (rows.filter p) = (lookup key k rows).filter p := by
 rcases hl : lookup key k rows with _ | r
 · rw [filter_none, lookup_eq_none]
   exact fun s hs => lookup_eq_none.mp hl s (mem_of_mem_filter hs)
 have hmem := mem_of_lookup hl
 obtain rfl := key_of_lookup hl
 by_cases hp : p r = true
 · rw [filter_some_pos hp]
   have hkept : Keyed key (rows.filter p) := h.sublist (filter_sublist.map _)
   exact hkept.lookup_of_mem (mem_filter.mpr ⟨hmem, hp⟩)
 rw [filter_some_neg (by simpa using hp), lookup_eq_none]
 intro s hs hk
 rw [h.eq_of_key (mem_of_mem_filter hs) hmem hk] at hs
 exact hp (mem_filter.mp hs).2

theorem lookup_updateWhere (hf : ∀ r, p r = true → key (f r) = key r) :
  lookup key k (updateWhere p f rows) = (lookup key k rows).map fun r => if p r then f r else r := by
 induction rows with
 | nil => rfl
 | cons a rows ih =>
  have hk : key (if p a then f a else a) = key a := by
   split
   · exact hf a ‹_›
   · rfl
  simp only [lookup, updateWhere, map_cons, List.find?_cons, hk] at ih ⊢
  by_cases h : key a = k
  · simp [h]
  · simp only [h, decide_false]
    exact ih

end Lookup

end Table
