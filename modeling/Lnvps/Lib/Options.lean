import Mathlib.Data.List.TakeWhile

/-! # Option strings -/

namespace Options

open List Option

abbrev Text := List Char

def entry (o : String × Text) : Text := o.1.toList ++ '=' :: o.2

def render (head : Text) (options : List (String × Text)) : Text := [','].intercalate (head :: options.map entry)

def head (text : Text) : Text := text.takeWhile (· ≠ ',')

def valueOf (key : String) (part : Text) : Option Text :=
 if (key.toList ++ ['=']).isPrefixOf part then some (part.drop (key.toList.length + 1)) else none

def find (key : String) (text : Text) : Option Text := (text.splitOn ',').tail.findSome? (valueOf key)

def PlainKey (key : String) : Prop := ',' ∉ key.toList ∧ '=' ∉ key.toList

instance (key : String) : Decidable (PlainKey key) := inferInstanceAs (Decidable (_ ∧ _))

def Plain (options : List (String × Text)) : Prop := ∀ o ∈ options, PlainKey o.1 ∧ ',' ∉ o.2

section Render

variable {key : String} {value hd : Text} {options options' : List (String × Text)}

theorem Plain.append (h : Plain options) (h' : Plain options') : Plain (options ++ options') :=
 fun o ho => (mem_append.mp ho).elim (h o) (h' o)

theorem entry_comma (h : Plain options) : ∀ part ∈ options.map entry, ',' ∉ part := by
 intro part hpart
 obtain ⟨o, ho, rfl⟩ := mem_map.mp hpart
 obtain ⟨⟨hkey, -⟩, hvalue⟩ := h o ho
 simp [entry, hkey, hvalue]

theorem splitOn_render (hhead : ',' ∉ hd) (h : Plain options) :
  (render hd options).splitOn ',' = hd :: options.map entry := by
 refine splitOn_intercalate ',' ?_ (cons_ne_nil _ _)
 simp only [forall_mem_cons]
 exact ⟨hhead, entry_comma h⟩

theorem head_render (hhead : ',' ∉ hd) : head (render hd options) = hd := by
 have hpos : ∀ c ∈ hd, decide (c ≠ ',') = true := fun c hc => decide_eq_true fun heq => hhead (heq ▸ hc)
 unfold head render
 cases options with
 | nil =>
  rw [map_nil, intercalate_singleton]
  exact takeWhile_eq_self_iff.mpr hpos
 | cons o options =>
  rw [map_cons, intercalate_cons_cons, append_assoc, takeWhile_append_of_pos hpos]
  simp

theorem comma_head (text : Text) : ',' ∉ head text := by
 intro hmem
 simpa using mem_takeWhile_imp hmem

theorem takeWhile_key (hkey : PlainKey key) (rest : Text) :
  (key.toList ++ '=' :: rest).takeWhile (· ≠ '=') = key.toList := by
 have hpos : ∀ c ∈ key.toList, decide (c ≠ '=') = true := fun c hc => decide_eq_true fun heq => hkey.2 (heq ▸ hc)
 rw [takeWhile_append_of_pos hpos]
 simp

theorem valueOf_entry {o : String × Text} (hkey : PlainKey key) (ho : PlainKey o.1) :
  valueOf key (entry o) = if o.1 = key then some o.2 else none := by
 unfold valueOf entry
 split
 · rename_i hstart
   obtain ⟨rest, hrest⟩ := List.isPrefixOf_iff_prefix.mp hstart
   rw [append_assoc, singleton_append] at hrest
   have heq := congrArg (List.takeWhile (· ≠ '=')) hrest
   rw [takeWhile_key hkey, takeWhile_key ho, String.toList_inj] at heq
   rw [if_pos heq.symm, heq]
   simp
 · rename_i hstart
   rw [if_neg]
   rintro rfl
   exact hstart (List.isPrefixOf_iff_prefix.mpr ⟨o.2, by simp⟩)

theorem find_render (hhead : ',' ∉ hd) (h : Plain options) (hkey : PlainKey key) :
  find key (render hd options) = (options.find? (·.1 = key)).map (·.2) := by
 rw [find, splitOn_render hhead h, tail_cons]
 clear hhead
 induction options with
 | nil => rfl
 | cons o options ih =>
  have ho := (h o mem_cons_self).1
  rw [map_cons, List.findSome?_cons, valueOf_entry hkey ho, List.find?_cons]
  by_cases heq : o.1 = key
  · simp [heq]
  · simpa [heq] using ih fun o' ho' => h o' (mem_cons_of_mem _ ho')

theorem find_eq_some_iff (hhead : ',' ∉ hd) (h : Plain options) (hkey : PlainKey key)
  (hnodup : (options.map (·.1)).Nodup) : find key (render hd options) = some value ↔ (key, value) ∈ options := by
 rw [find_render hhead h hkey]
 clear hhead h
 induction options with
 | nil => simp
 | cons o options ih =>
  obtain ⟨hnew, hrest⟩ := nodup_cons.mp hnodup
  rw [List.find?_cons]
  by_cases heq : o.1 = key
  · simp only [heq, decide_true, map_some, Option.some.injEq, mem_cons]
    constructor
    · rintro rfl
      exact .inl (by rw [← heq])
    rintro (rfl | hmem)
    · rfl
    have hkeys : o.1 ∈ options.map (·.1) := by
     rw [heq]
     exact mem_map_of_mem hmem
    exact absurd hkeys hnew
  · have hne : (key, value) ≠ o := fun h => heq (by rw [← h])
    simp only [heq, decide_false, mem_cons, hne, false_or]
    exact ih hrest

theorem find_perm (hhead : ',' ∉ hd) (h : Plain options) (hkey : PlainKey key) (hnodup : (options.map (·.1)).Nodup)
  (hperm : options'.Perm options) : find key (render hd options') = find key (render hd options) := by
 have hplain : Plain options' := fun o ho => h o (hperm.mem_iff.mp ho)
 have hnodup' : (options'.map (·.1)).Nodup := (hperm.map _).nodup_iff.mpr hnodup
 refine Option.ext fun value => ?_
 rw [find_eq_some_iff hhead hplain hkey hnodup', find_eq_some_iff hhead h hkey hnodup, hperm.mem_iff]

end Render

def optional (key : String) (value : Option Text) : List (String × Text) := value.toList.map fun v => (key, v)

section Optional

variable {key key' : String} {value : Option Text}

theorem plain_optional (hkey : PlainKey key) (hvalue : ∀ v ∈ value, ',' ∉ v) : Plain (optional key value) := by
 intro o ho
 obtain ⟨v, hv, rfl⟩ := mem_map.mp ho
 exact ⟨hkey, hvalue v (mem_toList.mp hv)⟩

@[simp]
theorem find?_optional : (optional key' value).find? (·.1 = key) =
  if key' = key then value.map fun v => (key', v) else none := by
 cases value with
 | none => simp [optional]
 | some v =>
  by_cases heq : key' = key
  · simp [optional, heq]
  · simp [optional, heq]

theorem keys_optional : ((optional key value).map (·.1)).Sublist [key] := by
 cases value with
 | none => exact nil_sublist _
 | some v => exact .refl _

end Optional

end Options
