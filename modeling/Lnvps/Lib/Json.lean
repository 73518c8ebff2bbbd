import Lnvps.Lib.Bytes
import Lnvps.Lib.Text

/-! # Flat JSON objects -/

namespace Json

open Bytes List

inductive Value where
 | null
 | str (s : String)
 | num (n : UInt64)
 | other (text : String)

abbrev Fields := List (String × Value)

def Value.str? : Value → Option String
 | .str s => some s
 | _ => none

def Value.num? : Value → Option UInt64
 | .num n => some n
 | _ => none

def letters : List (Char × Char) :=
 [('"', '"'), ('\\', '\\'), ('\x08', 'b'), ('\x0c', 'f'), ('\n', 'n'), ('\r', 'r'), ('\t', 't')]

def escape (c : Char) : List Char :=
 match letters.lookup c with
 | some letter => ['\\', letter]
 | none =>
  if c.toNat < 32 then ['\\', 'u', '0', '0', Nat.digitChar (c.toNat / 16), Nat.digitChar (c.toNat % 16)] else [c]

def quote (s : List Char) : List Char := '"' :: (s.flatMap escape ++ ['"'])

def Value.write : Value → List Char
 | .null => "null".toList
 | .str s => quote s.toList
 | .num n => Nat.toDigits 10 n.toNat
 | .other text => text.toList

def writeField (field : String × Value) : List Char := quote field.1.toList ++ ':' :: field.2.write

def write (fields : Fields) : List Char :=
 '\x7b' :: (intercalate [','] (fields.map writeField) ++ ['\x7d'])

def toVec (fields : Fields) : List UInt8 := utf8 (write fields)

theorem toVec_ne_nil (fields : Fields) : toVec fields ≠ [] := by
 intro h
 have hlength := length_le_utf8 (write fields)
 rw [← toVec, h] at hlength
 simp [write] at hlength

def Value.Scalar : Value → Prop
 | .str _ | .num _ => True
 | _ => False

structure Readable (fields : Fields) : Prop where
 names : (fields.map Prod.fst).Nodup
 values : ∀ field ∈ fields, field.2.Scalar

structure Reader where
 fromSlice : List UInt8 → Except String Fields
 fromSlice_toVec : ∀ fields, Readable fields → fromSlice (toVec fields) = .ok fields

def hexValue (c : Char) : Option Nat :=
 let n := "0123456789abcdef".toList.idxOf c
 if n < 16 then some n else none

def readText : List Char → Option (List Char × List Char)
  | [] => none
  | '"' :: rest => some ([], rest)
  | '\\' :: 'u' :: '0' :: '0' :: a :: b :: rest => do
    let high ← hexValue a
    let low ← hexValue b
    (readText rest).map fun (s, rest) => (Char.ofNat (high * 16 + low) :: s, rest)
  | '\\' :: letter :: rest => do
    let (c, _) ← letters.find? (·.2 = letter)
    (readText rest).map fun (s, rest) => (c :: s, rest)
  | c :: rest => (readText rest).map fun (s, rest) => (c :: s, rest)

theorem escape_of_ge {c : Char} (hc : 32 ≤ c.toNat) (hquote : c ≠ '"') (hslash : c ≠ '\\') : escape c = [c] := by
  have hletters : ∀ p ∈ letters, p.1 = '"' ∨ p.1 = '\\' ∨ p.1.toNat < 32 := by decide
  have hnone : letters.lookup c = none := by
    refine lookup_eq_none_iff.mpr fun p hp => ?_
    simp only [bne_iff_ne]
    rintro rfl
    rcases hletters p hp with h | h | h
    · exact hquote h
    · exact hslash h
    · omega
  rw [escape, hnone]
  exact if_neg (by omega)

theorem readText_escape (c : Char) (rest : List Char) :
    readText (escape c ++ rest) = (readText rest).map fun (s, rest) => (c :: s, rest) := by
  by_cases hquote : c = '"'
  · subst hquote
    rfl
  by_cases hslash : c = '\\'
  · subst hslash
    rfl
  rcases lt_or_ge c.toNat 32 with hc | hc
  · rw [← Char.ofNat_toNat c]
    generalize c.toNat = n at hc ⊢
    interval_cases n <;> rfl
  · rw [escape_of_ge hc hquote hslash]
    simp [readText, hslash]

theorem readText_quoted (s rest : List Char) : readText (s.flatMap escape ++ '"' :: rest) = some (s, rest) := by
  induction s with
  | nil => rfl
  | cons c s ih => rw [flatMap_cons, append_assoc, readText_escape, ih, Option.map_some]

def readValue : List Char → Option (Value × List Char)
  | '"' :: rest => (readText rest).map fun (s, rest) => (.str (String.ofList s), rest)
  | text =>
    let digits := text.takeWhile Char.isDigit
    let n := Nat.ofDigitChars 10 digits 0
    if digits ≠ [] ∧ n < 2 ^ 64 then some (.num (UInt64.ofNat n), text.dropWhile Char.isDigit) else none

theorem readValue_write {v : Value} (hv : v.Scalar) {c : Char} (hc : c.isDigit = false) (rest : List Char) :
    readValue (v.write ++ c :: rest) = some (v, c :: rest) := by
  cases v with
  | str s => simp [Value.write, quote, readValue, readText_quoted]
  | num n =>
    obtain ⟨htake, hdrop⟩ := Text.whole_append n.toNat (c :: rest) (by simpa using hc)
    have hquote : ∀ rest', Nat.toDigits 10 n.toNat ++ c :: rest ≠ '"' :: rest' := by
      intro rest' h
      have hmem := congrArg (·.takeWhile Char.isDigit) h
      simp [htake, Nat.toDigits_ne_nil] at hmem
    rw [Value.write, readValue]
    · simp [htake, hdrop, Nat.toDigits_ne_nil, Nat.ofDigitChars_ten_toDigits, n.toNat_lt]
    · exact hquote
  | null | other => exact hv.elim

def readFields : Nat → List Char → Option Fields
  | fuel + 1, '"' :: text => do
    let (name, text) ← readText text
    match text with
    | ':' :: text => do
      let (value, text) ← readValue text
      match text with
      | ',' :: text => (readFields fuel text).map ((String.ofList name, value) :: ·)
      | ['\x7d'] => some [(String.ofList name, value)]
      | _ => none
    | _ => none
  | _, _ => none

theorem readFields_write {fields : Fields} (hscalar : ∀ field ∈ fields, field.2.Scalar) (hne : fields ≠ [])
  {fuel : Nat} (hfuel : fields.length ≤ fuel) :
  readFields fuel (intercalate [','] (fields.map writeField) ++ ['\x7d']) = some fields := by
 induction fields generalizing fuel with
 | nil => exact absurd rfl hne
 | cons field fields ih =>
  rw [forall_mem_cons] at hscalar
  cases fuel with
  | zero => exact absurd hfuel (by simp)
  | succ fuel =>
   cases fields with
   | nil =>
    have hvalue := readValue_write hscalar.1 (c := '\x7d') (by decide) []
    simp [writeField, quote, readFields, readText_quoted, hvalue]
   | cons next fields =>
    have hvalue := readValue_write hscalar.1 (c := ',') (by decide)
    have hrest := ih hscalar.2 (by simp) (Nat.succ_le_succ_iff.mp hfuel)
    rw [map_cons, map_cons, intercalate_cons_cons, ← map_cons]
    generalize intercalate [','] ((next :: fields).map writeField) = text at hrest ⊢
    simp [writeField, quote, readFields, readText_quoted, hvalue, hrest]

theorem length_le_intercalate (fields : Fields) :
  fields.length ≤ (intercalate [','] (fields.map writeField) ++ ['\x7d']).length := by
 have hfield (field : String × Value) : 1 ≤ (writeField field).length := by simp [writeField, quote]
 induction fields with
 | nil => simp
 | cons field fields ih =>
  cases fields with
  | nil => simp
  | cons next fields =>
   have hlength := hfield field
   rw [map_cons, map_cons, intercalate_cons_cons, ← map_cons]
   simp only [length_append, length_cons, length_nil] at ih ⊢
   omega

def compact : Reader where
  fromSlice bytes :=
    match fromUtf8 bytes with
    | some ['\x7b', '\x7d'] => .ok []
    | some ('\x7b' :: text) =>
      match readFields text.length text with
      | some fields => .ok fields
      | none => .error "expected value"
    | _ => .error "expected value"
  fromSlice_toVec fields h := by
    rw [toVec, fromUtf8_utf8, write]
    cases fields with
    | nil => rfl
    | cons field fields =>
      have hread := readFields_write h.values (by simp) (length_le_intercalate (field :: fields))
      have hopen : ∃ text, intercalate [','] ((field :: fields).map writeField) ++ ['\x7d'] = '"' :: text := by
        cases fields <;> exact ⟨_, rfl⟩
      obtain ⟨text, htext⟩ := hopen
      rw [htext] at hread ⊢
      change (match readFields _ _ with | some fields => _ | none => _) = _
      rw [hread]

end Json
