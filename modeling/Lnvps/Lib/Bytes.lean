import Mathlib.Data.List.Nodup
import Mathlib.Tactic.IntervalCases

/-! # Bytes as text -/

namespace Bytes

open List Option

def utf8 (s : List Char) : List UInt8 := s.flatMap String.utf8EncodeChar

def fromUtf8 (bytes : List UInt8) : Option (List Char) := (ByteArray.utf8Decode? ⟨bytes.toArray⟩).map Array.toList

theorem utf8Encode_eq (s : List Char) : s.utf8Encode = ⟨(utf8 s).toArray⟩ := by
 rw [List.utf8Encode, utf8]
 exact ByteArray.ext data_toByteArray

@[simp] theorem fromUtf8_utf8 (s : List Char) : fromUtf8 (utf8 s) = some s := by
 rw [fromUtf8, ← utf8Encode_eq, List.utf8Decode?_utf8Encode]
 simp

theorem utf8_of_fromUtf8 {bytes : List UInt8} {s : List Char} (h : fromUtf8 bytes = some s) : bytes = utf8 s := by
 obtain ⟨chars, hchars, rfl⟩ := map_eq_some_iff.mp h
 have hget := @ByteArray.utf8Encode_get_utf8Decode? ⟨bytes.toArray⟩ (by simp [hchars])
 simp only [hchars, get_some, utf8Encode_eq, ByteArray.mk.injEq] at hget
 exact (toArray_inj hget).symm

theorem length_le_utf8 (s : List Char) : s.length ≤ (utf8 s).length := by
 induction s with
 | nil => exact Nat.zero_le _
 | cons c s ih =>
  have hc : 0 < (String.utf8EncodeChar c).length := by simp [Char.utf8Size_pos]
  rw [utf8, flatMap_cons, length_append, length_cons]
  rw [utf8] at ih
  omega

theorem fromUtf8_length {bytes : List UInt8} {s : List Char} (h : fromUtf8 bytes = some s) :
  s.length ≤ bytes.length :=
 utf8_of_fromUtf8 h ▸ length_le_utf8 s

def hex (bytes : List UInt8) : List Char :=
 bytes.flatMap fun b => [Nat.digitChar (b.toNat / 16), Nat.digitChar (b.toNat % 16)]

theorem mem_hex {bytes : List UInt8} {c : Char} (h : c ∈ hex bytes) : c ∈ "0123456789abcdef".toList := by
 have hdigit : ∀ n < 16, Nat.digitChar n ∈ "0123456789abcdef".toList := by decide
 obtain ⟨b, -, hc⟩ := mem_flatMap.mp h
 have hb := b.toNat_lt
 rcases mem_pair.mp hc with rfl | rfl
 · exact hdigit _ (by omega)
 · exact hdigit _ (by omega)

structure Alphabet where
 chars : List Char
 length_eq : chars.length = 64
 nodup : chars.Nodup
 padding : '=' ∉ chars

namespace Alphabet

def standard : Alphabet where
 chars := "ABCDEFGHIJKLMNOPQRSTUVWXYZabcdefghijklmnopqrstuvwxyz0123456789+/".toList
 length_eq := by decide
 nodup := by decide
 padding := by decide

def urlSafe : Alphabet where
 chars := "ABCDEFGHIJKLMNOPQRSTUVWXYZabcdefghijklmnopqrstuvwxyz0123456789-_".toList
 length_eq := by decide
 nodup := by decide
 padding := by decide

variable (a : Alphabet) (pad : Bool)

def digit (n : Nat) : Char := a.chars[n]?.getD '='

def value (c : Char) : Option Nat := if a.chars.idxOf c < 64 then some (a.chars.idxOf c) else none

def encode : List UInt8 → List Char
 | [] => []
 | [x] => a.digit (x.toNat / 4) :: a.digit (x.toNat % 4 * 16) :: if pad then ['=', '='] else []
 | [x, y] =>
  a.digit (x.toNat / 4) :: a.digit (x.toNat % 4 * 16 + y.toNat / 16) :: a.digit (y.toNat % 16 * 4) ::
   if pad then ['='] else []
 | x :: y :: z :: rest =>
  a.digit (x.toNat / 4) :: a.digit (x.toNat % 4 * 16 + y.toNat / 16) ::
   a.digit (y.toNat % 16 * 4 + z.toNat / 64) :: a.digit (z.toNat % 64) :: encode rest

def oneByte (c d : Char) : Option (List UInt8) := do
 let p ← a.value c
 let q ← a.value d
 if q % 16 = 0 then some [UInt8.ofNat (p * 4 + q / 16)] else none

def twoBytes (c d e : Char) : Option (List UInt8) := do
 let p ← a.value c
 let q ← a.value d
 let r ← a.value e
 if r % 4 = 0 then some [UInt8.ofNat (p * 4 + q / 16), UInt8.ofNat (q % 16 * 16 + r / 4)] else none

def threeBytes (c d e f : Char) : Option (List UInt8) := do
 let p ← a.value c
 let q ← a.value d
 let r ← a.value e
 let s ← a.value f
 some [UInt8.ofNat (p * 4 + q / 16), UInt8.ofNat (q % 16 * 16 + r / 4), UInt8.ofNat (r % 4 * 64 + s)]

def decode : List Char → Option (List UInt8)
 | [] => some []
 | [_] => none
 | [c, d] => if pad then none else a.oneByte c d
 | [c, d, e] => if pad then none else a.twoBytes c d e
 | c :: d :: e :: f :: rest =>
  if pad ∧ rest = [] ∧ f = '=' then if e = '=' then a.oneByte c d else a.twoBytes c d e
  else do
   let bytes ← a.threeBytes c d e f
   (decode rest).map (bytes ++ ·)

variable {a pad}

theorem digit_mem {n : Nat} (h : n < 64) : a.digit n ∈ a.chars := by
 have hn : n < a.chars.length := a.length_eq ▸ h
 rw [digit, List.getElem?_eq_getElem hn, getD_some]
 exact getElem_mem hn

theorem digit_ne {n : Nat} (h : n < 64) : a.digit n ≠ '=' := fun he => a.padding (he ▸ digit_mem h)

theorem value_digit {n : Nat} (h : n < 64) : a.value (a.digit n) = some n := by
 have hn : n < a.chars.length := a.length_eq ▸ h
 have hidx : a.chars.idxOf (a.digit n) = n := by
  rw [digit, List.getElem?_eq_getElem hn, getD_some]
  exact a.nodup.idxOf_getElem n hn
 rw [value, hidx, if_pos h]

theorem mem_encode {bytes : List UInt8} {c : Char} (h : c ∈ a.encode pad bytes) : c ∈ a.chars ∨ c = '=' := by
 have hbyte (b : UInt8) := b.toNat_lt
 have hdigit {n : Nat} (hn : n < 64) (hc : c = a.digit n) : c ∈ a.chars ∨ c = '=' := .inl (hc ▸ digit_mem hn)
 fun_induction encode with
 | case1 => exact absurd h not_mem_nil
 | case2 x =>
  have hx := hbyte x
  rcases mem_cons.mp h with hc | h
  · exact hdigit (by omega) hc
  rcases mem_cons.mp h with hc | h
  · exact hdigit (by omega) hc
  · exact .inr (by grind)
 | case3 x y =>
  have hx := hbyte x
  have hy := hbyte y
  rcases mem_cons.mp h with hc | h
  · exact hdigit (by omega) hc
  rcases mem_cons.mp h with hc | h
  · exact hdigit (by omega) hc
  rcases mem_cons.mp h with hc | h
  · exact hdigit (by omega) hc
  · exact .inr (by grind)
 | case4 x y z rest ih =>
  have hx := hbyte x
  have hy := hbyte y
  have hz := hbyte z
  simp only [mem_cons] at h
  rcases h with hc | hc | hc | hc | h
  · exact hdigit (by omega) hc
  · exact hdigit (by omega) hc
  · exact hdigit (by omega) hc
  · exact hdigit (by omega) hc
  · exact ih h

theorem encode_ne_nil {bytes : List UInt8} (h : bytes ≠ []) : a.encode pad bytes ≠ [] := by
 fun_cases encode a pad bytes with
 | case1 => exact absurd rfl h
 | _ => exact cons_ne_nil _ _

theorem ofNat_eq {b : UInt8} {n : Nat} (h : n = b.toNat) : UInt8.ofNat n = b := h ▸ UInt8.ofNat_toNat

variable (x y z : UInt8)

theorem oneByte_digits : a.oneByte (a.digit (x.toNat / 4)) (a.digit (x.toNat % 4 * 16)) = some [x] := by
 have hx := x.toNat_lt
 have hfirst := @ofNat_eq x (x.toNat / 4 * 4 + x.toNat % 4 * 16 / 16) (by omega)
 rw [oneByte, value_digit (by omega), value_digit (by omega)]
 simp only [bind_eq_bind, bind_some, hfirst, if_pos (show x.toNat % 4 * 16 % 16 = 0 by omega)]

theorem twoBytes_digits : a.twoBytes (a.digit (x.toNat / 4)) (a.digit (x.toNat % 4 * 16 + y.toNat / 16))
  (a.digit (y.toNat % 16 * 4)) = some [x, y] := by
 have hx := x.toNat_lt
 have hy := y.toNat_lt
 have hfirst := @ofNat_eq x (x.toNat / 4 * 4 + (x.toNat % 4 * 16 + y.toNat / 16) / 16) (by omega)
 have hsecond :=
  @ofNat_eq y ((x.toNat % 4 * 16 + y.toNat / 16) % 16 * 16 + y.toNat % 16 * 4 / 4) (by omega)
 rw [twoBytes, value_digit (by omega), value_digit (by omega), value_digit (by omega)]
 simp only [bind_eq_bind, bind_some, hfirst, hsecond,
  if_pos (show y.toNat % 16 * 4 % 4 = 0 by omega)]

theorem threeBytes_digits : a.threeBytes (a.digit (x.toNat / 4)) (a.digit (x.toNat % 4 * 16 + y.toNat / 16))
  (a.digit (y.toNat % 16 * 4 + z.toNat / 64)) (a.digit (z.toNat % 64)) = some [x, y, z] := by
 have hx := x.toNat_lt
 have hy := y.toNat_lt
 have hz := z.toNat_lt
 have hfirst := @ofNat_eq x (x.toNat / 4 * 4 + (x.toNat % 4 * 16 + y.toNat / 16) / 16) (by omega)
 have hsecond := @ofNat_eq y
  ((x.toNat % 4 * 16 + y.toNat / 16) % 16 * 16 + (y.toNat % 16 * 4 + z.toNat / 64) / 4) (by omega)
 have hthird := @ofNat_eq z ((y.toNat % 16 * 4 + z.toNat / 64) % 4 * 64 + z.toNat % 64) (by omega)
 rw [threeBytes, value_digit (by omega), value_digit (by omega), value_digit (by omega), value_digit (by omega)]
 simp only [bind_eq_bind, bind_some, hfirst, hsecond, hthird]

@[simp] theorem decode_encode (bytes : List UInt8) : a.decode pad (a.encode pad bytes) = some bytes := by
 fun_induction encode with
 | case1 => rfl
 | case2 x => cases pad <;> simp [decode, oneByte_digits]
 | case3 x y =>
  have hy := y.toNat_lt
  cases pad <;> simp [decode, twoBytes_digits, digit_ne (show y.toNat % 16 * 4 < 64 by omega)]
 | case4 x y z rest ih =>
  have hlast : a.digit (z.toNat % 64) ≠ '=' := digit_ne (by omega)
  rw [decode, if_neg (by tauto), threeBytes_digits, ih]
  rfl

section Length

variable {c d e f : Char} {bytes : List UInt8}

theorem oneByte_length (h : a.oneByte c d = some bytes) : bytes.length = 1 := by
 simp only [oneByte, bind_eq_bind, bind_eq_some_iff] at h
 grind

theorem twoBytes_length (h : a.twoBytes c d e = some bytes) : bytes.length = 2 := by
 simp only [twoBytes, bind_eq_bind, bind_eq_some_iff] at h
 grind

theorem threeBytes_length (h : a.threeBytes c d e f = some bytes) : bytes.length = 3 := by
 simp only [threeBytes, bind_eq_bind, bind_eq_some_iff] at h
 grind

end Length

theorem decode_length {s : List Char} {bytes : List UInt8} (h : a.decode pad s = some bytes) :
  bytes.length ≤ s.length := by
 fun_induction decode generalizing bytes with
 | case1 | case2 | case3 | case5 => grind
 | case4 | case7 => grind [oneByte_length]
 | case6 | case8 => grind [twoBytes_length]
 | case9 c d e f rest hpad ih =>
  obtain ⟨first, hfirst, h⟩ := bind_eq_some_iff.mp h
  obtain ⟨others, hothers, rfl⟩ := map_eq_some_iff.mp h
  have hrest := ih hothers
  have hthree := threeBytes_length hfirst
  grind

end Alphabet

end Bytes
