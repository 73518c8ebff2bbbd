import Mathlib.Tactic

/-! # Frames and checksums -/

namespace Checksum

def onesAdd (a b : Nat) : Nat := if a + b < 65536 then a + b else a + b - 65535

def onesSum (words : List Nat) : Nat := words.foldl onesAdd 0

def reduce (s : Nat) : Nat := if s = 0 then 0 else (s - 1) % 65535 + 1

theorem onesAdd_reduce {s w : Nat} (hw : w < 65536) : onesAdd (reduce s) w = reduce (s + w) := by
 unfold onesAdd reduce
 split_ifs <;> omega

theorem foldl_onesAdd (words : List Nat) (hwords : ∀ w ∈ words, w < 65536) (s : Nat) :
  words.foldl onesAdd (reduce s) = reduce (s + words.sum) := by
 induction words generalizing s with
 | nil => rfl
 | cons w words ih =>
  obtain ⟨hw, hrest⟩ := List.forall_mem_cons.mp hwords
  rw [List.foldl_cons, onesAdd_reduce hw, ih hrest, List.sum_cons, Nat.add_assoc]

theorem onesSum_eq {words : List Nat} (hwords : ∀ w ∈ words, w < 65536) : onesSum words = reduce words.sum := by
 rw [onesSum, ← Nat.zero_add words.sum]
 exact foldl_onesAdd words hwords 0

theorem reduce_add_complement (s : Nat) : reduce (s + (65535 - reduce s)) = 65535 := by
 unfold reduce
 split_ifs <;> omega

theorem onesSum_complement {words : List Nat} {s : Nat} (hwords : ∀ w ∈ words, w < 65536)
  (hsum : words.sum = s + (65535 - reduce s)) : onesSum words = 65535 := by
 rw [onesSum_eq hwords, hsum, reduce_add_complement]

theorem fold_twice {s : Nat} (hs : s < 65536 * 65535) :
  (s % 65536 + s / 65536) % 65536 + (s % 65536 + s / 65536) / 65536 = reduce s := by
 unfold reduce
 split_ifs <;> omega

end Checksum

structure Frame where
 len : Nat
 byte : Nat → UInt8
 wireLen : Nat := len

def wordBytes (w : Nat) : List UInt8 := [UInt8.ofNat (w / 256), UInt8.ofNat w]

def longBytes (x : UInt32) : List UInt8 :=
 [(x >>> 24).toUInt8, (x >>> 16).toUInt8, (x >>> 8).toUInt8, x.toUInt8]

namespace Frame

variable (f : Frame)

def holds (offset size : Nat) : Bool := offset + size ≤ f.len

def word (offset : Nat) : Nat := (f.byte offset).toNat * 256 + (f.byte (offset + 1)).toNat

def words (offset n : Nat) : List Nat := (List.range n).map fun i => f.word (offset + 2 * i)

def long (offset : Nat) : UInt32 := UInt32.ofNat (f.word offset * 65536 + f.word (offset + 2))

def field (offset n : Nat) : Nat := (List.range n).foldl (fun acc i => acc * 256 + (f.byte (offset + i)).toNat) 0

def write (offset : Nat) (bytes : List UInt8) : Frame :=
 { f with byte := fun k => if offset ≤ k ∧ k < offset + bytes.length then bytes.getD (k - offset) 0 else f.byte k }

def swap (i j n : Nat) : Frame :=
 { f with byte := fun k =>
    if i ≤ k ∧ k < i + n then f.byte (j + (k - i)) else if j ≤ k ∧ k < j + n then f.byte (i + (k - j)) else f.byte k }

section Lemmas

variable {f g : Frame} {a b offset k n i : Nat} {bytes : List UInt8}

theorem word_lt (offset : Nat) : f.word offset < 65536 := by
 have hhigh := (f.byte offset).toNat_lt
 have hlow := (f.byte (offset + 1)).toNat_lt
 unfold word
 omega

theorem words_lt : ∀ w ∈ f.words offset n, w < 65536 := by
 intro w hw
 obtain ⟨i, -, rfl⟩ := List.mem_map.mp hw
 exact word_lt _

theorem words_sum_le : (f.words offset n).sum ≤ n * 65535 := by
 have h := List.sum_le_card_nsmul (f.words offset n) 65535 fun w hw => Nat.le_of_lt_succ (words_lt w hw)
 simpa [words] using h

theorem write_other (h : k < offset ∨ offset + bytes.length ≤ k) : (f.write offset bytes).byte k = f.byte k :=
 if_neg (by omega)

theorem swap_left (hi : i < n) : (f.swap a b n).byte (a + i) = f.byte (b + i) := by
 unfold swap
 dsimp only
 rw [if_pos (by omega), Nat.add_sub_cancel_left]

theorem swap_right (hab : a + n ≤ b) (hi : i < n) : (f.swap a b n).byte (b + i) = f.byte (a + i) := by
 unfold swap
 dsimp only
 rw [if_neg (by omega), if_pos (by omega), Nat.add_sub_cancel_left]

theorem swap_other (ha : k < a ∨ a + n ≤ k) (hb : k < b ∨ b + n ≤ k) : (f.swap a b n).byte k = f.byte k := by
 unfold swap
 dsimp only
 rw [if_neg (by omega), if_neg (by omega)]

theorem word_congr {k' : Nat} (h0 : g.byte k = f.byte k') (h1 : g.byte (k + 1) = f.byte (k' + 1)) :
  g.word k = f.word k' := by
 rw [word, h0, h1, word]

theorem words_congr {k' : Nat} (h : ∀ i < 2 * n, g.byte (k + i) = f.byte (k' + i)) : g.words k n = f.words k' n := by
 refine List.map_congr_left fun i hi => ?_
 have hi := List.mem_range.mp hi
 exact word_congr (h _ (by omega)) (h (2 * i + 1) (by omega))

theorem field_congr {k' : Nat} (h : ∀ i < n, g.byte (k + i) = f.byte (k' + i)) : g.field k n = f.field k' n := by
 refine List.foldl_ext _ _ _ fun acc i hi => ?_
 rw [h i (List.mem_range.mp hi)]

theorem write_word_of_lt (h : k + 1 < offset) : (f.write offset bytes).word k = f.word k :=
 word_congr (write_other (.inl (Nat.lt_of_succ_lt h))) (write_other (.inl h))

theorem write_word_of_ge {w : Nat} (h : offset + 2 ≤ k) : (f.write offset (wordBytes w)).word k = f.word k :=
 word_congr (write_other (.inr h)) (write_other (.inr (Nat.le_succ_of_le h)))

theorem write_word {w : Nat} (hw : w < 65536) : (f.write offset (wordBytes w)).word offset = w := by
 simp [write, word, wordBytes]
 omega

variable (x : UInt32)

theorem write_long_high : (f.write offset (longBytes x)).word offset = x.toNat / 65536 := by
 have := x.toNat_lt
 simp [write, word, longBytes, Nat.shiftRight_eq_div_pow]
 omega

theorem write_long_low : (f.write offset (longBytes x)).word (offset + 2) = x.toNat % 65536 := by
 simp [write, word, longBytes, Nat.shiftRight_eq_div_pow, Nat.add_assoc]
 omega

theorem write_long : (f.write offset (longBytes x)).long offset = x := by
 rw [long, write_long_high, write_long_low, Nat.div_add_mod', UInt32.ofNat_toNat]

theorem swap_word_left : (f.swap k (k + 2) 2).word k = f.word (k + 2) := by
 simp [word, swap, Nat.add_assoc]

theorem swap_word_right : (f.swap k (k + 2) 2).word (k + 2) = f.word k := by
 simp [word, swap, Nat.add_assoc]

end Lemmas

end Frame
