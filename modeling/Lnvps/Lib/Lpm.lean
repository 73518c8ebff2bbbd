import Mathlib.Data.List.AList
import Mathlib.Tactic

/-! # Longest-prefix match -/

namespace Lpm

variable {w : Nat} {β : Type} (a : BitVec w)

def mask (n : Nat) : BitVec w := a &&& (BitVec.allOnes w <<< (w - n))

theorem getLsbD_mask (n i : Nat) : (mask a n).getLsbD i = (a.getLsbD i && decide (w - n ≤ i)) := by
 unfold mask
 by_cases hi : i < w
 · by_cases hn : i < w - n
   · simp [hn, show ¬ w - n ≤ i by omega]
   · simp [hi, hn, show w - n ≤ i by omega]
 · simp [BitVec.getLsbD_of_ge a i (by omega)]

theorem mask_mask_of_le {m n : Nat} (h : n ≤ m) : mask (mask a m) n = mask a n := by
 refine BitVec.eq_of_getLsbD_eq fun i _ => ?_
 rw [getLsbD_mask, getLsbD_mask, getLsbD_mask]
 by_cases hn : w - n ≤ i
 · have hm : w - m ≤ i := by omega
   simp [hn, hm]
 · simp [hn]

@[simp] theorem mask_width : mask a w = a := by
 refine BitVec.eq_of_getLsbD_eq fun i _ => ?_
 simp [getLsbD_mask]

structure Cidr (w : Nat) where
 len : Nat
 net : BitVec w
 len_le : len ≤ w
 masked : mask net len = net
 deriving DecidableEq

instance : LawfulBEq (Cidr w) := inferInstance

namespace Cidr

def covers (c : Cidr w) (a : BitVec w) : Bool := mask a c.len = c.net

def around (a : BitVec w) (n : Nat) : Cidr w :=
 ⟨min n w, mask a (min n w), Nat.min_le_right _ _, mask_mask_of_le a le_rfl⟩

def host (a : BitVec w) : Cidr w := ⟨w, a, le_rfl, mask_width a⟩

variable {p q : Cidr w} {a b : BitVec w}

@[simp] theorem host_len (a : BitVec w) : (host a).len = w := rfl

@[simp] theorem host_net (a : BitVec w) : (host a).net = a := rfl

theorem covers_iff : p.covers a = true ↔ mask a p.len = p.net := by
 simp [covers]

@[ext] theorem ext_len_net (hl : p.len = q.len) (hn : p.net = q.net) : p = q := by
 cases p
 cases q
 simp only at hl hn
 subst hl hn
 rfl

theorem covers_net (p : Cidr w) : p.covers p.net = true := covers_iff.mpr p.masked

theorem covers_iff_around : p.covers a = true ↔ around a p.len = p := by
 have hmin : min p.len w = p.len := Nat.min_eq_left p.len_le
 rw [covers_iff]
 constructor
 · intro h
   refine ext_len_net hmin ?_
   simpa only [around, hmin] using h
 · intro h
   have hnet : mask a (min p.len w) = p.net := congrArg Cidr.net h
   rwa [hmin] at hnet

theorem around_covers (a : BitVec w) (n : Nat) : (around a n).covers a = true := covers_iff.mpr rfl

theorem around_len_of_le {n : Nat} (h : n ≤ w) : (around a n).len = n := Nat.min_eq_left h

theorem covers_net_of_covers (hp : p.covers a = true) (hq : q.covers a = true) (hl : p.len ≤ q.len) :
  p.covers q.net = true := by
 rw [covers_iff] at hp hq ⊢
 rw [← hq, mask_mask_of_le a hl, hp]

theorem eq_of_covers (hp : p.covers a = true) (hq : q.covers a = true) (hl : p.len = q.len) : p = q := by
 rw [covers_iff_around] at hp hq
 rw [← hp, ← hq, hl]

@[simp] theorem host_covers : (host a).covers b = true ↔ b = a := by
 rw [covers_iff, host_len, mask_width, host_net]

theorem host_injective (h : host a = host b) : a = b := congrArg Cidr.net h

theorem eq_host_of_len (h : p.len = w) : p = host p.net := ext_len_net h rfl

def overlaps (p q : Cidr w) : Bool := p.covers q.net || q.covers p.net

theorem overlaps_iff : p.overlaps q = true ↔ ∃ a, p.covers a = true ∧ q.covers a = true := by
 rw [overlaps, Bool.or_eq_true]
 constructor
 · rintro (h | h)
   · exact ⟨q.net, h, q.covers_net⟩
   · exact ⟨p.net, p.covers_net, h⟩
 rintro ⟨a, hp, hq⟩
 rcases le_total p.len q.len with hl | hl
 · exact .inl (covers_net_of_covers hp hq hl)
 · exact .inr (covers_net_of_covers hq hp hl)

end Cidr

abbrev Trie (w : Nat) (β : Type) := AList (fun _ : Cidr w => β)

namespace Trie

open Cidr Option

def longestFrom (t : Trie w β) (a : BitVec w) : Nat → Option β
 | 0 => t.lookup (around a 0)
 | n + 1 => (t.lookup (around a (n + 1))).or (longestFrom t a n)

def longest (t : Trie w β) (a : BitVec w) : Option β := longestFrom t a w

variable {t : Trie w β} {a : BitVec w} {v : β} {k : Cidr w}

private theorem longestFrom_eq_some {n : Nat} (hn : n ≤ w) (h : longestFrom t a n = some v) :
  ∃ k : Cidr w, k.len ≤ n ∧ k.covers a = true ∧ t.lookup k = some v ∧
   ∀ k' : Cidr w, k'.len ≤ n → k'.covers a = true → k.len < k'.len → t.lookup k' = none := by
 induction n with
 | zero =>
  refine ⟨around a 0, by simp [around], around_covers a 0, h, ?_⟩
  intro k' hk' _ hlt
  omega
 | succ n ih =>
  simp only [longestFrom] at h
  cases hl : t.lookup (around a (n + 1)) with
  | some u =>
   rw [hl, some_or] at h
   refine ⟨around a (n + 1), (around_len_of_le hn).le, around_covers a _, hl.trans h, ?_⟩
   intro k' hk' _ hlt
   rw [around_len_of_le hn] at hlt
   omega
  | none =>
   rw [hl, none_or] at h
   obtain ⟨k, hkn, hka, hkv, hmax⟩ := ih (by omega) h
   refine ⟨k, by omega, hka, hkv, ?_⟩
   intro k' hk' hka' hlt
   by_cases he : k'.len = n + 1
   · rw [covers_iff_around, he] at hka'
     rw [← hka']
     exact hl
   · exact hmax k' (by omega) hka' hlt

private theorem longestFrom_eq_none {n : Nat} (h : longestFrom t a n = none) (hk : k.covers a = true)
  (hkn : k.len ≤ n) : t.lookup k = none := by
 induction n with
 | zero =>
  rw [covers_iff_around, Nat.le_zero.mp hkn] at hk
  rw [← hk]
  exact h
 | succ n ih =>
  simp only [longestFrom, or_eq_none_iff] at h
  by_cases he : k.len = n + 1
  · rw [covers_iff_around, he] at hk
    rw [← hk]
    exact h.1
  · exact ih h.2 (by omega)

theorem exists_of_longest (h : t.longest a = some v) :
  ∃ k : Cidr w, k.covers a = true ∧ t.lookup k = some v ∧
   ∀ k' : Cidr w, k'.covers a = true → k.len < k'.len → t.lookup k' = none := by
 obtain ⟨k, -, hka, hkv, hmax⟩ := longestFrom_eq_some le_rfl h
 exact ⟨k, hka, hkv, fun k' hk' hlt => hmax k' k'.len_le hk' hlt⟩

theorem longest_eq_none_iff : t.longest a = none ↔ ∀ k : Cidr w, k.covers a = true → t.lookup k = none := by
 constructor
 · intro h k hk
   exact longestFrom_eq_none h hk k.len_le
 intro h
 cases hl : t.longest a with
 | none => rfl
 | some v =>
  obtain ⟨k, hka, hkv, -⟩ := exists_of_longest hl
  rw [h k hka] at hkv
  cases hkv

theorem longest_isSome_iff :
  (t.longest a).isSome = true ↔ ∃ k : Cidr w, k.covers a = true ∧ (t.lookup k).isSome = true := by
 rw [← not_iff_not, not_isSome_iff_eq_none, longest_eq_none_iff]
 simp

theorem longest_of_lookup (hk : k.covers a = true) (hv : t.lookup k = some v) :
  ∃ (k' : Cidr w) (u : β), t.longest a = some u ∧ t.lookup k' = some u ∧ k'.covers a = true ∧
   k.len ≤ k'.len := by
 cases hl : t.longest a with
 | none =>
  rw [longest_eq_none_iff.mp hl k hk] at hv
  cases hv
 | some u =>
  obtain ⟨k', hk', hu, hmax⟩ := exists_of_longest hl
  refine ⟨k', u, rfl, hu, hk', ?_⟩
  by_contra hlt
  rw [hmax k hk (by omega)] at hv
  cases hv

theorem longest_of_host (h : t.lookup (host a) = some v) : t.longest a = some v := by
 obtain ⟨k', u, hl, hu, hk', hlen⟩ := longest_of_lookup (host_covers.mpr rfl) h
 have hle := k'.len_le
 have hfull : k'.len = (host a).len := by rw [host_len] at hlen ⊢; omega
 have he : k' = host a := eq_of_covers hk' (host_covers.mpr rfl) hfull
 rw [he, h] at hu
 rw [hl, hu]

def eraseAll (t : Trie w β) (l : List (Cidr w)) : Trie w β := l.foldl (fun t k => t.erase k) t

def writeAll (t : Trie w β) (l : List (Cidr w × β)) : Trie w β := l.foldl (fun t e => t.insert e.1 e.2) t

variable {l : List (Cidr w)}

theorem lookup_eraseAll : (t.eraseAll l).lookup k = if k ∈ l then none else t.lookup k := by
 induction l generalizing t with
 | nil => rfl
 | cons c l ih =>
  have hstep : t.eraseAll (c :: l) = .eraseAll (t.erase c) l := rfl
  rw [hstep, ih]
  by_cases hl : k ∈ l
  · simp [hl]
  by_cases hc : k = c
  · subst hc
    simp
  · simp [hl, hc, AList.lookup_erase_ne hc]

variable {e : List (Cidr w × β)}

theorem lookup_writeAll_of_notMem (h : k ∉ e.map Prod.fst) : (t.writeAll e).lookup k = t.lookup k := by
 induction e generalizing t with
 | nil => rfl
 | cons c e ih =>
  rw [List.map_cons, List.mem_cons, not_or] at h
  have hstep : t.writeAll (c :: e) = .writeAll (t.insert c.1 c.2) e := rfl
  rw [hstep, ih h.2, AList.lookup_insert_ne h.1]

theorem lookup_writeAll_of_mem (h : k ∈ e.map Prod.fst) : ∃ v, (k, v) ∈ e ∧ (t.writeAll e).lookup k = some v := by
 induction e generalizing t with
 | nil => cases h
 | cons c e ih =>
  have hstep : t.writeAll (c :: e) = .writeAll (t.insert c.1 c.2) e := rfl
  by_cases he : k ∈ e.map Prod.fst
  · obtain ⟨v, hv, hl⟩ := ih he
    exact ⟨v, List.mem_cons_of_mem _ hv, hstep ▸ hl⟩
  · have hc : k = c.1 := by simpa [he] using h
    refine ⟨c.2, by simp [hc], ?_⟩
    rw [hstep, lookup_writeAll_of_notMem he, hc, AList.lookup_insert]

end Trie

end Lpm
