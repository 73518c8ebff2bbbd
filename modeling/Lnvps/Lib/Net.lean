import Mathlib.Tactic

/-! # Addresses and networks -/

namespace Net

open List Option

inductive Kind
 | v4
 | v6
 deriving DecidableEq

def Kind.bits : Kind → Nat
 | .v4 => 32
 | .v6 => 128

structure Addr where
 kind : Kind
 value : Nat
 lt : value < 2 ^ kind.bits
 deriving DecidableEq

structure Network where
 ip : Addr
 prefixLen : Nat
 le : prefixLen ≤ ip.kind.bits
 deriving DecidableEq

namespace Network

def new? (ip : Addr) (prefixLen : Nat) : Option Network :=
 if h : prefixLen ≤ ip.kind.bits then some ⟨ip, prefixLen, h⟩ else none

theorem ip_of_new? {ip : Addr} {prefixLen : Nat} {n : Network} (h : new? ip prefixLen = some n) : n.ip = ip := by
 unfold new? at h
 split at h
 · cases h
   rfl
 · cases h

variable (n : Network)

def size : Nat := 2 ^ (n.ip.kind.bits - n.prefixLen)

def first : Nat := n.ip.value / n.size * n.size

def contains (a : Addr) : Bool := a.kind = n.ip.kind ∧ a.value / n.size = n.ip.value / n.size

theorem size_pos : 0 < n.size := Nat.two_pow_pos _

theorem first_add_size_le : n.first + n.size ≤ 2 ^ n.ip.kind.bits := by
 have hsplit : 2 ^ n.ip.kind.bits = 2 ^ n.prefixLen * n.size := by
  unfold size
  rw [← Nat.pow_add, Nat.add_sub_cancel' n.le]
 have hlt : n.ip.value / n.size < 2 ^ n.prefixLen := by
  rw [Nat.div_lt_iff_lt_mul n.size_pos, ← hsplit]
  exact n.ip.lt
 unfold first
 rw [hsplit, ← Nat.succ_mul]
 exact Nat.mul_le_mul_right _ hlt

def nth (i : Nat) : Option Addr :=
 if h : i < n.size then some ⟨n.ip.kind, n.first + i, by have := n.first_add_size_le; omega⟩ else none

variable {n} {a b : Addr} {i j : Nat}

theorem nth_eq_some : n.nth i = some a ↔ i < n.size ∧ a.kind = n.ip.kind ∧ a.value = n.first + i := by
 unfold nth
 split
 · rename_i h
   rw [Option.some.injEq]
   constructor
   · rintro rfl
     exact ⟨h, rfl, rfl⟩
   rintro ⟨-, hk, hv⟩
   obtain ⟨kind, value, hlt⟩ := a
   simp only at hk hv
   subst hk hv
   rfl
 · rename_i h
   simp [h]

theorem contains_iff : n.contains a = true ↔ ∃ i, n.nth i = some a := by
 unfold contains
 rw [decide_eq_true_eq]
 constructor
 · rintro ⟨hk, hv⟩
   refine ⟨a.value % n.size, nth_eq_some.mpr ⟨Nat.mod_lt _ n.size_pos, hk, ?_⟩⟩
   unfold first
   rw [← hv, Nat.div_add_mod']
 rintro ⟨i, h⟩
 obtain ⟨hi, hk, hv⟩ := nth_eq_some.mp h
 refine ⟨hk, ?_⟩
 rw [hv, first, Nat.mul_comm, Nat.mul_add_div n.size_pos, Nat.div_eq_of_lt hi, Nat.add_zero]

theorem contains_of_nth (h : n.nth i = some a) : n.contains a = true := contains_iff.mpr ⟨i, h⟩

theorem kind_of_contains (h : n.contains a = true) : a.kind = n.ip.kind := (of_decide_eq_true h).1

theorem nth_inj (hi : n.nth i = some a) (hj : n.nth j = some a) : i = j := by
 have h1 := (nth_eq_some.mp hi).2.2
 have h2 := (nth_eq_some.mp hj).2.2
 omega

variable (n) in
def addrs : List Addr := (List.range n.size).filterMap n.nth

theorem mem_addrs : a ∈ n.addrs ↔ n.contains a = true := by
 rw [addrs, mem_filterMap, contains_iff]
 constructor
 · rintro ⟨i, -, h⟩
   exact ⟨i, h⟩
 · rintro ⟨i, h⟩
   exact ⟨i, mem_range.mpr (nth_eq_some.mp h).1, h⟩

theorem nodup_addrs : n.addrs.Nodup :=
 nodup_range.filterMap fun _ _ _ hi hj => nth_inj hi hj

theorem length_addrs : n.addrs.length = n.size := by
 have hall : ∀ i ∈ range n.size, (n.nth i).isSome = true := by
  intro i hi
  unfold nth
  rw [dif_pos (mem_range.mp hi)]
  rfl
 rw [addrs, length_filterMap_eq_countP, countP_eq_length.mpr hall, length_range]

theorem length_filter_notMem {l : List Addr} (hnodup : l.Nodup) (hin : ∀ a ∈ l, n.contains a = true) :
  l.length + (n.addrs.filter (· ∉ l)).length = n.size := by
 have hperm : (n.addrs.filter (· ∈ l)).Perm l := by
  rw [perm_ext_iff_of_nodup (nodup_addrs.filter _) hnodup]
  intro a
  rw [mem_filter, mem_addrs, decide_eq_true_eq]
  exact ⟨fun h => h.2, fun h => ⟨hin a h, h⟩⟩
 have hsplit := length_eq_length_filter_add (l := n.addrs) (fun a => decide (a ∈ l))
 rw [length_addrs, hperm.length_eq] at hsplit
 simpa using hsplit.symm

variable (n)

def firstFree (used : List Addr) : Option Addr :=
 ((List.range (min n.size (used.length + 1))).find? fun i => (n.nth i).any fun a => a ∉ used).bind n.nth

variable {n} {used : List Addr}

theorem firstFree_spec (h : n.firstFree used = some a) : n.contains a = true ∧ a ∉ used := by
 obtain ⟨i, hi, hnth⟩ := bind_eq_some_iff.mp h
 have hfree := find?_some hi
 rw [hnth, any_some, decide_eq_true_eq] at hfree
 exact ⟨contains_of_nth hnth, hfree⟩

theorem exists_free (h : used.length < n.size) : ∃ i ≤ used.length, ∃ a, n.nth i = some a ∧ a ∉ used := by
 by_contra hno
 have hall : ∀ i ≤ used.length, ∃ a ∈ used, n.nth i = some a := by
  intro i hi
  obtain ⟨a, ha⟩ : ∃ a, n.nth i = some a := by
   unfold nth
   rw [dif_pos (by omega)]
   exact ⟨_, rfl⟩
  by_cases hused : a ∈ used
  · exact ⟨a, hused, ha⟩
  · exact absurd ⟨i, hi, a, ha, hused⟩ hno
 have hsub : (range (used.length + 1)).map n.nth ⊆ used.map some := by
  intro x hx
  obtain ⟨i, hi, rfl⟩ := mem_map.mp hx
  obtain ⟨a, ha, hnth⟩ := hall i (Nat.lt_succ_iff.mp (mem_range.mp hi))
  exact mem_map.mpr ⟨a, ha, hnth.symm⟩
 have hnodup : ((range (used.length + 1)).map n.nth).Nodup := by
  refine .map_on ?_ nodup_range
  intro i hi j hj hij
  obtain ⟨a, -, ha⟩ := hall i (Nat.lt_succ_iff.mp (mem_range.mp hi))
  exact nth_inj ha (hij ▸ ha)
 have hlen := (hnodup.subperm hsub).length_le
 rw [length_map, length_map, length_range] at hlen
 omega

theorem firstFree_least (hnth : n.nth i = some a) (hfree : a ∉ used) :
  ∃ j ≤ i, ∃ b, n.nth j = some b ∧ n.firstFree used = some b := by
 have hi := (nth_eq_some.mp hnth).1
 have hwindow : ∃ k ≤ i, k < min n.size (used.length + 1) ∧ (n.nth k).any (fun a => a ∉ used) = true := by
  by_cases hk : i ≤ used.length
  · exact ⟨i, Nat.le_refl i, by omega, by simp [hnth, hfree]⟩
  · obtain ⟨k, hk', b, hb, hbfree⟩ := exists_free (show used.length < n.size by omega)
    exact ⟨k, by omega, by omega, by simp [hb, hbfree]⟩
 obtain ⟨k, hki, hkm, hk⟩ := hwindow
 obtain ⟨j, hj⟩ : ∃ j, (range (min n.size (used.length + 1))).find?
   (fun i => (n.nth i).any fun a => a ∉ used) = some j := by
  rw [← isSome_iff_exists, find?_isSome]
  exact ⟨k, mem_range.mpr hkm, hk⟩
 have hfound := find?_some hj
 obtain ⟨b, hb, -⟩ := (any_eq_true _ _).mp hfound
 refine ⟨j, ?_, b, hb, ?_⟩
 · by_contra hlt
   have hnone := (find?_range_eq_some.mp hj).2.2 k (by omega)
   rw [hk] at hnone
   cases hnone
 · unfold firstFree
   rw [hj]
   exact hb

variable (n) in
def last : Nat := n.first + n.size - 1

def Disjoint (n m : Network) : Prop := ∀ a, n.contains a = true → m.contains a = false

def Within (n m : Network) : Prop := ∀ a, n.contains a = true → m.contains a = true

variable {m : Network}

theorem contains_iff_bounds : n.contains a = true ↔ a.kind = n.ip.kind ∧ n.first ≤ a.value ∧ a.value ≤ n.last := by
 have hpos := n.size_pos
 rw [contains_iff]
 constructor
 · rintro ⟨i, h⟩
   obtain ⟨hi, hk, hv⟩ := nth_eq_some.mp h
   refine ⟨hk, by omega, ?_⟩
   unfold last
   omega
 · rintro ⟨hk, hlow, hhigh⟩
   unfold last at hhigh
   exact ⟨a.value - n.first, nth_eq_some.mpr ⟨by omega, hk, by omega⟩⟩

theorem Disjoint.symm (h : Disjoint n m) : Disjoint m n := by
 intro a hm
 rw [← Bool.not_eq_true]
 intro hn
 rw [h a hn] at hm
 cases hm

theorem disjoint_of_kind (h : n.ip.kind ≠ m.ip.kind) : Disjoint n m := by
 intro a hn
 rw [← Bool.not_eq_true]
 intro hm
 exact h ((kind_of_contains hn).symm.trans (kind_of_contains hm))

theorem disjoint_of_lt (h : n.last < m.first ∨ m.last < n.first) : Disjoint n m := by
 intro a hn
 rw [← Bool.not_eq_true]
 intro hm
 obtain ⟨-, h1, h2⟩ := contains_iff_bounds.mp hn
 obtain ⟨-, h3, h4⟩ := contains_iff_bounds.mp hm
 omega

theorem within_of_le (hkind : n.ip.kind = m.ip.kind) (hfirst : m.first ≤ n.first) (hlast : n.last ≤ m.last) :
  Within n m := by
 intro a hn
 obtain ⟨hk, h1, h2⟩ := contains_iff_bounds.mp hn
 exact contains_iff_bounds.mpr ⟨hk.trans hkind, hfirst.trans h1, h2.trans hlast⟩

theorem first_le_last : n.first ≤ n.last := by
 have hpos := n.size_pos
 unfold last
 omega

theorem last_lt : n.last < 2 ^ n.ip.kind.bits := by
 have hpos := n.size_pos
 have hle := n.first_add_size_le
 unfold last
 omega

theorem size_dvd_last_succ : n.size ∣ n.last + 1 := by
 have hpos := n.size_pos
 have heq : n.last + 1 = n.first + n.size := by
  unfold last
  omega
 rw [heq]
 exact Nat.dvd_add_self_right.mpr (Nat.dvd_mul_left _ _)

theorem Within.bounds (h : Within n m) : n.ip.kind = m.ip.kind ∧ m.first ≤ n.first ∧ n.last ≤ m.last := by
 have hlast : n.last < 2 ^ n.ip.kind.bits := last_lt
 have hle : n.first ≤ n.last := first_le_last
 have hbottom : m.contains ⟨n.ip.kind, n.first, by omega⟩ = true :=
  h _ (contains_iff_bounds.mpr ⟨rfl, Nat.le_refl _, hle⟩)
 have htop : m.contains ⟨n.ip.kind, n.last, hlast⟩ = true := h _ (contains_iff_bounds.mpr ⟨rfl, hle, Nat.le_refl _⟩)
 exact ⟨(contains_iff_bounds.mp hbottom).1, (contains_iff_bounds.mp hbottom).2.1, (contains_iff_bounds.mp htop).2.2⟩

end Network

end Net
