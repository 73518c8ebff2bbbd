import Lnvps.Lib.Net
import Lnvps.Lib.Text

/-! # Addresses and networks as text -/

namespace Net

open List Text

def parts (b : Nat) : Nat → Nat → List Nat
 | 0, _ => []
 | k + 1, n => parts b k (n / b) ++ [n % b]

variable {b k n : Nat}

theorem length_parts : (parts b k n).length = k := by
 induction k generalizing n with
 | zero => rfl
 | succ k ih => simp [parts, ih]

theorem lt_of_mem_parts (hb : 0 < b) {d : Nat} (hd : d ∈ parts b k n) : d < b := by
 induction k generalizing n with
 | zero => exact absurd hd not_mem_nil
 | succ k ih =>
  rcases mem_append.mp hd with hd | hd
  · exact ih hd
  · exact mem_singleton.mp hd ▸ Nat.mod_lt _ hb

theorem foldl_parts : (parts b k n).foldl (fun m d => m * b + d) 0 = n % b ^ k := by
 induction k generalizing n with
 | zero => simp [parts, Nat.mod_one]
 | succ k ih =>
  rw [parts, foldl_append, ih, foldl_cons, foldl_nil, Nat.pow_succ', Nat.mod_mul]
  ring

namespace Kind

def separator : Kind → Char
 | .v4 => '.'
 | .v6 => ':'

def radix : Kind → Nat
 | .v4 => 10
 | .v6 => 16

def partSize : Kind → Nat
 | .v4 => 2 ^ 8
 | .v6 => 2 ^ 16

def count : Kind → Nat
 | .v4 => 4
 | .v6 => 8

end Kind

variable (kind : Kind) {c : Char}

def readPart (cs : List Char) : Option Nat :=
 (readDigits kind.radix cs).filter fun n =>
  n < kind.partSize ∧ cs.length ≤ 4 ∧ (kind = .v4 → Nat.toDigits kind.radix n = cs)

def Addr.text (a : Addr) : List Char :=
 intercalate [a.kind.separator] ((parts a.kind.partSize a.kind.count a.value).map (Nat.toDigits a.kind.radix))

def Addr.ofText (cs : List Char) : Option Addr := do
 let kind := if '.' ∈ cs then Kind.v4 else .v6
 let ns ← (cs.splitOn kind.separator).mapM (readPart kind)
 let value := ns.foldl (fun m d => m * kind.partSize + d) 0
 if h : ns.length = kind.count ∧ value < 2 ^ kind.bits then some ⟨kind, value, h.2⟩ else none

theorem readPart_toDigits (hn : n < kind.partSize) : readPart kind (Nat.toDigits kind.radix n) = some n := by
 have hread : readDigits kind.radix (Nat.toDigits kind.radix n) = some n := by
  cases kind <;> exact readDigits_toDigits (by decide) (by decide) n
 have hlength : (Nat.toDigits kind.radix n).length ≤ 4 := by
  cases kind <;> refine (Nat.length_toDigits_le_iff (by decide) (by decide)).mpr (lt_of_lt_of_le hn (by decide))
 simp [readPart, hread, hn, hlength]

theorem digit_of_mem (hc : c ∈ Nat.toDigits kind.radix n) : c ∈ "0123456789abcdef".toList := by
 have hdigit : ∀ d < 16, Nat.digitChar d ∈ "0123456789abcdef".toList := by decide
 obtain ⟨d, hd, rfl⟩ := mem_toDigits (by cases kind <;> decide) hc
 exact hdigit d (lt_of_lt_of_le hd (by cases kind <;> decide))

theorem Addr.mem_text {a : Addr} (hc : c ∈ a.text) : c ∈ "0123456789abcdef".toList ∨ c = a.kind.separator := by
 rcases mem_intercalate hc with h | ⟨part, hpart, h⟩
 · exact .inr h
 · obtain ⟨n, -, rfl⟩ := mem_map.mp hpart
   exact .inl (digit_of_mem _ h)

theorem Addr.dot_mem_text {a : Addr} : '.' ∈ a.text ↔ a.kind = .v4 := by
 obtain ⟨kind, value, h⟩ := a
 cases kind with
 | v4 => simp [Addr.text, parts, Kind.count, Kind.separator]
 | v6 =>
  refine iff_of_false (fun hdot => ?_) nofun
  rcases Addr.mem_text hdot with h | h
  · exact absurd h (by decide)
  · exact absurd h (show '.' ≠ ':' by decide)

theorem mapM_readPart {ns : List Nat} (hns : ∀ n ∈ ns, n < kind.partSize) :
  (ns.map (Nat.toDigits kind.radix)).mapM (readPart kind) = some ns := by
 induction ns with
 | nil => rfl
 | cons n ns ih =>
  rw [forall_mem_cons] at hns
  simp [readPart_toDigits kind hns.1, ih hns.2]

theorem Addr.ofText_text (a : Addr) : Addr.ofText a.text = some a := by
 have hkind : (if '.' ∈ a.text then Kind.v4 else .v6) = a.kind := by
  rw [if_congr Addr.dot_mem_text rfl rfl]
  cases a.kind <;> rfl
 have hsplit : a.text.splitOn a.kind.separator = (parts a.kind.partSize a.kind.count a.value).map
   (Nat.toDigits a.kind.radix) := by
  refine splitOn_intercalate _ (fun part hpart hsep => ?_) (fun hnil => ?_)
  · obtain ⟨n, -, rfl⟩ := mem_map.mp hpart
    exact absurd (digit_of_mem _ hsep) (by cases a.kind <;> decide)
  · have hlength := congrArg length hnil
    rw [length_map, length_parts] at hlength
    exact absurd hlength (by cases a.kind <;> decide)
 have hread := mapM_readPart a.kind fun n hn =>
  lt_of_mem_parts (k := a.kind.count) (n := a.value) (by cases a.kind <;> decide) hn
 have hvalue : a.value % a.kind.partSize ^ a.kind.count = a.value :=
  Nat.mod_eq_of_lt (lt_of_lt_of_eq a.lt (by cases a.kind <;> decide))
 simp [Addr.ofText, hkind, hsplit, hread, foldl_parts, hvalue, length_parts, a.lt]

namespace Network

def cidr (n : Network) : List Char := n.ip.text ++ '/' :: Nat.toDigits 10 n.prefixLen

def ofCidr (cs : List Char) : Option Network :=
 match splitOnce (· = '/') cs with
 | none => do
  let ip ← Addr.ofText cs
  new? ip ip.kind.bits
 | some (ip, prefixLen) => do
  let ip ← Addr.ofText ip
  let prefixLen ← readDigits 10 prefixLen
  new? ip prefixLen

theorem ofCidr_cidr (n : Network) : ofCidr n.cidr = some n := by
 have hslash : ∀ c ∈ n.ip.text, decide (c = '/') = false := by
  intro c hc
  rw [decide_eq_false_iff_not]
  rintro rfl
  rcases Addr.mem_text hc with h | h
  · exact absurd h (by decide)
  · revert h
    cases n.ip.kind <;> decide
 have hread := readDigits_toDigits (by decide) (by decide : 10 ≤ 16) n.prefixLen
 rw [ofCidr, cidr, splitOnce_append hslash (by decide)]
 simp [Addr.ofText_text, hread, new?, n.le]

end Network

end Net
