import Lnvps.Firewall.Control

/-! # Prefix masks, byte by byte -/

namespace Lnvps.Firewall

open Lpm List

variable {N p : Nat}

abbrev Octets (N : Nat) := Fin N → BitVec 8

def maskBytes (addr : Octets N) (plen : Nat) : Octets N := fun i =>
 let bitStart := i.val * 8
 if bitStart + 8 ≤ plen then addr i
 else if bitStart < plen then addr i &&& (0xff#8 <<< (8 - (plen - bitStart)))
 else 0#8

def maskAddr (addr : Octets N) (plen : Nat) : Octets N := maskBytes addr (min plen (8 * N))

namespace Octets

variable {a b : Octets N}

def bit (a : Octets N) (k : Fin (8 * N)) : Bool := (a ⟨k / 8, by omega⟩).getMsbD (k % 8)

theorem ext_bit (h : ∀ k, a.bit k = b.bit k) : a = b := by
 funext i
 refine BitVec.eq_of_getMsbD_eq fun j hj => ?_
 have hk := h ⟨8 * i + j, by omega⟩
 simpa only [bit, show (8 * i.val + j) / 8 = i.val by omega, show (8 * i.val + j) % 8 = j by omega] using hk

theorem getMsbD_keep (x : BitVec 8) {keep j : Nat} (hkeep : keep ≤ 8) :
  (x &&& (0xff#8 <<< (8 - keep))).getMsbD j = (x.getMsbD j && decide (j < keep)) := by
 rw [BitVec.getMsbD_and, BitVec.getMsbD_shiftLeft, show 0xff#8 = BitVec.allOnes 8 from rfl]
 simp only [BitVec.getMsbD_allOnes]
 congr 1
 exact decide_eq_decide.mpr (by omega)

theorem bit_maskBytes (a : Octets N) (p : Nat) (k : Fin (8 * N)) :
  (maskBytes a p).bit k = (a.bit k && decide (k.val < p)) := by
 simp only [bit, maskBytes]
 split_ifs with hfull hpart
 · simp [show k.val < p by omega]
 · rw [getMsbD_keep _ (by omega)]
   congr 1
   exact decide_eq_decide.mpr (by omega)
 · simp [show ¬ k.val < p by omega]

def joined (a : Octets N) : BitVec (8 * N) := BitVec.ofNat _ (Nat.ofBits fun i => a.bit i.rev)

theorem getMsbD_joined (a : Octets N) (k : Fin (8 * N)) : a.joined.getMsbD k = a.bit k := by
 have hlt : 8 * N - 1 - k.val < 8 * N := by omega
 rw [BitVec.getMsbD_eq_getLsbD, joined, BitVec.getLsbD_ofNat, Nat.testBit_ofBits_lt _ _ hlt]
 simp only [k.isLt, hlt, decide_true, Bool.true_and]
 congr 1
 exact Fin.ext (by simp only [Fin.val_rev]; omega)

theorem joined_injective (h : a.joined = b.joined) : a = b :=
 ext_bit fun k => by rw [← getMsbD_joined, h, getMsbD_joined]

theorem joined_maskBytes (a : Octets N) (p : Nat) : (maskBytes a p).joined = mask a.joined p := by
 refine BitVec.eq_of_getMsbD_eq fun k hk => ?_
 rw [getMsbD_joined _ ⟨k, hk⟩, bit_maskBytes, ← getMsbD_joined]
 simp only [BitVec.getMsbD_eq_getLsbD, getLsbD_mask, hk, decide_true, Bool.true_and]
 congr 1
 exact decide_eq_decide.mpr (by omega)

theorem maskBytes_eq_iff : maskBytes a p = maskBytes b p ↔ ∀ k : Fin (8 * N), k.val < p → a.bit k = b.bit k := by
 constructor
 · intro h k hk
   have hbit := congrArg (fun x => Octets.bit x k) h
   simpa only [bit_maskBytes, hk, decide_true, Bool.and_true] using hbit
 intro h
 refine ext_bit fun k => ?_
 rw [bit_maskBytes, bit_maskBytes]
 by_cases hk : k.val < p
 · rw [h k hk]
 · simp [hk]

theorem maskBytes_maskBytes (a : Octets N) (p q : Nat) : maskBytes (maskBytes a p) q = maskBytes a (min p q) := by
 refine ext_bit fun k => ?_
 rw [bit_maskBytes, bit_maskBytes, bit_maskBytes, Bool.and_assoc, ← Bool.decide_and]
 congr 1
 exact decide_eq_decide.mpr (by omega)

end Octets

structure PushedOverride (N : Nat) where
 bits : Nat
 network : Octets N
 flags : Flags
 bits_le : bits ≤ 8 * N
 masked : maskBytes network bits = network

def manualFlagsOf (manual : List (PushedOverride N)) (addr : Octets N) : Flags :=
 (manual.filter fun o => maskAddr addr o.bits = o.network).foldl (fun acc o => acc ||| o.flags) 0#32

def PushedOverride.considered (len : Nat) (addr : Octets N) (o : PushedOverride N) : Bool :=
 o.bits ≤ len ∧ ∀ k : Fin (8 * N), k.val < o.bits → o.network.bit k = addr.bit k

def coveringFlags (manual : List (PushedOverride N)) (len : Nat) (addr : Octets N) : Flags :=
 (manual.filter (PushedOverride.considered len addr)).foldl (fun acc o => acc ||| o.flags) 0#32

section

variable {manual : List (PushedOverride N)} {len : Nat} {addr : Octets N} {o : PushedOverride N} {f g : Flags}

theorem hasAll_antisymm (h₁ : hasAll f g = true) (h₂ : hasAll g f = true) : f = g := by
 simp only [hasAll, decide_eq_true_eq] at h₁ h₂
 rw [← h₂, BitVec.and_comm, h₁]

theorem hasAll_union_iff (l : List (PushedOverride N)) (acc : Flags) :
  hasAll g (l.foldl (fun acc o => acc ||| o.flags) acc) = true ↔
   hasAll g acc = true ∧ ∀ o ∈ l, hasAll g o.flags = true := by
 induction l generalizing acc with
 | nil => simp
 | cons o l ih => rw [foldl_cons, ih, hasAll_or_iff, forall_mem_cons, and_assoc]

theorem hasAll_manualFlagsOf : hasAll g (manualFlagsOf manual addr) = true ↔
  ∀ o ∈ manual, maskBytes addr o.bits = o.network → hasAll g o.flags = true := by
 simp [manualFlagsOf, hasAll_union_iff, maskAddr, Nat.min_eq_left (PushedOverride.bits_le _)]

theorem hasAll_coveringFlags : hasAll g (coveringFlags manual len addr) = true ↔
  ∀ o ∈ manual, o.considered len addr = true → hasAll g o.flags = true := by
 simp [coveringFlags, hasAll_union_iff]

theorem considered_iff : o.considered len addr = true ↔ o.bits ≤ len ∧ maskBytes addr o.bits = o.network := by
 rw [PushedOverride.considered, decide_eq_true_eq, ← Octets.maskBytes_eq_iff, o.masked, eq_comm (a := o.network)]

theorem manualFlagsOf_eq_iff : manualFlagsOf manual addr = coveringFlags manual len addr ↔
  ∀ o ∈ manual, maskBytes addr o.bits = o.network → len < o.bits →
   hasAll (coveringFlags manual len addr) o.flags = true := by
 constructor
 · intro h o ho hmask _
   exact h ▸ hasAll_manualFlagsOf.mp hasAll_self o ho hmask
 intro h
 refine hasAll_antisymm (hasAll_coveringFlags.mpr fun o ho hc => ?_) (hasAll_manualFlagsOf.mpr fun o ho hmask => ?_)
 · exact hasAll_manualFlagsOf.mp hasAll_self o ho (considered_iff.mp hc).2
 · by_cases hlen : o.bits ≤ len
   · exact hasAll_coveringFlags.mp hasAll_self o ho (considered_iff.mpr ⟨hlen, hmask⟩)
   · exact h o ho hmask (by omega)

def PushedOverride.override (o : PushedOverride N) : Override (8 * N) where
 net := ⟨o.bits, o.network.joined, o.bits_le, by rw [← Octets.joined_maskBytes, o.masked]⟩
 flags := o.flags

theorem manualFlagsOf_joined (manual : List (PushedOverride N)) (addr : Octets N) :
  manualFlagsOf manual addr = Rules.manualFlags { overrides := manual.map (·.override) } addr.joined := by
 have hcovers (o : PushedOverride N) : o.override.net.covers addr.joined =
   decide (maskAddr addr o.bits = o.network) := by
  rw [maskAddr, Nat.min_eq_left o.bits_le, Cidr.covers, decide_eq_decide, PushedOverride.override,
   ← Octets.joined_maskBytes]
  exact ⟨Octets.joined_injective, congrArg _⟩
 simp only [Rules.manualFlags, filter_map, Function.comp_def, hcovers, foldl_map]
 rfl

end

theorem manualFlags_cover_iff (N : Nat) :
  (∀ (a b : Octets N) (p : Nat), p ≤ 8 * N →
   (maskBytes a p = maskBytes b p ↔ ∀ k : Fin (8 * N), k.val < p → a.bit k = b.bit k)) ∧
  (∀ (a : Octets N) (p q : Nat), p ≤ 8 * N → q ≤ 8 * N → maskBytes (maskBytes a p) q = maskBytes a (min p q)) ∧
  ∀ manual : List (PushedOverride N),
   (∀ addr : Octets N, manualFlagsOf manual addr = coveringFlags manual (8 * N) addr) ∧
   ∀ (len : Nat) (network : Octets N), len ≤ 8 * N → maskBytes network len = network →
    (manualFlagsOf manual network = coveringFlags manual len network ↔
     ∀ o ∈ manual, o.network = network → len < o.bits →
      hasAll (coveringFlags manual len network) o.flags = true) := by
 refine ⟨fun a b p _ => Octets.maskBytes_eq_iff, fun a p q _ _ => Octets.maskBytes_maskBytes a p q, ?_⟩
 refine fun manual => ⟨?_, ?_⟩
 · intro addr
   exact manualFlagsOf_eq_iff.mpr fun o _ _ hlen => absurd o.bits_le (by omega)
 intro len network _ hmasked
 rw [manualFlagsOf_eq_iff]
 have hsame (o : PushedOverride N) (hlen : len < o.bits) : maskBytes network o.bits = network := by
  rw [← hmasked, Octets.maskBytes_maskBytes, Nat.min_eq_left (by omega)]
 constructor
 · intro h o ho hnet hlen
   exact h o ho ((hsame o hlen).trans hnet.symm) hlen
 · intro h o ho hmask hlen
   exact h o ho (hmask.symm.trans (hsame o hlen)) hlen

/-- The override of the first host of a network is taken for one of the whole network. -/
theorem manualFlags_of_host : ∃ (manual : List (PushedOverride 4)) (network : Octets 4),
  maskBytes network 24 = network ∧ manualFlagsOf manual network = SYN_PROXY ∧
   coveringFlags manual 24 network = 0#32 :=
 ⟨[⟨32, ![10, 0, 0, 0], SYN_PROXY, by decide, by decide⟩], ![10, 0, 0, 0], by decide, by decide, by decide⟩

end Lnvps.Firewall
