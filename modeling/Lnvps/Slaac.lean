import Lnvps.IpUniqueness

/-! # Addresses from MAC addresses -/

namespace Lnvps

open Net Network Option
open Provisioning (plainText)

namespace Slaac

variable {text : IpText} {net : NetworkDb} {range : IpRange} {cidr : Network} {available : AvailableIp} {draw : Nat}
 {mac : BitVec 48}

def eui64 (mac : BitVec 48) : BitVec 64 :=
 ((mac.extractLsb' 24 24 ^^^ 0x020000#24) ++ 0xFFFE#16) ++ mac.extractLsb' 0 24

def allocated (text : IpText) (v6 : AvailableIp) (mac : BitVec 48) : Option Addr :=
 (v6ToAllocation text v6 mac).bind fun pending => text.parse pending.ip

theorem getLsbD_eui64_low {i : Nat} (hi : i < 24) : (eui64 mac).getLsbD i = mac.getLsbD i := by
 refine BitVec.getLsbD_append.trans ?_
 simp [hi]

theorem getLsbD_eui64_high {i : Nat} (hlow : 24 ≤ i) (hi : i < 48) :
  (eui64 mac).getLsbD (i + 16) = (mac.getLsbD i ^^ (0x020000#24).getLsbD (i - 24)) := by
 refine BitVec.getLsbD_append.trans ?_
 rw [if_neg (by omega)]
 refine BitVec.getLsbD_append.trans ?_
 rw [if_neg (by omega), show i + 16 - 24 - 16 = i - 24 by omega]
 simp [show i - 24 < 24 by omega, show 24 + (i - 24) = i by omega]

theorem eui64_injective {m₁ m₂ : BitVec 48} (h : eui64 m₁ = eui64 m₂) : m₁ = m₂ := by
 apply BitVec.eq_of_getLsbD_eq
 intro i hi
 by_cases hlow : i < 24
 · rw [← getLsbD_eui64_low hlow, ← getLsbD_eui64_low hlow, h]
 · have hbit : (eui64 m₁).getLsbD (i + 16) = (eui64 m₂).getLsbD (i + 16) := by rw [h]
   rw [getLsbD_eui64_high (by omega) hi, getLsbD_eui64_high (by omega) hi] at hbit
   exact Bool.xor_left_inj.mp hbit

theorem calculateEui64_eq (mac : BitVec 48) (hkind : cidr.ip.kind = .v6) :
    ∃ a, calculateEui64 mac cidr = some a ∧ a.kind = .v6 ∧
      a.value = cidr.first / 2 ^ 64 * 2 ^ 64 + (eui64 mac).toNat := by
  unfold calculateEui64
  rw [dif_pos hkind]
  exact ⟨_, rfl, rfl, rfl⟩

theorem available_of_pick (hcidr : range.cidr = some cidr) (hmode : range.allocationMode = .slaacEui64)
  (hpick : pickIpFromRange text net range draw = some available) :
  available.ip = cidr ∧ available.mode = .slaacEui64 := by
 simp only [pickIpFromRange, hcidr, hmode, bind_eq_bind, bind_some] at hpick
 obtain ⟨gateway, -, hpick⟩ := bind_eq_some_iff.mp hpick
 split at hpick
 · cases hpick
 split at hpick
 · cases hpick
 · cases hpick
   exact ⟨rfl, rfl⟩

theorem allocated_eq (text : IpText) (mac : BitVec 48) (hkind : cidr.ip.kind = .v6) (hip : available.ip = cidr)
    (hmode : available.mode = .slaacEui64) :
    ∃ a, allocated text available mac = some a ∧ a.kind = .v6 ∧
      a.value = cidr.first / 2 ^ 64 * 2 ^ 64 + (eui64 mac).toNat := by
  obtain ⟨a, ha, hk, hv⟩ := calculateEui64_eq mac hkind
  refine ⟨a, ?_, hk, hv⟩
  simp [allocated, v6ToAllocation, hmode, hip, ha, text.parse_format]

theorem contains_iff_offset {a : Addr} (hkind : cidr.ip.kind = .v6) (hk : a.kind = .v6) :
  cidr.contains a = true ↔ cidr.first ≤ a.value ∧ a.value < cidr.first + cidr.size := by
 have hpos := cidr.size_pos
 rw [contains_iff_bounds, hkind, hk]
 unfold last
 constructor
 · rintro ⟨-, hlow, hhigh⟩
   omega
 · rintro ⟨hlow, hhigh⟩
   exact ⟨rfl, hlow, by omega⟩

theorem first_eq_of_le (hkind : cidr.ip.kind = .v6) (h : cidr.prefixLen ≤ 64) :
  cidr.first / 2 ^ 64 * 2 ^ 64 = cidr.first ∧ 2 ^ 64 ≤ cidr.size := by
 have hsize : cidr.size = 2 ^ (64 - cidr.prefixLen) * 2 ^ 64 := by
  rw [size, hkind, ← Nat.pow_add]
  congr 1
  simp only [Kind.bits]
  omega
 constructor
 · apply Nat.div_mul_cancel
   rw [first, hsize, ← Nat.mul_assoc]
   exact Nat.dvd_mul_left _ _
 · rw [hsize]
   exact Nat.le_mul_of_pos_left _ (Nat.two_pow_pos _)

theorem size_le_of_lt (hkind : cidr.ip.kind = .v6) (h : 64 < cidr.prefixLen) : cidr.size ≤ 2 ^ 63 := by
 rw [size, hkind]
 apply Nat.pow_le_pow_right (by decide)
 simp only [Kind.bits]
 omega

/-- Every MAC address gives an address of the range, and different ones give different addresses, exactly if the prefix
of the range is in the upper half. -/
theorem slaac_addresses_iff (hcidr : range.cidr = some cidr) (hkind : cidr.ip.kind = .v6)
  (hmode : range.allocationMode = .slaacEui64) (hpick : pickIpFromRange text net range draw = some available) :
  (∀ m₁ m₂ : BitVec 48, ∃ a₁ a₂, allocated text available m₁ = some a₁ ∧ allocated text available m₂ = some a₂ ∧
   cidr.contains a₁ = true ∧ (a₁ = a₂ → m₁ = m₂)) ↔ cidr.prefixLen ≤ 64 := by
 obtain ⟨hip, hmode⟩ := available_of_pick hcidr hmode hpick
 constructor
 · intro h
   by_contra hlong
   have hsize := size_le_of_lt hkind (Nat.lt_of_not_le hlong)
   have hfar : (eui64 0x800000000000#48).toNat = (eui64 0#48).toNat + 2 ^ 63 := by decide
   obtain ⟨a₁, -, ha₁, -, hin₁, -⟩ := h 0#48 0#48
   obtain ⟨a₂, -, ha₂, -, hin₂, -⟩ := h 0x800000000000#48 0#48
   obtain ⟨b₁, hb₁, hk₁, hv₁⟩ := allocated_eq text 0#48 hkind hip hmode
   obtain ⟨b₂, hb₂, hk₂, hv₂⟩ := allocated_eq text 0x800000000000#48 hkind hip hmode
   cases ha₁.symm.trans hb₁
   cases ha₂.symm.trans hb₂
   rw [contains_iff_offset hkind hk₁] at hin₁
   rw [contains_iff_offset hkind hk₂] at hin₂
   omega
 · intro hle m₁ m₂
   obtain ⟨a₁, ha₁, hk₁, hv₁⟩ := allocated_eq text m₁ hkind hip hmode
   obtain ⟨a₂, ha₂, -, hv₂⟩ := allocated_eq text m₂ hkind hip hmode
   obtain ⟨hfirst, hsize⟩ := first_eq_of_le hkind hle
   refine ⟨a₁, a₂, ha₁, ha₂, ?_, ?_⟩
   · have hid := (eui64 m₁).isLt
     rw [contains_iff_offset hkind hk₁]
     omega
   rintro rfl
   apply eui64_injective
   apply BitVec.eq_of_toNat_eq
   omega

def slaacRange (cidr : Network) : IpRange where
 id := 1
 cidr := some cidr
 gateway := some cidr
 allocationMode := .slaacEui64

def slash64 : Network := ⟨⟨.v6, 0x20010db8 * 2 ^ 96, by decide⟩, 64, by decide⟩

def slash80 : Network := ⟨⟨.v6, 0x20010db8 * 2 ^ 96, by decide⟩, 80, by decide⟩

theorem slaac_addresses_slash64 :
  ∃ available, pickIpFromRange plainText { db := {} } (slaacRange slash64) 0 = some available ∧
   ∀ m₁ m₂ : BitVec 48, ∃ a₁ a₂, allocated plainText available m₁ = some a₁ ∧
    allocated plainText available m₂ = some a₂ ∧ slash64.contains a₁ = true ∧ (a₁ = a₂ → m₁ = m₂) := by
 have hpick : pickIpFromRange plainText { db := {} } (slaacRange slash64) 0 =
   some ⟨slash64, 1, .slaacEui64⟩ := rfl
 have hcidr : (slaacRange slash64).cidr = some slash64 := rfl
 exact ⟨_, hpick, (slaac_addresses_iff hcidr rfl rfl hpick).mpr (by decide)⟩

theorem slaac_address_outside :
  ∃ available a, pickIpFromRange plainText { db := {} } (slaacRange slash80) 0 = some available ∧
   allocated plainText available 0x525400123456#48 = some a ∧ slash80.contains a = false := by
 refine ⟨_, ⟨.v6, 0x20010db8 * 2 ^ 96 + 0x505400FFFE123456, by decide⟩, rfl, ?_, by decide +kernel⟩
 decide +kernel

end Slaac

end Lnvps
