import Lnvps.IpSpace
import Lnvps.Lib.Loop

/-! # Carving, in exact numbers -/

namespace Lnvps.Carving

open Net Loop List Network

def pass (size blockEnd : Nat) (takenBounds : List (Nat × Nat)) (cur : Nat) : Pass Nat (Option Nat) :=
 if blockEnd < cur then .leave none
 else if 2 ^ 128 ≤ cur + (size - 1) then .leave none
 else if blockEnd < cur + (size - 1) then .leave none
 else
  match takenBounds.find? (boundsOverlap (cur, cur + (size - 1))) with
  | none => .leave (some cur)
  | some (_, te) =>
   if 2 ^ 128 ≤ te + 1 then .leave none
   else
    let after := te + 1
    let aligned := (after + size - 1) / size * size
    .again (if aligned ≤ cur then cur + size else aligned)

def allocateSubnet (rounds : Nat) (block : Network) (targetLen : Nat) (taken : List Network) :
  Option (Option Network) :=
 let maxBits := block.ip.kind.bits
 if targetLen < block.prefixLen ∨ maxBits < targetLen then some none
 else if 128 ≤ maxBits - targetLen then some none
 else
  let size := 2 ^ (maxBits - targetLen)
  let takenBounds := ((taken.filter fun t => t.ip.kind = block.ip.kind).map netBounds).insertionSort
   fun b b' => b.1 < b'.1 ∨ (b.1 = b'.1 ∧ b.2 ≤ b'.2)
  (run (pass size block.last takenBounds) rounds block.first).map fun found =>
   found.bind fun start => makeNet start targetLen block.ip.kind

section Walk

variable {size blockStart blockEnd cur next : Nat} {bounds : List (Nat × Nat)}

structure Slot (size blockStart blockEnd : Nat) (bounds : List (Nat × Nat)) (c : Nat) : Prop where
 aligned : size ∣ c
 start : blockStart ≤ c
 last : c + (size - 1) ≤ blockEnd
 free : ∀ b ∈ bounds, boundsOverlap (c, c + (size - 1)) b = false

structure Ahead (size blockStart blockEnd : Nat) (bounds : List (Nat × Nat)) (cur : Nat) : Prop where
 aligned : size ∣ cur
 start : blockStart ≤ cur
 le : ∀ c, Slot size blockStart blockEnd bounds c → cur ≤ c

def remaining (bounds : List (Nat × Nat)) (cur : Nat) : Nat := (bounds.filter fun b => cur ≤ b.2).length

theorem lt_roundUp (hpos : 0 < size) (te : Nat) : te < (te + 1 + size - 1) / size * size := by
 have hlt := Nat.lt_div_mul_add (a := te + 1 + size - 1) hpos
 omega

theorem roundUp_le {te c : Nat} (hpos : 0 < size) (hc : size ∣ c) (hlt : te < c) :
  (te + 1 + size - 1) / size * size ≤ c := by
 obtain ⟨k, rfl⟩ := hc
 rw [Nat.mul_comm size]
 refine Nat.mul_le_mul_right _ (Nat.le_of_lt_succ ((Nat.div_lt_iff_lt_mul hpos).mpr ?_))
 rw [Nat.succ_mul, Nat.mul_comm k]
 omega

theorem pass_again (hpos : 0 < size) (h : pass size blockEnd bounds cur = .again next) :
  ∃ b ∈ bounds, cur ≤ b.2 ∧ b.1 ≤ cur + (size - 1) ∧ next = (b.2 + 1 + size - 1) / size * size := by
 unfold pass at h
 split at h
 · cases h
 split at h
 · cases h
 split at h
 · cases h
 split at h
 · cases h
 rename_i ts te hfind
 split at h
 · cases h
 have hover := find?_some hfind
 simp only [boundsOverlap, decide_eq_true_eq] at hover
 have hup := lt_roundUp hpos te
 dsimp only at h
 rw [if_neg (by omega), Pass.again.injEq] at h
 exact ⟨_, mem_of_find?_eq_some hfind, hover.1, hover.2, h.symm⟩

theorem Slot.lt_of_meets {b : Nat × Nat} {c : Nat} (hc : Slot size blockStart blockEnd bounds c) (hb : b ∈ bounds)
  (hmeets : b.1 ≤ cur + (size - 1)) (hle : cur ≤ c) : b.2 < c := by
 have hfree := of_decide_eq_false (hc.free b hb)
 simp only at hfree
 omega

theorem Ahead.again (hpos : 0 < size) (h : Ahead size blockStart blockEnd bounds cur)
  (hpass : pass size blockEnd bounds cur = .again next) :
  Ahead size blockStart blockEnd bounds next ∧ remaining bounds next < remaining bounds cur := by
 obtain ⟨b, hb, hcur, hmeets, rfl⟩ := pass_again hpos hpass
 have hup := lt_roundUp hpos b.2
 have hstart := h.start
 refine ⟨⟨Nat.dvd_mul_left _ _, by omega, fun c hc => ?_⟩, ?_⟩
 · exact roundUp_le hpos hc.aligned (hc.lt_of_meets hb hmeets (h.le c hc))
 have hsub : bounds.filter (fun b' => (b.2 + 1 + size - 1) / size * size ≤ b'.2) =
   (bounds.filter fun b' => cur ≤ b'.2).filter fun b' => (b.2 + 1 + size - 1) / size * size ≤ b'.2 := by
  rw [filter_filter]
  refine filter_congr fun b' _ => ?_
  rw [← Bool.decide_and]
  exact decide_eq_decide.mpr ⟨fun h => ⟨h, by omega⟩, fun h => h.1⟩
 unfold remaining
 rw [hsub]
 refine length_filter_lt_length_iff_exists.mpr ⟨b, mem_filter.mpr ⟨hb, decide_eq_true hcur⟩, ?_⟩
 rw [decide_eq_true_eq]
 omega

def Lowest (size blockStart blockEnd : Nat) (bounds : List (Nat × Nat)) : Option Nat → Prop
 | some c => Slot size blockStart blockEnd bounds c ∧ ∀ c', Slot size blockStart blockEnd bounds c' → c ≤ c'
 | none => ∀ c, ¬Slot size blockStart blockEnd bounds c

theorem Ahead.leave {found : Option Nat} (hend : blockEnd < 2 ^ 128)
  (h : Ahead size blockStart blockEnd bounds cur) (hpass : pass size blockEnd bounds cur = .leave found) :
  Lowest size blockStart blockEnd bounds found := by
 have hbehind : blockEnd < cur + (size - 1) → ∀ c, ¬Slot size blockStart blockEnd bounds c := by
  intro hlt c hc
  have hle := h.le c hc
  have hlast := hc.last
  omega
 unfold pass at hpass
 split at hpass
 · cases hpass
   exact hbehind (by omega)
 split at hpass
 · cases hpass
   exact hbehind (by omega)
 split at hpass
 · cases hpass
   exact hbehind (by omega)
 rename_i hlast
 split at hpass
 · rename_i hfind
   cases hpass
   refine ⟨⟨h.aligned, h.start, by omega, fun b hb => ?_⟩, h.le⟩
   simpa using find?_eq_none.mp hfind b hb
 rename_i ts te hfind
 split at hpass
 · cases hpass
   intro c hc
   have hover := find?_some hfind
   simp only [boundsOverlap, decide_eq_true_eq] at hover
   have hbehind := hc.lt_of_meets (mem_of_find?_eq_some hfind) hover.2 (h.le c hc)
   have hclast := hc.last
   simp only at hbehind
   omega
 · cases hpass

theorem run_pass (bounds : List (Nat × Nat)) (hpos : 0 < size) (hend : blockEnd < 2 ^ 128)
  (hstart : size ∣ blockStart) :
  ∃ found, (∀ rounds > bounds.length, run (pass size blockEnd bounds) rounds blockStart = some found) ∧
   Lowest size blockStart blockEnd bounds found := by
 obtain ⟨found, hrun, hlowest⟩ := run_of_variant (pass size blockEnd bounds)
  (Ahead size blockStart blockEnd bounds) (remaining bounds) (Lowest size blockStart blockEnd bounds)
  (fun _ _ h => h.again hpos) (fun _ _ h => h.leave hend) ⟨hstart, le_refl _, fun c hc => hc.start⟩
 refine ⟨found, fun rounds hrounds => hrun rounds ?_, hlowest⟩
 exact Nat.lt_of_le_of_lt (length_filter_le _ _) hrounds

end Walk

structure Fits (block : Network) (targetLen : Nat) (taken : List Network) (n : Network) : Prop where
 prefixLen : n.prefixLen = targetLen
 aligned : n.ip.value = n.first
 within : Network.Within n block
 disjoint : ∀ t ∈ taken, t.ip.kind = n.ip.kind → Network.Disjoint n t

def boundsOf (kind : Kind) (taken : List Network) : List (Nat × Nat) :=
 ((taken.filter fun t => t.ip.kind = kind).map netBounds).insertionSort
  fun b b' => b.1 < b'.1 ∨ (b.1 = b'.1 ∧ b.2 ≤ b'.2)

section Networks

variable {block n : Network} {targetLen : Nat} {taken : List Network}

theorem mem_boundsOf {kind : Kind} {b : Nat × Nat} :
  b ∈ boundsOf kind taken ↔ ∃ t ∈ taken, t.ip.kind = kind ∧ netBounds t = b := by
 unfold boundsOf
 rw [mem_insertionSort, mem_map]
 simp only [mem_filter, decide_eq_true_eq, and_assoc]

theorem length_boundsOf_le (kind : Kind) (taken : List Network) : (boundsOf kind taken).length ≤ taken.length := by
 unfold boundsOf
 rw [length_insertionSort, length_map]
 exact length_filter_le _ _

theorem first_add (n : Network) : n.first + (n.size - 1) = n.last := by
 have hpos := n.size_pos
 unfold last
 omega

theorem boundsOverlap_of_disjoint {t : Network} (hkind : t.ip.kind = n.ip.kind) (h : Network.Disjoint n t) :
  boundsOverlap (netBounds n) (netBounds t) = false := by
 refine decide_eq_false fun ⟨h1, h2⟩ => ?_
 simp only [netBounds] at h1 h2
 have hn : n.first ≤ n.last := first_le_last
 have ht : t.first ≤ t.last := first_le_last
 have hbit : n.last < 2 ^ n.ip.kind.bits := last_lt
 have hin : n.contains ⟨n.ip.kind, max n.first t.first, by omega⟩ = true :=
  contains_iff_bounds.mpr ⟨rfl, by simp only; omega, by simp only; omega⟩
 have hout := h _ hin
 have hin' : t.contains ⟨n.ip.kind, max n.first t.first, by omega⟩ = true :=
  contains_iff_bounds.mpr ⟨hkind.symm, by simp only; omega, by simp only; omega⟩
 rw [hout] at hin'
 exact Bool.false_ne_true hin'

theorem fits_iff_slot (hkind : n.ip.kind = block.ip.kind) (hlen : n.prefixLen = targetLen)
  (haligned : n.ip.value = n.first) : Fits block targetLen taken n ↔
   Slot n.size block.first block.last (boundsOf block.ip.kind taken) n.first := by
 constructor
 · intro h
   obtain ⟨-, hfirst, hlast⟩ := h.within.bounds
   refine ⟨Nat.dvd_mul_left _ _, hfirst, by rw [first_add]; exact hlast, fun b hb => ?_⟩
   obtain ⟨t, ht, hk, rfl⟩ := mem_boundsOf.mp hb
   rw [first_add]
   exact boundsOverlap_of_disjoint (hk.trans hkind.symm) (h.disjoint t ht (hk.trans hkind.symm))
 · intro h
   refine ⟨hlen, haligned, within_of_le hkind h.start ?_, fun t ht hk => ?_⟩
   · rw [← first_add]
     exact h.last
   · have hfree := h.free _ (mem_boundsOf.mpr ⟨t, ht, hk.trans hkind, rfl⟩)
     rw [first_add] at hfree
     exact boundsOverlap_eq_false hfree

theorem makeNet_of_dvd {start : Nat} {kind : Kind} (hlen : targetLen ≤ kind.bits) (hstart : start < 2 ^ kind.bits)
  (hdvd : 2 ^ (kind.bits - targetLen) ∣ start) : ∃ n, makeNet start targetLen kind = some n ∧
   n.ip.kind = kind ∧ n.prefixLen = targetLen ∧ n.ip.value = start ∧ n.first = start := by
 obtain ⟨n, hn⟩ : ∃ n, makeNet start targetLen kind = some n := by
  unfold makeNet new?
  rw [dif_pos hlen]
  exact ⟨_, rfl⟩
 obtain ⟨hkind, hvalue, hpre⟩ := makeNet_eq_some hstart hn
 refine ⟨n, hn, hkind, hpre, hvalue, ?_⟩
 unfold first size
 rw [hkind, hpre, hvalue, Nat.div_mul_cancel hdvd]

theorem allocateSubnet_lowest (taken : List Network) (hlow : block.prefixLen ≤ targetLen)
  (hhigh : targetLen ≤ block.ip.kind.bits) (hsize : block.ip.kind.bits - targetLen < 128) :
  ∃ result, (∀ rounds > taken.length, allocateSubnet rounds block targetLen taken = some result) ∧
   (∀ n, result = some n → Fits block targetLen taken n ∧ ∀ m, Fits block targetLen taken m → n.first ≤ m.first) ∧
   (result = none → ∀ m, ¬Fits block targetLen taken m) := by
 have hdvd : 2 ^ (block.ip.kind.bits - targetLen) ∣ block.first :=
  (Nat.pow_dvd_pow 2 (by omega)).trans (Nat.dvd_mul_left block.size _)
 have hlast : block.last < 2 ^ block.ip.kind.bits := last_lt
 have hbits : 2 ^ block.ip.kind.bits ≤ 2 ^ 128 := by cases block.ip.kind <;> decide
 obtain ⟨found, hrun, hlowest⟩ := run_pass (boundsOf block.ip.kind taken)
  (Nat.two_pow_pos (block.ip.kind.bits - targetLen)) (Nat.lt_of_lt_of_le hlast hbits) hdvd
 have hslot : ∀ m, Fits block targetLen taken m → Slot (2 ^ (block.ip.kind.bits - targetLen)) block.first block.last
   (boundsOf block.ip.kind taken) m.first := by
  intro m hm
  have hkind := hm.within.bounds.1
  have hslot := (fits_iff_slot hkind hm.prefixLen hm.aligned).mp hm
  unfold size at hslot
  rwa [hkind, hm.prefixLen] at hslot
 refine ⟨found.bind fun start => makeNet start targetLen block.ip.kind, fun rounds hrounds => ?_, ?_, ?_⟩
 · unfold allocateSubnet
   rw [if_neg (by omega), if_neg (by omega)]
   have hended := hrun rounds (Nat.lt_of_le_of_lt (length_boundsOf_le _ _) hrounds)
   unfold boundsOf at hended
   dsimp only
   rw [hended]
   rfl
 · intro n hn
   cases found with
   | none => cases hn
   | some start =>
    obtain ⟨hfound, hleast⟩ := hlowest
    have hstart := hfound.last
    obtain ⟨n', hmake, hkind, hpre, hvalue, hfirst⟩ := makeNet_of_dvd hhigh (by omega) hfound.aligned
    obtain rfl : n' = n := Option.some.inj (hmake.symm.trans hn)
    refine ⟨(fits_iff_slot hkind hpre (hvalue.trans hfirst.symm)).mpr ?_, fun m hm => ?_⟩
    · unfold size
      rw [hkind, hpre, hfirst]
      exact hfound
    · rw [hfirst]
      exact hleast _ (hslot m hm)
 · intro hnone m hm
   cases found with
   | none => exact hlowest _ (hslot m hm)
   | some start =>
    have hstart := hlowest.1.last
    obtain ⟨n', hmake, -⟩ := makeNet_of_dvd hhigh (by omega) hlowest.1.aligned
    exact absurd (hmake.symm.trans hnone) (Option.some_ne_none _)

def allV6 : Network := ⟨⟨.v6, 0, by decide⟩, 0, Nat.zero_le _⟩

theorem fits_allV6_iff (taken : List Network) (hkind : block.ip.kind = .v6) (hlen : block.prefixLen = 0) :
  (∃ n, Fits block 0 taken n) ↔ ∀ t ∈ taken, t.ip.kind ≠ .v6 := by
 constructor
 · rintro ⟨n, hn⟩ t ht hk
   have hnkind := hn.within.bounds.1.trans hkind
   have hmeet := boundsOverlap_of_disjoint (hk.trans hnkind.symm) (hn.disjoint t ht (hk.trans hnkind.symm))
   have hsize : n.size = 2 ^ 128 := by
    unfold size
    rw [hnkind, hn.prefixLen]
    rfl
   have hn128 : n.first + n.size ≤ 2 ^ 128 := by
    have hle := n.first_add_size_le
    rwa [hnkind] at hle
   have htlast : t.last < 2 ^ 128 := by
    have hlt := last_lt (n := t)
    rwa [hk] at hlt
   have htle : t.first ≤ t.last := first_le_last
   have hnlast := first_add n
   refine of_decide_eq_false hmeet ⟨?_, ?_⟩ <;> simp only [netBounds] <;> omega
 · intro hnone
   refine ⟨allV6, rfl, by decide, ?_, fun t ht hk => absurd hk (hnone t ht)⟩
   have hblock : block.size = 2 ^ 128 := by
    unfold size
    rw [hkind, hlen]
    rfl
   have hfirst : block.first + block.size ≤ 2 ^ 128 := by
    have hle := block.first_add_size_le
    rwa [hkind] at hle
   have hlast := first_add block
   refine within_of_le hkind.symm ?_ ?_
   · have hzero : allV6.first = 0 := by decide
     omega
   · have htop : allV6.last = 2 ^ 128 - 1 := by decide
     omega

end Networks

theorem carving_iff (block : Network) (targetLen : Nat) (taken : List Network) (hlow : block.prefixLen ≤ targetLen)
  (hhigh : targetLen ≤ block.ip.kind.bits) :
  ∃ result, (∀ rounds > taken.length, allocateSubnet rounds block targetLen taken = some result) ∧
   (∀ n, result = some n → Fits block targetLen taken n ∧ ∀ m, Fits block targetLen taken m → n.first ≤ m.first) ∧
   ((result = none → ∀ m, ¬Fits block targetLen taken m) ↔
    ¬(block.ip.kind = .v6 ∧ targetLen = 0 ∧ ∀ t ∈ taken, t.ip.kind ≠ .v6)) := by
 by_cases hsize : block.ip.kind.bits - targetLen < 128
 · obtain ⟨result, hrun, hsome, hnone⟩ := allocateSubnet_lowest taken hlow hhigh hsize
   refine ⟨result, hrun, hsome, fun _ => ?_, fun _ => hnone⟩
   rintro ⟨hkind, rfl, -⟩
   rw [hkind] at hsize
   exact absurd hsize (by decide)
 · have hbits : block.ip.kind.bits ≤ 128 := by cases block.ip.kind <;> decide
   obtain rfl : targetLen = 0 := by omega
   have hkind : block.ip.kind = .v6 := by
    cases hk : block.ip.kind with
    | v4 =>
     rw [hk] at hsize
     exact absurd (by decide) hsize
    | v6 => rfl
   refine ⟨none, fun rounds _ => ?_, fun _ h => (Option.some_ne_none _ h.symm).elim, ?_⟩
   · unfold allocateSubnet
     rw [if_neg (by omega), if_pos (by omega)]
   have hfits := fits_allV6_iff taken hkind (Nat.le_zero.mp hlow)
   constructor
   · rintro hnone ⟨-, -, hfree⟩
     obtain ⟨n, hn⟩ := hfits.mpr hfree
     exact hnone rfl n hn
   · intro hnot _ m hm
     exact hnot ⟨hkind, rfl, hfits.mp ⟨m, hm⟩⟩

def testBlock : Network := ⟨⟨.v4, 3221225984, by decide⟩, 24, by decide⟩

/-- `192.0.2.0/25` is taken, `192.0.2.130/32` too, and all IPv6 addresses: the lowest /26 is `192.0.2.192/26`. -/
theorem carving_iff_jump : ∃ n, n.first = 3221225984 + 192 ∧
    Fits testBlock 26 [⟨⟨.v4, 3221225984, by decide⟩, 25, by decide⟩, allV6,
      ⟨⟨.v4, 3221225984 + 130, by decide⟩, 32, by decide⟩] n := by
  obtain ⟨result, hrun, hsome, -⟩ := carving_iff testBlock 26 [⟨⟨.v4, 3221225984, by decide⟩, 25, by decide⟩, allV6,
    ⟨⟨.v4, 3221225984 + 130, by decide⟩, 32, by decide⟩] (by decide) (by decide)
  have hresult := (hrun 4 (by decide)).symm.trans (show allocateSubnet 4 testBlock 26 _ =
    some (some ⟨⟨.v4, 3221225984 + 192, by decide⟩, 26, by decide⟩) from by decide +kernel)
  exact ⟨_, by decide, (hsome _ (Option.some.inj hresult)).1⟩

/-- All IPv6 addresses are free, but as a whole they cannot be had. -/
theorem all_v6_refused : (∀ rounds, allocateSubnet rounds allV6 0 [] = some none) ∧ Fits allV6 0 [] allV6 :=
 ⟨fun _ => rfl, rfl, by decide, fun _ h => h, fun _ ht => absurd ht List.not_mem_nil⟩

def met (size blockEnd : Nat) (bounds : List (Nat × Nat)) (cur : Nat) : Option (Nat × Nat) :=
 if cur + (size - 1) ≤ blockEnd then bounds.find? (boundsOverlap (cur, cur + (size - 1))) else none

def NoWrap (size blockEnd : Nat) (bounds : List (Nat × Nat)) (start : Nat) : Prop :=
 ∀ cur b, Reaches (pass size blockEnd bounds) start cur → met size blockEnd bounds cur = some b →
  2 ^ 128 ≤ b.2 + 1 ∨ b.2 + size < 2 ^ 128

section Machine

variable {size blockStart blockEnd cur : Nat} {bounds : List (Nat × Nat)} {b : Nat × Nat}

theorem mem_of_met (h : met size blockEnd bounds cur = some b) : b ∈ bounds ∧ b.1 ≤ cur + (size - 1) ∧ cur ≤ b.2 := by
 unfold met at h
 split at h
 · have hover := find?_some h
   simp only [boundsOverlap, decide_eq_true_eq] at hover
   exact ⟨mem_of_find?_eq_some h, hover.2, hover.1⟩
 · cases h

theorem searchSubnet_eq (hpos : 0 < size) (hroom : NoWrap size blockEnd bounds cur) (rounds : Nat) :
  searchSubnet size blockEnd bounds rounds cur = (run (pass size blockEnd bounds) rounds cur).join := by
 induction rounds generalizing cur with
 | zero => rfl
 | succ rounds ih =>
  rw [searchSubnet, run]
  by_cases hstart : blockEnd < cur
  · rw [pass, if_pos hstart, if_pos hstart]
    rfl
  by_cases hwrap : 2 ^ 128 ≤ cur + (size - 1)
  · rw [pass, if_neg hstart, if_pos hwrap, if_neg hstart, if_pos hwrap]
    rfl
  by_cases hend : blockEnd < cur + (size - 1)
  · rw [pass, if_neg hstart, if_neg hwrap, if_pos hend, if_neg hstart, if_neg hwrap, if_pos hend]
    rfl
  rw [if_neg hstart, if_neg hwrap, if_neg hend]
  cases hfind : bounds.find? (boundsOverlap (cur, cur + (size - 1))) with
  | none =>
   rw [pass, if_neg hstart, if_neg hwrap, if_neg hend, hfind]
   rfl
  | some b =>
   have hmet : met size blockEnd bounds cur = some b := by
    rw [met, if_pos (Nat.le_of_not_lt hend), hfind]
   have hcur := (mem_of_met hmet).2.2
   by_cases htop : 2 ^ 128 ≤ b.2 + 1
   · rw [pass, if_neg hstart, if_neg hwrap, if_neg hend, hfind]
     simp only [if_pos htop]
     rfl
   have hlt : b.2 + size < 2 ^ 128 := (hroom cur b .refl hmet).resolve_left htop
   have hup := lt_roundUp hpos b.2
   have hsum : b.2 + 1 + size - 1 = b.2 + size := by omega
   have hpass : pass size blockEnd bounds cur = .again ((b.2 + 1 + size - 1) / size * size) := by
    rw [pass, if_neg hstart, if_neg hwrap, if_neg hend, hfind]
    simp only [if_neg htop, if_neg (show ¬ (b.2 + 1 + size - 1) / size * size ≤ cur by omega)]
   rw [hsum] at hpass hup
   simp only [hpass, if_neg htop, Nat.mod_eq_of_lt hlt, if_neg (show ¬ (b.2 + size) / size * size ≤ cur by omega)]
   exact ih fun cur' b' hreach => hroom cur' b' (.head hpass hreach)

theorem Ahead.reaches (hpos : 0 < size) {start : Nat} (h : Ahead size blockStart blockEnd bounds start)
  (hreach : Reaches (pass size blockEnd bounds) start cur) : Ahead size blockStart blockEnd bounds cur := by
 induction hreach with
 | refl => exact h
 | tail _ hstep ih => exact (ih.again hpos hstep).1

theorem noWrap_of_slot {start c : Nat} (hpos : 0 < size) (hend : blockEnd < 2 ^ 128)
  (h : Ahead size blockStart blockEnd bounds start) (hslot : Slot size blockStart blockEnd bounds c) :
  NoWrap size blockEnd bounds start := by
 intro cur b hreach hmet
 obtain ⟨hb, hmeets, -⟩ := mem_of_met hmet
 have hlt := hslot.lt_of_meets hb hmeets ((h.reaches hpos hreach).le c hslot)
 have hlast := hslot.last
 omega

end Machine

section Exact

variable {block : Network} {targetLen : Nat} {taken : List Network}

theorem allocateSubnet_of_noWrap (hlow : block.prefixLen ≤ targetLen) (hhigh : targetLen ≤ block.ip.kind.bits)
  (hroom : NoWrap (2 ^ (block.ip.kind.bits - targetLen)) block.last (boundsOf block.ip.kind taken) block.first)
  {rounds : Nat} (hrounds : taken.length < rounds) :
  allocateSubnet rounds block targetLen taken = some (Lnvps.allocateSubnet block targetLen taken) := by
 by_cases hsize : 128 ≤ block.ip.kind.bits - targetLen
 · simp [allocateSubnet, Lnvps.allocateSubnet, hsize]
 obtain ⟨result, hrun, -⟩ := allocateSubnet_lowest taken hlow hhigh (Nat.lt_of_not_le hsize)
 have hfuel := hrun (2 * taken.length + 2) (by omega)
 rw [hrun rounds hrounds, ← hfuel]
 have hlen : ¬(targetLen < block.prefixLen ∨ block.ip.kind.bits < targetLen) := by omega
 simp only [allocateSubnet, Lnvps.allocateSubnet, if_neg hlen, if_neg hsize] at hfuel ⊢
 have hsearch := searchSubnet_eq (Nat.two_pow_pos _) hroom (2 * taken.length + 2)
 unfold boundsOf at hsearch
 rw [hsearch]
 obtain ⟨found, hfound, -⟩ := Option.map_eq_some_iff.mp hfuel
 rw [hfound]
 rfl

theorem allocateSubnet_of_fits {n : Network} (hfits : Fits block targetLen taken n)
  (hsize : block.ip.kind.bits - targetLen < 128) :
  ∃ m, Lnvps.allocateSubnet block targetLen taken = some m ∧ Fits block targetLen taken m ∧
   ∀ m', Fits block targetLen taken m' → m.first ≤ m'.first := by
 obtain ⟨hkind, hfirst, hlast⟩ := hfits.within.bounds
 have hhigh : targetLen ≤ block.ip.kind.bits := by
  have hle := n.le
  rwa [hfits.prefixLen, hkind] at hle
 have hlow : block.prefixLen ≤ targetLen := by
  by_contra hlt
  have hpow : block.size < n.size := by
   unfold size
   rw [hkind, hfits.prefixLen]
   exact Nat.pow_lt_pow_right (by decide) (by have := block.le; omega)
  have hn := first_add n
  have hb := first_add block
  have hpos := block.size_pos
  omega
 have hslot := (fits_iff_slot hkind hfits.prefixLen hfits.aligned).mp hfits
 have hnsize : n.size = 2 ^ (block.ip.kind.bits - targetLen) := by
  unfold size
  rw [hkind, hfits.prefixLen]
 rw [hnsize] at hslot
 have hbits : 2 ^ block.ip.kind.bits ≤ 2 ^ 128 := by cases block.ip.kind <;> decide
 have hdvd : 2 ^ (block.ip.kind.bits - targetLen) ∣ block.first :=
  (Nat.pow_dvd_pow 2 (by omega)).trans (Nat.dvd_mul_left block.size _)
 have hroom := noWrap_of_slot (Nat.two_pow_pos _) (Nat.lt_of_lt_of_le last_lt hbits)
  ⟨hdvd, le_refl _, fun c hc => hc.start⟩ hslot
 obtain ⟨result, hrun, hsome, hnone⟩ := allocateSubnet_lowest taken hlow hhigh hsize
 have hexact := allocateSubnet_of_noWrap hlow hhigh hroom (Nat.lt_succ_self taken.length)
 have hresult := Option.some.inj ((hrun _ (Nat.lt_succ_self _)).symm.trans hexact)
 cases result with
 | none => exact absurd hfits (hnone rfl n)
 | some m => exact ⟨m, hresult.symm, hsome m rfl⟩

end Exact

end Lnvps.Carving
