import Lnvps.Firewall.Replies

/-! # The packet program -/

namespace Lnvps.Firewall

open Lpm List

structure Header where
 version : IpVersion
 flow : Flow
 proto : UInt8
 isFragment : Bool := false
 l4Off : Option Nat
 deriving DecidableEq

variable (f : Frame)

def ipHeader (offset : Nat) : IpVersion → Option Header
 | .v4 =>
  if f.holds offset 20 then
   let isFragment : Bool := f.word (offset + 6) % 8192 ≠ 0
   some {
    version := .v4
    flow := IpVersion.v4.flow f offset
    proto := f.byte (offset + 9)
    isFragment
    l4Off := if !isFragment && (f.byte offset).toNat % 16 * 4 = 20 then some (offset + 20) else none }
  else none
 | .v6 =>
  if f.holds offset 40 then
   some {
    version := .v6
    flow := IpVersion.v6.flow f offset
    proto := f.byte (offset + 6)
    l4Off := some (offset + 40) }
  else none

def outerIpv4 : Option (Header × Bool) := do
 let ip ← ipHeader f 14 .v4
 if ip.proto = PROTO_GRE ∧ ip.l4Off.isSome then
  if !f.holds 34 4 then none
  else
   let flags := f.byte 34
   if f.byte 35 &&& 0x07 = 0 ∧ flags &&& 0x40 = 0 then
    let inner := 38 + (if flags &&& 0x80 ≠ 0 then 4 else 0) + (if flags &&& 0x20 ≠ 0 then 4 else 0) +
     (if flags &&& 0x10 ≠ 0 then 4 else 0)
    if f.word 36 = 0x0800 then (ipHeader f inner .v4).map (·, false)
    else if f.word 36 = 0x86DD then (ipHeader f inner .v6).map (·, false)
    else some (ip, true)
   else some (ip, true)
 else some (ip, true)

def filtered : Option (Header × Bool) :=
 if !f.holds 0 14 then none
 else if f.word 12 = 0x0800 then outerIpv4 f
 else if f.word 12 = 0x86DD then (ipHeader f 14 .v6).map (·, true)
 else none

def fillL4 (ip : Header) : Option L4Meta :=
 let l4 : L4Meta := { proto := ip.proto, isFragment := ip.isFragment }
 match ip.l4Off with
 | none => some l4
 | some off =>
  if ip.proto = PROTO_TCP then
   if f.holds off 20 then
    some { l4 with
     isSyn := synFlag f off && !ackFlag f off
     dstPort := .ofNat (f.word (off + 2))
     hasPort := true }
   else none
  else if ip.proto = PROTO_UDP then
   if f.holds off 8 then
    some { l4 with
     dstPort := .ofNat (f.word (off + 2))
     hasPort := true
     isWgInit := f.word (off + 4) = 156 && f.holds (off + 8) 1 && f.byte (off + 8) = 1 }
   else none
  else some l4

inductive CidrKey
 | v4 (c : Cidr 32)
 | v6 (c : Cidr 128)
 deriving DecidableEq

def CidrKey.covers : CidrKey → Dst → Bool
 | v4 c, .v4 a => c.covers a
 | v6 c, .v6 a => c.covers a
 | _, _ => false

structure Blocks where
 applied : List CidrKey := []
 v4 : Trie 32 Unit := ∅
 v6 : Trie 128 Unit := ∅
 flag : Bool := false

namespace Blocks

variable (b : Blocks)

def set : CidrKey → Bool → Blocks
 | .v4 c, true => { b with v4 := b.v4.insert c () }
 | .v4 c, false => { b with v4 := b.v4.erase c }
 | .v6 c, true => { b with v6 := b.v6.insert c () }
 | .v6 c, false => { b with v6 := b.v6.erase c }

def apply (want : List CidrKey) : Blocks :=
 let b := (b.applied.filter (· ∉ want)).foldl (fun b k => b.set k false) b
 let b := want.foldl (fun b k => b.set k true) b
 { b with applied := want, flag := !want.isEmpty }

def blocked : Dst → Bool
 | .v4 a => b.flag && (b.v4.longest a).isSome
 | .v6 a => b.flag && (b.v6.longest a).isSome

end Blocks

structure Maps where
 scope : ScopeMaps
 blocks : Blocks := {}
 destMode : Dst → Flags := fun _ => 0#32
 srcRate : SrcRateConfig := ⟨0, 0, 0⟩
 srcState : Dst → Option SrcState := fun _ => none
 learnLeakPps : UInt32 := 0
 leak : Dst → LeakState := fun _ => {}
 openPorts : Dst → Service → Bool := fun _ _ => false
 verified : Dst → Option UInt64 := fun _ => none
 verifiedTtlNs : UInt64 := 0
 cookieSecrets : UInt64 × UInt64 := (0, 0)
 synProxyJump : IpVersion → Bool := fun _ => false
 (gateNs verifiedNs : UInt64 := 0)
 leakClock : LeakClock := ⟨0, 0, 0⟩

def IpVersion.icmpProto : IpVersion → UInt8
 | v4 => PROTO_ICMP
 | v6 => PROTO_ICMPV6

def Maps.srcVerified (m : Maps) (src : Dst) : Bool :=
 (m.verified src).any fun ts => m.verifiedTtlNs = 0 || m.verifiedNs - ts < m.verifiedTtlNs

inductive Mitigated
 | pass
 | drop
 | synProxy

def mitigate (m : Maps) (ip : Header) (l4 : L4Meta) (allowSynProxy : Bool) : Mitigated :=
 let dst := ip.flow.dst
 let flags := m.destMode dst
 if (srcGate m.srcRate (flags &&& SOURCE_BLOCK ≠ 0) m.gateNs (m.srcState ip.flow.src)).1 then .drop
 else if allowSynProxy && flags &&& SYN_PROXY ≠ 0 && l4.proto = PROTO_TCP && l4.hasPort &&
   m.openPorts dst ⟨l4.dstPort, PROTO_TCP⟩ && !m.srcVerified ip.flow.src then .synProxy
 else if flags &&& PORT_FILTER ≠ 0 then
  if l4.isFragment then .drop
  else
   let isOpen := m.openPorts dst ⟨l4.dstPort, l4.proto⟩
   match (destPolicy ip.version.icmpProto m.learnLeakPps m.leakClock isOpen l4 (m.leak dst)).1 with
   | .drop => .drop
   | _ => .pass
 else .pass

def account (icmpProto : UInt8) (l4 : L4Meta) (pktLen : Nat) (verdict : Action) (c : DestCounters) : DestCounters :=
 let c := { c with packets := addU64 c.packets 1, bytes := addU64 c.bytes pktLen }
 let c :=
  if l4.proto = PROTO_TCP then
   { c with
     tcpPackets := addU64 c.tcpPackets 1
     synPackets := if l4.isSyn then addU64 c.synPackets 1 else c.synPackets }
  else if l4.proto = PROTO_UDP then { c with udpPackets := addU64 c.udpPackets 1 }
  else if l4.proto = icmpProto then { c with icmpPackets := addU64 c.icmpPackets 1 }
  else c
 if verdict = .drop then { c with dropped := addU64 c.dropped 1 } else c

def verdicts (m : Maps) (f : Frame) (ip : Header) (l4 : L4Meta) (allowSynProxy : Bool) : Action × Action :=
 if m.blocks.blocked ip.flow.src then (.drop, .drop)
 else if m.destMode ip.flow.dst = 0#32 then (.pass, .pass)
 else
  match mitigate m ip l4 allowSynProxy with
  | .pass => (.pass, .pass)
  | .drop => (.drop, .drop)
  | .synProxy =>
   (if m.synProxyJump ip.version then (xdpSynProxy ip.version m.cookieSecrets.1 m.cookieSecrets.2 f).1.1 else .drop,
    .drop)

def xdpLnvps (m : Maps) (f : Frame) (c : Dst → DestCounters) : Action × (Dst → DestCounters) :=
 match filtered f with
 | none => (.pass, c)
 | some (ip, allowSynProxy) =>
  let dst := ip.flow.dst
  if m.scope.outOfScope dst then (.pass, c)
  else
   match fillL4 f ip with
   | none => (.pass, c)
   | some l4 =>
    let v := verdicts m f ip l4 allowSynProxy
    (v.1, Function.update c dst (account ip.version.icmpProto l4 f.wireLen v.2 (c dst)))

namespace Blocks

variable {b : Blocks} {k k' : CidrKey} {want : List CidrKey} {a : Dst}

def has (b : Blocks) : CidrKey → Bool
 | .v4 c => (b.v4.lookup c).isSome
 | .v6 c => (b.v6.lookup c).isSome

theorem has_set (h : k = k' ∨ b.has k = true) : (b.set k' true).has k = true := by
 by_cases hk : k = k'
 · subst hk
   cases k <;> simp [set, has]
 · replace h := h.resolve_left hk
   cases k <;> cases k' <;> simp_all [set, has, AList.lookup_insert_ne]

theorem has_sets (h : k ∈ want ∨ b.has k = true) : (want.foldl (fun b k => b.set k true) b).has k = true := by
 induction want generalizing b with
 | nil => exact h.resolve_left nofun
 | cons k' want ih =>
  rw [mem_cons, or_assoc, or_left_comm] at h
  exact ih (h.imp_right has_set)

theorem blocked_of_has (hflag : b.flag = true) (hk : b.has k = true) (ha : k.covers a = true) : b.blocked a = true := by
 cases k <;> cases a <;> simp only [CidrKey.covers, has, blocked, hflag, Bool.true_and, Bool.false_eq_true] at *
 · exact Trie.longest_isSome_iff.mpr ⟨_, ha, hk⟩
 · exact Trie.longest_isSome_iff.mpr ⟨_, ha, hk⟩

theorem blocked_apply (hk : k ∈ want) (ha : k.covers a = true) : (b.apply want).blocked a = true := by
 refine blocked_of_has ?_ (has_sets (.inl hk)) ha
 cases want with
 | nil => cases hk
 | cons => rfl

end Blocks

section Packet

variable {m : Maps} {f : Frame} {c : Dst → DestCounters} {ip : Header} {l4 : L4Meta} {allowSynProxy : Bool}

def L4Whole (f : Frame) (ip : Header) : Prop :=
 ∀ off ∈ ip.l4Off, (ip.proto = PROTO_TCP → off + 20 ≤ f.len) ∧ (ip.proto = PROTO_UDP → off + 8 ≤ f.len)

theorem fillL4_isSome_iff : (fillL4 f ip).isSome = true ↔ L4Whole f ip := by
 have hne : PROTO_TCP ≠ PROTO_UDP := by decide
 unfold fillL4 L4Whole
 cases ip.l4Off with
 | none => simp
 | some off =>
  by_cases htcp : ip.proto = PROTO_TCP
  · by_cases hlen : off + 20 ≤ f.len <;> simp [htcp, hne, hlen, Frame.holds]
  · by_cases hudp : ip.proto = PROTO_UDP
    · by_cases hlen : off + 8 ≤ f.len <;> simp [hudp, hne.symm, hlen, Frame.holds]
    · simp [htcp, hudp]

theorem xdpLnvps_eq (hf : filtered f = some (ip, allowSynProxy)) (hscope : m.scope.outOfScope ip.flow.dst = false) :
  xdpLnvps m f c = match fillL4 f ip with
   | none => (.pass, c)
   | some l4 =>
    ((verdicts m f ip l4 allowSynProxy).1, Function.update c ip.flow.dst
     (account ip.version.icmpProto l4 f.wireLen (verdicts m f ip l4 allowSynProxy).2 (c ip.flow.dst))) := by
 simp [xdpLnvps, hf, hscope]

theorem manual_block_drops_iff {b : Blocks} {want : List CidrKey} {k : CidrKey}
  (hf : filtered f = some (ip, allowSynProxy)) (hscope : m.scope.outOfScope ip.flow.dst = false)
  (hblocks : m.blocks = b.apply want) (hk : k ∈ want) (hcovers : k.covers ip.flow.src = true) :
  (xdpLnvps m f c).1 = .drop ↔ L4Whole f ip := by
 have hblocked : m.blocks.blocked ip.flow.src = true := by
  rw [hblocks]
  exact Blocks.blocked_apply hk hcovers
 rw [← fillL4_isSome_iff, xdpLnvps_eq hf hscope]
 cases fillL4 f ip with
 | none => simp
 | some l4 => simp [verdicts, hblocked]

def blockingMaps : Maps where
 scope := ⟨∅, ∅, false⟩
 blocks := ({} : Blocks).apply [.v4 (.host 0#32)]

def synHeader : Header := { version := .v4, flow := .v4 0#32 0#32, proto := PROTO_TCP, l4Off := some 34 }

theorem manual_block_drops_iff_whole : filtered synFrame = some (synHeader, true) ∧ L4Whole synFrame synHeader ∧
  (xdpLnvps blockingMaps synFrame fun _ => {}).1 = .drop := by
 have hf : filtered synFrame = some (synHeader, true) := by decide +kernel
 have hwhole : L4Whole synFrame synHeader := fillL4_isSome_iff.mp (by decide +kernel)
 exact ⟨hf, hwhole, (manual_block_drops_iff hf rfl rfl mem_cons_self (by decide)).mpr hwhole⟩

/-- A packet of a blocked source that ends behind its IP header gets through. -/
theorem blocked_source_passes : ∃ (m : Maps) (f : Frame) (ip : Header) (k : CidrKey),
  filtered f = some (ip, true) ∧ m.scope.outOfScope ip.flow.dst = false ∧
   m.blocks = ({} : Blocks).apply [k] ∧ k.covers ip.flow.src = true ∧ (xdpLnvps m f fun _ => {}).1 = .pass :=
 ⟨blockingMaps, { synFrame with len := 34 }, synHeader, .v4 (.host 0#32), by decide +kernel, rfl, rfl, by decide,
  by decide +kernel⟩

theorem xdpSynProxy_ne_pass (v : IpVersion) (cur prev : UInt64) : (xdpSynProxy v cur prev f).1.1 ≠ .pass := by
 unfold xdpSynProxy
 split_ifs with hholds
 · obtain ⟨hheader, htcp⟩ := Bool.and_eq_true_iff.mp hholds
   have htx (cookie : UInt32) : (txSynack v f cookie).1 = .tx := by
    rw [txSynack, (holds_of_whole htcp).1, hheader, htcp]
    rfl
   cases hproxy : trySynProxy cur prev (v.packet f) with
   | mk verdict marked =>
    cases verdict with
    | drop => exact nofun
    | tx cookie =>
     dsimp only
     rw [htx]
     exact nofun
 · exact nofun

theorem verdicts_cases : verdicts m f ip l4 allowSynProxy = (.pass, .pass) ∨
  (verdicts m f ip l4 allowSynProxy).1 ≠ .pass ∧ (verdicts m f ip l4 allowSynProxy).2 = .drop := by
 unfold verdicts
 by_cases hblocked : m.blocks.blocked ip.flow.src = true
 · rw [if_pos hblocked]
   exact .inr ⟨nofun, rfl⟩
 rw [if_neg hblocked]
 by_cases hnormal : m.destMode ip.flow.dst = 0#32
 · rw [if_pos hnormal]
   exact .inl rfl
 rw [if_neg hnormal]
 cases mitigate m ip l4 allowSynProxy with
 | pass => exact .inl rfl
 | drop => exact .inr ⟨nofun, rfl⟩
 | synProxy =>
  refine .inr ⟨?_, rfl⟩
  dsimp only
  split
  · exact xdpSynProxy_ne_pass _ _ _
  · exact nofun

structure DestCounters.Sound (c : DestCounters) : Prop where
 dropped : c.dropped ≤ c.packets
 syn : c.synPackets ≤ c.tcpPackets
 protocols : c.tcpPackets + c.udpPackets + c.icmpPackets ≤ c.packets

variable (icmpProto : UInt8) (pktLen : Nat) (v : Action)

theorem account_sound {c : DestCounters} (h : c.Sound) (hfits : c.packets + 1 < 2 ^ 64) :
  (account icmpProto l4 pktLen v c).Sound := by
 obtain ⟨hdropped, hsyn, hprotocols⟩ := h
 unfold account
 dsimp only
 split_ifs <;> constructor <;> dsimp only [addU64] <;> omega

@[simp] theorem account_packets (c : DestCounters) :
  (account icmpProto l4 pktLen v c).packets = addU64 c.packets 1 := by
 unfold account
 dsimp only
 split_ifs <;> rfl

theorem account_dropped (c : DestCounters) :
  (account icmpProto l4 pktLen v c).dropped = if v = .drop then addU64 c.dropped 1 else c.dropped := by
 unfold account
 dsimp only
 split_ifs <;> rfl

structure CountedOnce (passed : Bool) (c c' : DestCounters) : Prop where
 packets : c'.packets = addU64 c.packets 1
 dropped : c'.dropped = if passed then c.dropped else addU64 c.dropped 1
 sound : c.Sound → c.packets + 1 < 2 ^ 64 → c'.Sound

theorem xdpLnvps_counted (hf : filtered f = some (ip, allowSynProxy))
  (hscope : m.scope.outOfScope ip.flow.dst = false) (hl4 : (fillL4 f ip).isSome = true) :
  (∀ d ≠ ip.flow.dst, (xdpLnvps m f c).2 d = c d) ∧
   CountedOnce ((xdpLnvps m f c).1 = .pass) (c ip.flow.dst) ((xdpLnvps m f c).2 ip.flow.dst) := by
 obtain ⟨l4, hl4⟩ := Option.isSome_iff_exists.mp hl4
 rw [xdpLnvps_eq hf hscope, hl4]
 refine ⟨fun d hd => Function.update_of_ne hd _ _, ?_⟩
 dsimp only
 rw [Function.update_self]
 refine ⟨account_packets .., ?_, account_sound _ _ _⟩
 rw [account_dropped]
 obtain h | ⟨hpass, hdrop⟩ := @verdicts_cases m f ip l4 allowSynProxy
 · simp [h]
 · simp [hpass, hdrop]

theorem xdpLnvps_uncounted (h : ∀ ip allowSynProxy, filtered f = some (ip, allowSynProxy) →
  m.scope.outOfScope ip.flow.dst = false → (fillL4 f ip).isSome = false) : xdpLnvps m f c = (.pass, c) := by
 unfold xdpLnvps
 cases hf : filtered f with
 | none => rfl
 | some x =>
  obtain ⟨ip, allowSynProxy⟩ := x
  cases hscope : m.scope.outOfScope ip.flow.dst with
  | true => simp [hscope]
  | false =>
   have hnone := Option.isSome_eq_false_iff.mp (h ip allowSynProxy hf hscope)
   simp [hscope, Option.isNone_iff_eq_none.mp hnone]

end Packet

def countersAfter (c : Dst → DestCounters) (ps : List (Maps × Frame)) : Dst → DestCounters :=
 ps.foldl (fun c p => (xdpLnvps p.1 p.2 c).2) c

variable {c : Dst → DestCounters} {d : Dst} {c₀ c₁ : DestCounters}

theorem xdpLnvps_step (m : Maps) (f : Frame) :
  (xdpLnvps m f c).2 d = c d ∨ ∃ passed, CountedOnce passed (c d) ((xdpLnvps m f c).2 d) := by
 by_cases h : ∀ ip allowSynProxy, filtered f = some (ip, allowSynProxy) →
   m.scope.outOfScope ip.flow.dst = false → (fillL4 f ip).isSome = false
 · rw [xdpLnvps_uncounted h]
   exact .inl rfl
 push Not at h
 obtain ⟨ip, allowSynProxy, hf, hscope, hl4⟩ := h
 obtain ⟨hother, hcounted⟩ := xdpLnvps_counted (c := c) hf hscope (Bool.of_not_eq_false hl4)
 by_cases hd : d = ip.flow.dst
 · subst hd
   exact .inr ⟨_, hcounted⟩
 · exact .inl (hother d hd)

variable (ps : List (Maps × Frame))

structure Grown (c c' : DestCounters) (passed dropped : Nat) : Prop where
 packets : c'.packets = c.packets + (passed + dropped)
 dropped : c'.dropped = c.dropped + dropped

theorem countersAfter_grown (h : (c d).Sound) (hfits : (c d).packets + ps.length < 2 ^ 64) :
  (countersAfter c ps d).Sound ∧
   ∃ passed dropped, passed + dropped ≤ ps.length ∧ Grown (c d) (countersAfter c ps d) passed dropped := by
 induction ps generalizing c with
 | nil => exact ⟨h, 0, 0, Nat.le_refl _, rfl, rfl⟩
 | cons p ps ih =>
  rw [length_cons] at hfits
  rw [show countersAfter c (p :: ps) = countersAfter (xdpLnvps p.1 p.2 c).2 ps from rfl]
  obtain he | ⟨passes, hcounted⟩ := @xdpLnvps_step c d p.1 p.2
  · rw [← he] at h hfits ⊢
    obtain ⟨hsound, passed, dropped, hle, hgrown⟩ := ih h (by omega)
    exact ⟨hsound, passed, dropped, Nat.le_succ_of_le hle, hgrown⟩
  have hpackets : ((xdpLnvps p.1 p.2 c).2 d).packets = (c d).packets + 1 :=
   hcounted.packets.trans (Nat.mod_eq_of_lt (by omega))
  have hdropped : addU64 (c d).dropped 1 = (c d).dropped + 1 :=
   Nat.mod_eq_of_lt (lt_of_le_of_lt (Nat.succ_le_succ h.dropped) (by omega))
  obtain ⟨hsound, passed, dropped, hle, hgrown⟩ := ih (hcounted.sound h (by omega)) (by omega)
  have hall := hgrown.packets
  have hdrops := hgrown.dropped
  rw [hcounted.dropped, hdropped] at hdrops
  rw [hpackets] at hall
  refine ⟨hsound, ?_⟩
  cases passes with
  | true => exact ⟨passed + 1, dropped, by simp; omega, by omega, hdrops⟩
  | false =>
   exact ⟨passed, dropped + 1, by simp; omega, by omega, hdrops.trans (Nat.add_right_comm _ 1 dropped)⟩

def RatesAddUp (prev cur : DestCounters) (elapsedNs : Nat) : Prop :=
 let r := computeRates prev cur elapsedNs
 ∃ δ ≤ 1, r.pps = (r.passPps + r.dropPps + δ) % 2 ^ 64 ∧
  ((cur.packets - prev.packets) * 1000000000 / elapsedNs < 2 ^ 64 → r.pps = r.passPps + r.dropPps + δ)

theorem cut_add (a b δ : Nat) : (a + b + δ) % 2 ^ 64 = (a % 2 ^ 64 + b % 2 ^ 64 + δ) % 2 ^ 64 ∧
  (a + b + δ < 2 ^ 64 → (a + b + δ) % 2 ^ 64 = a % 2 ^ 64 + b % 2 ^ 64 + δ) := by
 refine ⟨by omega, fun hfits => ?_⟩
 rw [Nat.mod_eq_of_lt hfits, Nat.mod_eq_of_lt (show a < 2 ^ 64 by omega), Nat.mod_eq_of_lt (show b < 2 ^ 64 by omega)]

theorem computeRates_addUp {passed dropped : Nat} (elapsedNs : Nat) (h : c₀.Sound)
  (hgrown : Grown c₀ c₁ passed dropped) : RatesAddUp c₀ c₁ elapsedNs := by
 by_cases hzero : elapsedNs = 0
 · exact ⟨0, by omega, by simp [computeRates, hzero]⟩
 obtain ⟨hpackets, hdropped⟩ := hgrown
 have hle := h.dropped
 have hdelta : c₁.packets - c₀.packets = passed + dropped := by omega
 have hpass : c₁.packets - c₁.dropped - (c₀.packets - c₀.dropped) = passed := by omega
 have hdrop : c₁.dropped - c₀.dropped = dropped := by omega
 obtain ⟨δ, hδ, hdiv⟩ : ∃ δ ≤ 1, (passed * 1000000000 + dropped * 1000000000) / elapsedNs =
   passed * 1000000000 / elapsedNs + dropped * 1000000000 / elapsedNs + δ :=
  ⟨_, by split <;> decide, Nat.add_div (Nat.pos_of_ne_zero hzero)⟩
 simp only [RatesAddUp, computeRates, if_neg hzero, perSec, hdelta, hpass, hdrop, Nat.add_mul, hdiv]
 exact ⟨δ, hδ, cut_add _ _ δ⟩

/-- Every packet with headers that parse is counted once, and the rates of two snapshots add up. The counters wrap, and
the rates are cut, at 64 bits. -/
theorem packets_accounted :
  (∀ ps d, ps.length < 2 ^ 64 → (countersAfter (fun _ => {}) ps d).Sound) ∧
  (∀ m f c ip allowSynProxy, filtered f = some (ip, allowSynProxy) → m.scope.outOfScope ip.flow.dst = false →
   L4Whole f ip → (∀ d ≠ ip.flow.dst, (xdpLnvps m f c).2 d = c d) ∧
    CountedOnce ((xdpLnvps m f c).1 = .pass) (c ip.flow.dst) ((xdpLnvps m f c).2 ip.flow.dst)) ∧
  ∀ ps qs d elapsedNs, (ps ++ qs).length < 2 ^ 64 →
   RatesAddUp (countersAfter (fun _ => {}) ps d) (countersAfter (fun _ => {}) (ps ++ qs) d) elapsedNs := by
 have hstart (ps : List (Maps × Frame)) (d : Dst) (hfits : ps.length < 2 ^ 64) :=
  countersAfter_grown (c := fun _ => {}) (d := d) ps ⟨Nat.le_refl _, Nat.le_refl _, Nat.le_refl _⟩
   (by simpa using hfits)
 refine ⟨fun ps d hfits => (hstart ps d hfits).1,
  fun _ _ _ _ _ hf hscope hl4 => xdpLnvps_counted hf hscope (fillL4_isSome_iff.mpr hl4), ?_⟩
 intro ps qs d elapsedNs hfits
 rw [length_append] at hfits
 obtain ⟨hsound, passed₀, dropped₀, hle, hgrown₀⟩ := hstart ps d (by omega)
 have hpackets := hgrown₀.packets
 dsimp only at hpackets
 obtain ⟨-, passed, dropped, -, hgrown⟩ := countersAfter_grown qs hsound (by omega)
 have happend : countersAfter (fun _ => {}) (ps ++ qs) = countersAfter (countersAfter (fun _ => {}) ps) qs :=
  foldl_append
 rw [happend]
 exact computeRates_addUp elapsedNs hsound hgrown

end Lnvps.Firewall
