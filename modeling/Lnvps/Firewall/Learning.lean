import Lnvps.Firewall.SourceGate

/-! # Learning leaks -/

namespace Lnvps.Firewall

open List

def PROTO_ICMP : UInt8 := 1
def PROTO_TCP : UInt8 := 6
def PROTO_UDP : UInt8 := 17
def PROTO_GRE : UInt8 := 47
def PROTO_ICMPV6 : UInt8 := 58

def LEARN_GRACE_NS : UInt64 := 3000000000
def LEARN_REPROBE_NS : UInt64 := 30000000000

structure L4Meta where
 proto : UInt8
 (isSyn isFragment : Bool := false)
 dstPort : UInt16 := 0
 (hasPort isWgInit : Bool := false)

structure Service where
 port : UInt16
 proto : UInt8
 deriving DecidableEq

structure LeakState where
 bucket : Option SrcState := none
 probe : Service → Option UInt64 := fun _ => none

structure LeakClock where
 (handshake leak budget : UInt64)

inductive PolicyVerdict
 | drop
 | service
 | icmp
 | handshake (grantedNs : UInt64)
 | probe (service : Service) (atNs cycleNs grantedNs : UInt64)
 deriving DecidableEq

def learnBudget (budget : UInt32) (now : UInt64) (bucket : Option SrcState) : Bool × Option SrcState :=
 if budget = 0 then (false, bucket)
 else
  match bucket with
  | some b =>
   let b := if now - b.windowStartNs ≥ 1000000000 then { b with windowStartNs := now, count := 0 } else b
   if b.count ≥ budget.toUInt64 then (false, some b) else (true, some { b with count := b.count + 1 })
  | none => (true, some { windowStartNs := now, count := 1 })

def probeCycle (now : UInt64) : Option UInt64 → Option UInt64
 | none => some now
 | some lastSeen =>
  if now - lastSeen < LEARN_GRACE_NS then some lastSeen
  else if now - lastSeen < LEARN_REPROBE_NS then none
  else some now

def learnLeak (budget : UInt32) (clock : LeakClock) (service : Service) (s : LeakState) : PolicyVerdict × LeakState :=
 match (if budget = 0 then none else probeCycle clock.leak (s.probe service)) with
 | none => (.drop, s)
 | some cycle =>
  let r := learnBudget budget clock.budget s.bucket
  if r.1 then
   (.probe service clock.leak cycle clock.budget,
    { bucket := r.2, probe := Function.update s.probe service (some cycle) })
  else (.drop, { s with bucket := r.2 })

def destPolicy (icmpProto : UInt8) (budget : UInt32) (clock : LeakClock) (isOpen : Bool) (l4 : L4Meta) (s : LeakState) :
  PolicyVerdict × LeakState :=
 if l4.proto = PROTO_TCP ∨ l4.proto = PROTO_UDP then
  if l4.hasPort && isOpen then (.service, s)
  else if l4.proto = PROTO_TCP then
   if l4.isSyn then learnLeak budget clock ⟨l4.dstPort, PROTO_TCP⟩ s else (.drop, s)
  else
   let r := if l4.isWgInit then learnBudget budget clock.handshake s.bucket else (false, s.bucket)
   if r.1 then (.handshake clock.handshake, { s with bucket := r.2 })
   else learnLeak budget clock ⟨l4.dstPort, PROTO_UDP⟩ { s with bucket := r.2 }
 else if l4.proto = icmpProto then (.icmp, s)
 else (.drop, s)

structure LeakPacket where
 l4 : L4Meta
 isOpen : Bool
 clock : LeakClock

variable (icmpProto : UInt8) (budget : UInt32)

def policyRun : LeakState → List LeakPacket → List PolicyVerdict
 | _, [] => []
 | s, p :: ps =>
  let r := destPolicy icmpProto budget p.clock p.isOpen p.l4 s
  r.1 :: policyRun r.2 ps

def Timely (last : UInt64) : List LeakPacket → Prop
 | [] => True
 | p :: ps => last ≤ p.clock.handshake ∧ p.clock.handshake ≤ p.clock.leak ∧ p.clock.leak ≤ p.clock.budget ∧
   Timely p.clock.budget ps

def PolicyVerdict.leaksIn (a : Nat) : PolicyVerdict → Bool
 | .handshake grantedNs | .probe _ _ _ grantedNs => a ≤ grantedNs.toNat ∧ grantedNs.toNat ≤ a + 1000000000
 | _ => false

def left (a : Nat) : Option SrcState → Nat
 | none => 2 * budget.toNat
 | some b =>
  let start := b.windowStartNs.toNat
  if a + 1000000000 < start then 0
  else if a < start then budget.toNat - b.count.toNat
  else if start = a ∨ a < start + 1000000000 then budget.toNat - b.count.toNat + budget.toNat
  else 2 * budget.toNat

def Before (now : UInt64) (bucket : Option SrcState) : Prop :=
 ∀ b ∈ bucket, b.windowStartNs ≤ now ∧ b.count.toNat ≤ budget.toNat

inductive Granted (now : UInt64) (bucket : Option SrcState) (b' : SrcState) : Prop
 | opened (hold : ∀ b ∈ bucket, b.windowStartNs.toNat + 1000000000 ≤ now.toNat) (hstart : b'.windowStartNs = now)
   (hcount : b'.count.toNat = 1)
 | spent {b : SrcState} (hb : bucket = some b) (hold : now.toNat < b.windowStartNs.toNat + 1000000000)
   (hstart : b'.windowStartNs = b.windowStartNs) (hcount : b'.count.toNat = b.count.toNat + 1)

variable {budget} {a : Nat} {now : UInt64} {bucket : Option SrcState}

theorem learnBudget_cases (h : Before budget now bucket) : learnBudget budget now bucket = (false, bucket) ∨
  ∃ b', learnBudget budget now bucket = (true, some b') ∧ Before budget now (some b') ∧ Granted now bucket b' := by
 unfold learnBudget
 by_cases hzero : budget = 0
 · exact .inl (if_pos hzero)
 have hpos : 0 < budget.toNat := by
  rw [← UInt32.toNat_inj] at hzero
  exact Nat.pos_of_ne_zero hzero
 rw [if_neg hzero]
 cases bucket with
 | none => exact .inr ⟨_, rfl, by simpa [Before] using Nat.succ_le_of_lt hpos, .opened nofun rfl rfl⟩
 | some b =>
  obtain ⟨hle, hcount⟩ := h b rfl
  have hsub := UInt64.toNat_sub_of_le _ _ hle
  have hle' := UInt64.le_iff_toNat_le.mp hle
  have hlt := budget.toNat_lt
  simp only [ge_iff_le, UInt64.le_iff_toNat_le, UInt32.toNat_toUInt64]
  by_cases hroll : (1000000000 : UInt64).toNat ≤ (now - b.windowStartNs).toNat
  · have hroll' : 1000000000 ≤ (now - b.windowStartNs).toNat := hroll
    rw [if_pos hroll, if_neg (by simpa using Nat.ne_of_gt hpos)]
    refine .inr ⟨_, rfl, ?_, .opened ?_ rfl rfl⟩
    · simpa [Before] using Nat.succ_le_of_lt hpos
    · rintro _ ⟨rfl⟩
      omega
  · have hroll' : ¬ 1000000000 ≤ (now - b.windowStartNs).toNat := hroll
    rw [if_neg hroll]
    split_ifs with hfull
    · exact .inl rfl
    have hadd : (b.count + 1).toNat = b.count.toNat + 1 := by
     rw [UInt64.toNat_add, UInt64.toNat_one, Nat.mod_eq_of_lt (by omega)]
    refine .inr ⟨_, rfl, ?_, .spent rfl (by omega) rfl hadd⟩
    simpa [Before, hadd, hle] using Nat.succ_le_of_lt (Nat.lt_of_not_le hfull)

theorem learnBudget_left (h : Before budget now bucket) :
  Before budget now (learnBudget budget now bucket).2 ∧
   left budget a (learnBudget budget now bucket).2 +
    (if (learnBudget budget now bucket).1 = true ∧ a ≤ now.toNat ∧ now.toNat ≤ a + 1000000000 then 1 else 0) ≤
     left budget a bucket := by
 obtain he | ⟨b', he, hbefore, hgranted⟩ := learnBudget_cases h <;> rw [he]
 · exact ⟨h, by simp⟩
 refine ⟨hbefore, ?_⟩
 obtain ⟨hle, hcount⟩ := hbefore b' rfl
 cases hgranted with
 | opened hold hstart hone =>
  cases bucket with
  | none =>
   simp only [left, hstart, hone, true_and]
   split_ifs <;> omega
  | some b =>
   have hold := hold b rfl
   have := (h b rfl).2
   simp only [left, hstart, hone, true_and]
   split_ifs <;> omega
 | spent hb hold hstart hsucc =>
  subst hb
  have := UInt64.le_iff_toNat_le.mp hle
  simp only [left, hstart, hsucc, true_and]
  rw [hsucc] at hcount
  rw [hstart] at this
  split_ifs <;> omega

section Run

variable {s : LeakState} {clock : LeakClock} {isOpen : Bool} {l4 : L4Meta} {k : Service} {last : UInt64}

theorem Before.mono {later : UInt64} (h : Before budget now bucket) (hle : now ≤ later) : Before budget later bucket :=
 fun b hb => ⟨UInt64.le_trans (h b hb).1 hle, (h b hb).2⟩

inductive Handled (budget : UInt32) (clock : LeakClock) (s : LeakState) : PolicyVerdict × LeakState → Prop
 | kept {v : PolicyVerdict} (hv : v = .drop ∨ v = .service ∨ v = .icmp) : Handled budget clock s (v, s)
 | handshake (h : (learnBudget budget clock.handshake s.bucket).1 = true) :
   Handled budget clock s
    (.handshake clock.handshake, { s with bucket := (learnBudget budget clock.handshake s.bucket).2 })
 | probed (k : Service) : Handled budget clock s (learnLeak budget clock k s)
 | refused (k : Service) : Handled budget clock s
   (learnLeak budget clock k { s with bucket := (learnBudget budget clock.handshake s.bucket).2 })

theorem destPolicy_handled : Handled budget clock s (destPolicy icmpProto budget clock isOpen l4 s) := by
 unfold destPolicy
 cases hwg : l4.isWgInit with
 | true =>
  simp only [if_true]
  split_ifs with hproto hopen htcp hsyn hgranted hicmp
  exacts [.kept (by simp), .probed _, .kept (by simp), .handshake hgranted, .refused _, .kept (by simp),
   .kept (by simp)]
 | false =>
  simp only [Bool.false_eq_true, if_false]
  split_ifs with hproto hopen htcp hsyn hicmp
  exacts [.kept (by simp), .probed _, .kept (by simp), .probed _, .kept (by simp), .kept (by simp)]

def Charged (budget : UInt32) (a : Nat) (now : UInt64) (bucket : Option SrcState) (r : PolicyVerdict × LeakState) :
  Prop :=
 Before budget now r.2.bucket ∧ left budget a r.2.bucket + (if r.1.leaksIn a then 1 else 0) ≤ left budget a bucket

theorem learnLeak_charged (h : Before budget clock.budget s.bucket) :
  Charged budget a clock.budget s.bucket (learnLeak budget clock k s) := by
 have hleft := @learnBudget_left budget a clock.budget s.bucket h
 unfold learnLeak
 split
 · exact ⟨h, by simp [PolicyVerdict.leaksIn]⟩
 · cases hr : (learnBudget budget clock.budget s.bucket).1 <;>
    simpa [Charged, PolicyVerdict.leaksIn, hr] using hleft

variable {r : PolicyVerdict × LeakState}

theorem Handled.charged (hr : Handled budget clock s r)
  (h : Before budget clock.handshake s.bucket) (hle : clock.handshake ≤ clock.budget) :
  Charged budget a clock.budget s.bucket r := by
 obtain ⟨hbefore, hleft⟩ := @learnBudget_left budget a clock.handshake s.bucket h
 cases hr with
 | kept hv => exact ⟨h.mono hle, by obtain rfl | rfl | rfl := hv <;> simp [PolicyVerdict.leaksIn]⟩
 | handshake hgranted => exact ⟨hbefore.mono hle, by simpa [PolicyVerdict.leaksIn, hgranted] using hleft⟩
 | probed k => exact learnLeak_charged (h.mono hle)
 | refused k =>
  obtain ⟨hbefore', hleft'⟩ := @learnLeak_charged budget a
   { s with bucket := (learnBudget budget clock.handshake s.bucket).2 } clock k (hbefore.mono hle)
  exact ⟨hbefore', Nat.le_trans hleft' (Nat.le_trans (Nat.le_add_right _ _) hleft)⟩

theorem policyRun_left (ps : List LeakPacket) (h : Before budget last s.bucket) (htime : Timely last ps) :
  (policyRun icmpProto budget s ps).countP (·.leaksIn a) ≤ left budget a s.bucket := by
 induction ps generalizing s last with
 | nil => exact Nat.zero_le _
 | cons p ps ih =>
  obtain ⟨hhandshake, hleak, hbudget, hrest⟩ := htime
  obtain ⟨hbefore, hleft⟩ :=
   (destPolicy_handled icmpProto).charged (h.mono hhandshake) (UInt64.le_trans hleak hbudget)
  rw [policyRun, countP_cons]
  exact Nat.le_trans (Nat.add_le_add_right (ih hbefore hrest) _) hleft

def PolicyVerdict.probeOf (k : Service) : PolicyVerdict → Option (UInt64 × UInt64)
 | .probe port atNs cycleNs _ => if port = k then some (atNs, cycleNs) else none
 | _ => none

structure InCycles (seen : Option UInt64) (probes : List (UInt64 × UInt64)) : Prop where
 grace : ∀ x ∈ probes, x.2 ≤ x.1 ∧ x.1.toNat < x.2.toNat + 3000000000
 starts : ∀ x ∈ probes, seen = some x.2 ∨ ∃ y ∈ probes, y.1 = x.2
 after : ∀ c ∈ seen, ∀ x ∈ probes, x.2 = c ∨ c.toNat + 30000000000 ≤ x.2.toNat
 apart : probes.Pairwise fun x y => y.2 = x.2 ∨ x.2.toNat + 30000000000 ≤ y.2.toNat

variable {seen : Option UInt64} {cycle : UInt64}

theorem probeCycle_eq_some (hseen : ∀ c ∈ seen, c ≤ now) (h : probeCycle now seen = some cycle) :
  seen = some cycle ∧ now.toNat < cycle.toNat + 3000000000 ∨
   cycle = now ∧ ∀ c ∈ seen, c.toNat + 30000000000 ≤ now.toNat := by
 cases seen with
 | none => exact .inr ⟨(Option.some.inj h).symm, nofun⟩
 | some c =>
  have hle := hseen c rfl
  have hsub := UInt64.toNat_sub_of_le _ _ hle
  have hle' := UInt64.le_iff_toNat_le.mp hle
  unfold probeCycle at h
  simp only [UInt64.lt_iff_toNat_lt] at h
  have hgrace : LEARN_GRACE_NS.toNat = 3000000000 := rfl
  have hreprobe : LEARN_REPROBE_NS.toNat = 30000000000 := rfl
  split_ifs at h with h3 h30
  · cases h
    exact .inl ⟨rfl, by omega⟩
  cases h
  refine .inr ⟨rfl, ?_⟩
  rintro _ ⟨rfl⟩
  omega

theorem probeCycle_le (hseen : ∀ c ∈ seen, c ≤ now) (h : probeCycle now seen = some cycle) : cycle ≤ now := by
 obtain ⟨rfl, -⟩ | ⟨rfl, -⟩ := probeCycle_eq_some hseen h
 · exact hseen _ rfl
 · exact UInt64.le_refl _

theorem InCycles.cons {probes : List (UInt64 × UInt64)}
  (hseen : ∀ c ∈ seen, c ≤ now) (hcycle : probeCycle now seen = some cycle) (h : InCycles (some cycle) probes) :
  InCycles seen ((now, cycle) :: probes) := by
 have hafter := h.after cycle rfl
 obtain ⟨rfl, hgrace⟩ | ⟨rfl, hold⟩ := probeCycle_eq_some hseen hcycle
 · refine ⟨forall_mem_cons.mpr ⟨⟨hseen _ rfl, hgrace⟩, h.grace⟩, forall_mem_cons.mpr ⟨.inl rfl, ?_⟩, ?_,
    pairwise_cons.mpr ⟨hafter, h.apart⟩⟩
   · intro x hx
     exact (h.starts x hx).imp_right fun ⟨y, hy, he⟩ => ⟨y, mem_cons_of_mem _ hy, he⟩
   · rintro _ ⟨rfl⟩
     exact forall_mem_cons.mpr ⟨.inl rfl, hafter⟩
 · refine ⟨forall_mem_cons.mpr ⟨⟨UInt64.le_refl _, Nat.lt_add_of_pos_right (by decide)⟩, h.grace⟩,
    forall_mem_cons.mpr ⟨.inr ⟨_, mem_cons_self, rfl⟩, ?_⟩, ?_, pairwise_cons.mpr ⟨hafter, h.apart⟩⟩
   · intro x hx
     obtain he | ⟨y, hy, he⟩ := h.starts x hx
     · exact .inr ⟨_, mem_cons_self, Option.some.inj he⟩
     · exact .inr ⟨y, mem_cons_of_mem _ hy, he⟩
   intro c hc
   have := hold c hc
   refine forall_mem_cons.mpr ⟨.inr this, fun x hx => .inr ?_⟩
   obtain he | he := hafter x hx
   · rw [he]
     exact this
   · omega

def Cycled (clock : LeakClock) (s : LeakState) (r : PolicyVerdict × LeakState) : Prop :=
 (∀ k, r.1.probeOf k = none) ∧ r.2.probe = s.probe ∨
  ∃ k cycle granted, r.1 = .probe k clock.leak cycle granted ∧ probeCycle clock.leak (s.probe k) = some cycle ∧
   r.2.probe = Function.update s.probe k (some cycle)

theorem learnLeak_cycled : Cycled clock s (learnLeak budget clock k s) := by
 unfold learnLeak
 split
 · exact .inl ⟨fun _ => rfl, rfl⟩
 next cycle hcycle =>
 dsimp only
 split_ifs at hcycle ⊢
 · exact .inr ⟨k, cycle, _, rfl, hcycle, rfl⟩
 · exact .inl ⟨fun _ => rfl, rfl⟩

theorem Handled.cycled (hr : Handled budget clock s r) : Cycled clock s r := by
 cases hr with
 | kept hv => exact .inl ⟨fun k => by obtain rfl | rfl | rfl := hv <;> rfl, rfl⟩
 | handshake => exact .inl ⟨fun _ => rfl, rfl⟩
 | probed k => exact learnLeak_cycled
 | refused k => exact learnLeak_cycled

theorem policyRun_inCycles (ps : List LeakPacket) (h : ∀ c ∈ s.probe k, c ≤ last) (htime : Timely last ps) :
  InCycles (s.probe k) ((policyRun icmpProto budget s ps).filterMap (·.probeOf k)) := by
 induction ps generalizing s last with
 | nil => exact ⟨nofun, nofun, fun _ _ => nofun, .nil⟩
 | cons p ps ih =>
  obtain ⟨hhandshake, hleak, hbudget, hrest⟩ := htime
  have hlast : last ≤ p.clock.leak := UInt64.le_trans hhandshake hleak
  have hnow (c : UInt64) (hc : c ∈ s.probe k) : c ≤ p.clock.budget :=
   UInt64.le_trans (UInt64.le_trans (h c hc) hlast) hbudget
  rw [policyRun]
  obtain ⟨hnone, hkept⟩ | ⟨k', cycle, granted, hprobe, hcycle, hupdate⟩ :=
   (@destPolicy_handled icmpProto budget s p.clock p.isOpen p.l4).cycled
  · rw [filterMap_cons_none (hnone k), ← hkept]
    exact ih (by rwa [hkept]) hrest
  by_cases hk : k' = k
  · subst hk
    have hof : (destPolicy icmpProto budget p.clock p.isOpen p.l4 s).1.probeOf k' = some (p.clock.leak, cycle) := by
     rw [hprobe]
     exact if_pos rfl
    have hseen : (destPolicy icmpProto budget p.clock p.isOpen p.l4 s).2.probe k' = some cycle := by
     rw [hupdate, Function.update_self]
    have hcycleLe : cycle ≤ p.clock.leak := probeCycle_le (fun c hc => UInt64.le_trans (h c hc) hlast) hcycle
    rw [filterMap_cons_some hof]
    refine .cons (fun c hc => UInt64.le_trans (h c hc) hlast) hcycle (hseen ▸ ih ?_ hrest)
    rw [hseen]
    rintro _ ⟨rfl⟩
    exact UInt64.le_trans hcycleLe hbudget
  · have hof : (destPolicy icmpProto budget p.clock p.isOpen p.l4 s).1.probeOf k = none := by
     rw [hprobe]
     exact if_neg hk
    have hkept : (destPolicy icmpProto budget p.clock p.isOpen p.l4 s).2.probe k = s.probe k := by
     rw [hupdate, Function.update_of_ne (.symm hk)]
    rw [filterMap_cons_none hof, ← hkept]
    exact ih (by rwa [hkept]) hrest

/-- Twice the budget leaks in a second, and a port is probed for three seconds of every thirty. -/
theorem learning_within_budget (ps : List LeakPacket) (htime : Timely 0 ps) :
  (∀ a, (policyRun icmpProto budget {} ps).countP (·.leaksIn a) ≤ 2 * budget.toNat) ∧
   ∀ k, InCycles none ((policyRun icmpProto budget {} ps).filterMap (·.probeOf k)) :=
 ⟨fun _ => policyRun_left icmpProto ps nofun htime,
  fun k => @policyRun_inCycles icmpProto budget {} k 0 ps nofun htime⟩

/-- With a budget of one, a probe and a handshake a second later both leak. -/
theorem learning_within_budget_probe_handshake : ∃ ps,
  policyRun PROTO_ICMP 1 {} ps = [.probe ⟨0, PROTO_TCP⟩ 1 1 1, .handshake 1000000001] ∧
   ∀ a, (policyRun PROTO_ICMP 1 {} ps).countP (·.leaksIn a) ≤ 2 :=
 ⟨[⟨{ proto := PROTO_TCP, isSyn := true }, false, ⟨1, 1, 1⟩⟩,
   ⟨{ proto := PROTO_UDP, isWgInit := true }, false, ⟨1000000001, 1000000001, 1000000001⟩⟩], by decide,
  (@learning_within_budget PROTO_ICMP 1 [_, _]
   ⟨by decide, by decide, by decide, by decide, by decide, by decide, trivial⟩).1⟩

end Run

end Lnvps.Firewall
