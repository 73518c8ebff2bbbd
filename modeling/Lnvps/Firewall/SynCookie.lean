import Lnvps.Firewall.Mitigation

/-! # SYN cookies -/

namespace Lnvps.Firewall

open Lpm Steps Option List

def headerBytes {w : Nat} (a : BitVec w) : List UInt8 :=
 (List.range (w / 8)).map (fun i => UInt8.ofNat (a.toNat >>> (8 * (w / 8 - 1 - i))))

def mix64 (h : UInt64) (b : UInt8) : UInt64 := (h ^^^ b.toUInt64) * 0x100000001b3

def finalize32 (h : UInt64) : UInt32 :=
 let h := h ^^^ (h >>> 33)
 let h := h * 0xff51afd7ed558ccd
 let h := h ^^^ (h >>> 33)
 let h := h * 0xc4ceb9fe1a85ec53
 let h := h ^^^ (h >>> 33)
 (h ^^^ (h >>> 32)).toUInt32

def synCookie {w : Nat} (secret : UInt64) (saddr daddr : BitVec w) (sport dport : BitVec 16) : UInt32 :=
 let h := 0xcbf29ce484222325 ^^^ secret
 let h := (headerBytes saddr).foldl mix64 h
 let h := (headerBytes daddr).foldl mix64 h
 let h := (headerBytes sport).foldl mix64 h
 let h := (headerBytes dport).foldl mix64 h
 finalize32 (h ^^^ secret)

def synCookieV4 (secret : UInt64) (saddr daddr : BitVec 32) (sport dport : BitVec 16) : UInt32 :=
 synCookie secret saddr daddr sport dport

def synCookieV6 (secret : UInt64) (saddr daddr : BitVec 128) (sport dport : BitVec 16) : UInt32 :=
 synCookie secret saddr daddr sport dport

inductive Flow
 | v4 (saddr daddr : BitVec 32)
 | v6 (saddr daddr : BitVec 128)
 deriving DecidableEq

def Flow.src : Flow → Dst
 | .v4 saddr _ => .v4 saddr
 | .v6 saddr _ => .v6 saddr

def Flow.dst : Flow → Dst
 | .v4 _ daddr => .v4 daddr
 | .v6 _ daddr => .v6 daddr

structure Packet where
 flow : Flow
 (sport dport : BitVec 16)
 (syn ack : Bool := false)
 ackSeq : UInt32 := 0
 tcp : Bool := true
 (tunneled blocked gated : Bool := false)
 portOpen : Bool := true
 nowNs : UInt64 := 0
 deriving DecidableEq

def Packet.cookie (secret : UInt64) (pk : Packet) : UInt32 :=
 match pk.flow with
 | .v4 saddr daddr => synCookieV4 secret saddr daddr pk.sport pk.dport
 | .v6 saddr daddr => synCookieV6 secret saddr daddr pk.sport pk.dport

inductive Verdict
 | drop
 | tx (cookie : UInt32)

def trySynProxy (cur prev : UInt64) (pk : Packet) : Verdict × Bool :=
 if pk.syn && !pk.ack then (.tx (pk.cookie cur), false)
 else if pk.ack && !pk.syn then
  let echoed := pk.ackSeq - 1
  (.drop, echoed = pk.cookie cur || echoed = pk.cookie prev)
 else (.drop, false)

structure Draw where
 random : Option UInt64
 clockNs : UInt64 := 0

def Draw.secret (d : Draw) : UInt64 :=
 match d.random with
 | some buf => buf ||| 1
 | none => (d.clockNs * 0x9e3779b97f4a7c15) ||| 1

inductive Phase
 | loaded
 | attached
 | armed
 | running
 deriving DecidableEq

structure Mark where
 packet : Packet
 recent : List Draw

structure System where
 daemon : Daemon
 phase : Phase := .loaded
 (current previous : UInt64 := 0)
 pending : Option Draw := none
 verified : AList (fun _ : Dst => UInt64) := ∅
 verifiedTtlNs : UInt64 := 0
 installed : List Draw := []
 marks : List Mark := []

inductive SysStep
 | attach
 | loadJump
 | beginRotation (d : Draw)
 | finishRotation
 | enterLoop (ttlNs : UInt64)
 | detect (l : Tick)
 | gc (nowNs : UInt64)
 | evict (a : Dst)
 | packet (pk : Packet)

namespace System

def start (cfg : RuntimeConfig) (nets : ProtectedNets) : System where
 daemon := { Daemon.start cfg nets with scope := .start }

variable (s : System) (pk : Packet)

def srcVerified : Bool :=
 (s.verified.lookup pk.flow.src).elim false (fun ts => s.verifiedTtlNs = 0 || pk.nowNs - ts < s.verifiedTtlNs)

def reachesProxy : Bool :=
 let flags := s.daemon.destMode pk.flow.dst
 s.phase ≠ .loaded && !s.daemon.scope.maps.outOfScope pk.flow.dst && !pk.blocked && flags ≠ 0#32 && !pk.gated &&
  !pk.tunneled && flags &&& SYN_PROXY ≠ 0#32 && pk.tcp && pk.portOpen && !s.srcVerified pk

def jumpLoaded : Bool := s.phase = .armed || s.phase = .running

def verifies : Bool :=
 s.reachesProxy pk && s.jumpLoaded && (trySynProxy s.current s.previous pk).2

def mark : System :=
 { s with
   verified := s.verified.insert pk.flow.src pk.nowNs
   marks := ⟨pk, s.installed.take 2⟩ :: s.marks }

def beginRotation (d : Draw) : System := { s with previous := s.current, pending := some d }

def finishRotation (d : Draw) : System :=
 { s with current := d.secret, pending := none, installed := d :: s.installed }

def expired (nowNs : UInt64) : List Dst :=
 s.verified.keys.filter (fun a =>
  s.verifiedTtlNs.toNat < nowNs.toNat - ((s.verified.lookup a).getD 0).toNat)

def enterLoop (ttlNs : UInt64) : System :=
 { s with
   phase := .running
   verifiedTtlNs := ttlNs
   daemon := { s.daemon with
    scope := s.daemon.scope.syncProtected ⟨s.daemon.v4.rules.protectedNets, s.daemon.v6.rules.protectedNets⟩ } }

def forget (l : List Dst) : System := { s with verified := l.foldl (fun m a => m.erase a) s.verified }

def idle : Bool := s.phase = .running && s.pending.isNone

def rotates : Bool := (s.phase = .armed && s.pending.isNone && s.installed.isEmpty) || s.idle

def step (s : System) : SysStep → Option System
 | .attach => if s.phase = .loaded then some { s with phase := .attached } else none
 | .loadJump => if s.phase = .attached then some { s with phase := .armed } else none
 | .beginRotation d => if s.rotates then some (s.beginRotation d) else none
 | .finishRotation => s.pending.map s.finishRotation
 | .enterLoop ttlNs =>
  if s.phase = .armed ∧ s.pending.isNone ∧ ¬ s.installed.isEmpty then some (s.enterLoop ttlNs) else none
 | .detect l => if s.idle then (s.daemon.tick l).map (fun d => { s with daemon := d }) else none
 | .gc nowNs => if s.idle then some (s.forget (s.expired nowNs)) else none
 | .evict a => some (s.forget [a])
 | .packet pk => some (if s.verifies pk then s.mark pk else s)

def lastSecret (installed : List Draw) : UInt64 := (installed.head?.map Draw.secret).getD 0

structure Slots (s : System) : Prop where
 current : s.current = lastSecret s.installed
 previous : s.previous = if s.pending.isSome then lastSecret s.installed else lastSecret s.installed.tail

def begun : Nat := s.installed.length + (if s.pending.isSome then 1 else 0)

variable {s} {t : System} {l : SysStep}

theorem Slots.recent (h : s.Slots) (hb : 2 ≤ s.begun) :
  (∃ d ∈ s.installed.take 2, s.current = d.secret) ∧ ∃ d ∈ s.installed.take 2, s.previous = d.secret := by
 have hcur := h.current
 have hprev := h.previous
 unfold begun at hb
 cases hi : s.installed with
 | nil =>
  rw [hi] at hb
  split_ifs at hb <;> simp at hb
 | cons d rest =>
  rw [hi] at hcur hprev hb
  refine ⟨⟨d, by simp, hcur⟩, ?_⟩
  split_ifs at hprev hb with hp
  · exact ⟨d, by simp, hprev⟩
  · cases rest with
    | nil => simp at hb
    | cons d' rest => exact ⟨d', by simp, hprev⟩

structure Keeps (s t : System) : Prop where
 current : t.current = s.current
 previous : t.previous = s.previous
 pending : t.pending = s.pending
 installed : t.installed = s.installed
 marks : t.marks = s.marks
 verified : ∀ a ∈ t.verified, a ∈ s.verified

private theorem mem_of_mem_foldl_erase {a : Dst} (l : List Dst) (m : AList (fun _ : Dst => UInt64))
  (h : a ∈ l.foldl (fun m b => m.erase b) m) : a ∈ m := by
 induction l generalizing m with
 | nil => exact h
 | cons b l ih => exact (AList.mem_erase.mp (ih _ h)).2

private theorem keeps_forget (l : List Dst) : s.Keeps (s.forget l) where
 current := rfl
 previous := rfl
 pending := rfl
 installed := rfl
 marks := rfl
 verified := fun _ ha => mem_of_mem_foldl_erase l s.verified ha

theorem step_cases (h : s.step l = some t) :
  (∃ d, t = s.beginRotation d) ∨ (∃ d, s.pending = some d ∧ t = s.finishRotation d) ∨
   (∃ pk, l = .packet pk ∧ s.verifies pk = true ∧ t = s.mark pk) ∨ s.Keeps t := by
 have hrefl : ∀ u : System, u = t → u.current = s.current → u.previous = s.previous → u.pending = s.pending →
   u.installed = s.installed → u.marks = s.marks → u.verified = s.verified → s.Keeps t := by
  rintro u rfl hc hp hpend hi hm hv
  exact ⟨hc, hp, hpend, hi, hm, fun a ha => hv ▸ ha⟩
 cases l with
 | beginRotation d =>
  simp only [step, ite_none_right_eq_some, some.injEq] at h
  exact .inl ⟨d, h.2.symm⟩
 | finishRotation =>
  obtain ⟨d, hd, ht⟩ := map_eq_some_iff.mp h
  exact .inr (.inl ⟨d, hd, ht.symm⟩)
 | packet pk =>
  right; right
  have ht := some.inj h
  by_cases hv : s.verifies pk = true
  · rw [ite_cond_eq_true _ _ (eq_true hv)] at ht
    exact .inl ⟨pk, rfl, hv, ht.symm⟩
  · rw [ite_cond_eq_false _ _ (eq_false hv)] at ht
    exact .inr (hrefl s ht rfl rfl rfl rfl rfl rfl)
 | attach | loadJump | enterLoop ttlNs =>
  simp only [step, ite_none_right_eq_some, some.injEq] at h
  exact .inr (.inr (.inr (hrefl _ h.2 rfl rfl rfl rfl rfl rfl)))
 | detect l =>
  simp only [step, ite_none_right_eq_some, map_eq_some_iff] at h
  obtain ⟨-, d, -, ht⟩ := h
  exact .inr (.inr (.inr (hrefl _ ht rfl rfl rfl rfl rfl rfl)))
 | gc nowNs =>
  simp only [step, ite_none_right_eq_some, some.injEq] at h
  rw [← h.2]
  exact .inr (.inr (.inr (keeps_forget _)))
 | evict a =>
  rw [← some.inj h]
  exact .inr (.inr (.inr (keeps_forget _)))

theorem Slots.step (h : s.Slots) (hs : s.step l = some t) : t.Slots := by
 rcases step_cases hs with ⟨d, rfl⟩ | ⟨d, hd, rfl⟩ | ⟨pk, -, -, rfl⟩ | hk
 · exact ⟨h.current, h.current⟩
 · refine ⟨rfl, ?_⟩
   have hprev := h.previous
   rw [hd] at hprev
   exact hprev
 · exact ⟨h.current, h.previous⟩
 · constructor
   · rw [hk.current, hk.installed]
     exact h.current
   · rw [hk.previous, hk.pending, hk.installed]
     exact h.previous

end System

def Mark.Genuine (m : Mark) : Prop :=
 m.packet.ack = true ∧ m.packet.syn = false ∧ ∃ d ∈ m.recent, m.packet.cookie d.secret = m.packet.ackSeq - 1

instance (m : Mark) : Decidable m.Genuine := inferInstanceAs (Decidable (_ ∧ _))

theorem ack_of_trySynProxy {cur prev : UInt64} {pk : Packet} (h : (trySynProxy cur prev pk).2 = true) :
  pk.ack = true ∧ pk.syn = false ∧ (pk.cookie cur = pk.ackSeq - 1 ∨ pk.cookie prev = pk.ackSeq - 1) := by
 unfold trySynProxy at h
 split_ifs at h with hsyn hack
 rw [Bool.and_eq_true, Bool.not_eq_true'] at hack
 rw [Bool.or_eq_true, decide_eq_true_eq, decide_eq_true_eq] at h
 exact ⟨hack.1, hack.2, h.imp .symm .symm⟩

namespace System

variable {s t : System} {l : SysStep}

def guarded (s : System) : SysStep → Bool
 | .packet pk => !s.reachesProxy pk || 2 ≤ s.begun
 | _ => true

structure Sound (s : System) : Prop where
 slots : s.Slots
 marked : ∀ a ∈ s.verified, ∃ m ∈ s.marks, m.packet.flow.src = a
 genuine : ∀ m ∈ s.marks, m.Genuine

theorem sound_start (cfg : RuntimeConfig) (nets : ProtectedNets) : (start cfg nets).Sound where
 slots := ⟨rfl, rfl⟩
 marked := fun a ha => absurd ha (AList.notMem_empty a)
 genuine := fun m hm => by simp [start] at hm

theorem genuine_mark (h : s.Slots) {pk : Packet} (hg : s.guarded (.packet pk) = true) (hv : s.verifies pk = true) :
  Mark.Genuine ⟨pk, s.installed.take 2⟩ := by
 rw [verifies, Bool.and_eq_true, Bool.and_eq_true] at hv
 obtain ⟨⟨hreach, -⟩, hproxy⟩ := hv
 have hbegun : 2 ≤ s.begun := by simpa [guarded, hreach] using hg
 obtain ⟨⟨d, hd, hcur⟩, ⟨d', hd', hprev⟩⟩ := h.recent hbegun
 obtain ⟨hack, hsyn, hcookie⟩ := ack_of_trySynProxy hproxy
 refine ⟨hack, hsyn, ?_⟩
 rcases hcookie with hc | hc
 · exact ⟨d, hd, by rw [← hcur]; exact hc⟩
 · exact ⟨d', hd', by rw [← hprev]; exact hc⟩

theorem Sound.step (h : s.Sound) (hg : s.guarded l = true) (hs : s.step l = some t) : t.Sound := by
 have hslots := h.slots.step hs
 rcases step_cases hs with ⟨d, rfl⟩ | ⟨d, -, rfl⟩ | ⟨pk, rfl, hv, rfl⟩ | hk
 · exact ⟨hslots, h.marked, h.genuine⟩
 · exact ⟨hslots, h.marked, h.genuine⟩
 · refine ⟨hslots, ?_, ?_⟩
   · intro a ha
     rcases (AList.mem_insert _).mp ha with rfl | ha
     · exact ⟨_, mem_cons_self, rfl⟩
     · obtain ⟨m, hm, hsrc⟩ := h.marked a ha
       exact ⟨m, mem_cons_of_mem _ hm, hsrc⟩
   · intro m hm
     rcases mem_cons.mp hm with rfl | hm
     · exact genuine_mark h.slots hg hv
     · exact h.genuine m hm
 · refine ⟨hslots, ?_, ?_⟩
   · intro a ha
     rw [hk.marks]
     exact h.marked a (hk.verified a ha)
   · rw [hk.marks]
     exact h.genuine

theorem only_drawn_secrets_verify {cfg : RuntimeConfig} {nets : ProtectedNets} {ls : List SysStep} {s : System}
  (hrun : RunIf step (fun s l => s.guarded l = true) (start cfg nets) ls s) :
  (∀ a ∈ s.verified, ∃ m ∈ s.marks, m.packet.flow.src = a) ∧ ∀ m ∈ s.marks, m.Genuine := by
 have hsound : s.Sound := hrun.invariant (fun _ _ _ h hg hs => h.step hg hs) (sound_start cfg nets)
 exact ⟨hsound.marked, hsound.genuine⟩

theorem installed_suffix {ls : List SysStep} (h : Run step s ls t) : s.installed <:+ t.installed := by
 induction h with
 | nil => exact suffix_rfl
 | snoc _ _ hstep ih =>
  refine ih.trans ?_
  rcases step_cases hstep with ⟨d, rfl⟩ | ⟨d, -, rfl⟩ | ⟨pk, -, -, rfl⟩ | hk
  · exact suffix_rfl
  · exact suffix_cons ..
  · exact suffix_rfl
  · rw [hk.installed]

theorem cookie_outlives_rotation {cfg : RuntimeConfig} {nets : ProtectedNets} {ls ls' : List SysStep} {s t : System}
  (hs : Run step (start cfg nets) ls s) (ht : Run step s ls' t) (hrot : t.begun ≤ s.installed.length + 1)
  (pk : Packet) {cookie : UInt32} (hsyn : (trySynProxy s.current s.previous pk).1 = .tx cookie) :
  (trySynProxy t.current t.previous { pk with syn := false, ack := true, ackSeq := cookie + 1 }).2 = true := by
 have hslots : s.Slots := hs.invariant (fun _ _ _ h _ hstep => h.step hstep) ⟨rfl, rfl⟩
 have hslots' : t.Slots := ht.invariant (fun _ _ _ h _ hstep => h.step hstep) hslots
 have hcookie : cookie = pk.cookie s.current := by
  unfold trySynProxy at hsyn
  split_ifs at hsyn
  exact (Verdict.tx.inj hsyn).symm
 have hkept : t.current = s.current ∨ t.previous = s.current := by
  obtain ⟨new, hnew⟩ := installed_suffix ht
  rw [hslots.current, hslots'.current, hslots'.previous]
  rw [begun, ← hnew, length_append] at hrot
  rcases new with _ | ⟨d, _ | ⟨d', new⟩⟩
  · exact .inl (by rw [← hnew]; rfl)
  · right
    split_ifs at hrot ⊢ with hp
    · simp at hrot
    · rw [← hnew]
      rfl
  · simp at hrot
    omega
 rcases hkept with h | h <;> simp [trySynProxy, h, hcookie, Packet.cookie]

def proxyLimits : RuntimeConfig := { Daemon.smallLimits with synProxyPps := 100 }

def startup : List SysStep :=
 [.attach, .loadJump, .beginRotation ⟨some 0x5eed5eed5eed5eed, 0⟩, .finishRotation, .enterLoop 600000000000]

def synAttack : List SysStep :=
 [.detect { nowNs := 1 }, .detect { nowNs := 1000000001, samplesV4 := Daemon.synFlood }]

def ackFor (secret : UInt64) : Packet where
 flow := .v4 0xc0000201#32 Daemon.attacked
 sport := 4000#16
 dport := 443#16
 ack := true
 ackSeq := synCookieV4 secret 0xc0000201#32 Daemon.attacked 4000#16 443#16 + 1

/-- The detection timer comes up twice before the timer of the rotation. A packet with the cookie under the secret zero
then verifies its source. -/
theorem verified_under_zero :
  ∃ s, Run step (start proxyLimits ⟨[], []⟩) (startup ++ synAttack ++ [.packet (ackFor 0)]) s ∧
   Dst.v4 0xc0000201#32 ∈ s.verified ∧ s.marks.map Mark.packet = [ackFor 0] ∧ ∀ m ∈ s.marks, ¬ m.Genuine :=
 Run.exists_of_exec (by decide +kernel)

/-- A rotation of the loop and its packet. -/
theorem only_drawn_secrets_verify_rotated :
  ∃ s, RunIf step (fun s l => s.guarded l = true) (start proxyLimits ⟨[], []⟩)
    (startup ++ [.beginRotation ⟨some 0xfeed, 0⟩, .finishRotation] ++ synAttack ++ [.packet (ackFor 0xfeed)]) s ∧
   s.marks.map Mark.packet = [ackFor 0xfeed] ∧
   (∀ a ∈ s.verified, ∃ m ∈ s.marks, m.packet.flow.src = a) ∧ ∀ m ∈ s.marks, m.Genuine :=
 RunIf.exists_and_of_execIf (by decide +kernel) fun _ hrun _ => only_drawn_secrets_verify hrun

theorem cookie_outlives_rotation_once :
  ∃ s t cookie, Run step (start proxyLimits ⟨[], []⟩) startup s ∧
   Run step s [.beginRotation ⟨some 0xfeed, 0⟩, .finishRotation] t ∧
   (trySynProxy s.current s.previous { ackFor 0 with syn := true, ack := false }).1 = .tx cookie ∧
   (trySynProxy t.current t.previous { ackFor 0 with ackSeq := cookie + 1 }).2 = true := by
 obtain ⟨s, hs, h⟩ := Run.exists_of_exec (f := step) (s := start proxyLimits ⟨[], []⟩) (r := startup)
  (P := fun s => (exec step s [.beginRotation ⟨some 0xfeed, 0⟩, .finishRotation]).any
   (fun t => t.begun ≤ s.installed.length + 1) = true) (by decide +kernel)
 obtain ⟨t, ht, hrot⟩ := Run.exists_of_exec h
 exact ⟨s, t, _, hs, ht, rfl, cookie_outlives_rotation hs ht hrot
  { ackFor 0 with syn := true, ack := false } rfl⟩

end System

end Lnvps.Firewall
