import Lnvps.Lib.Remote
import Lnvps.Lib.Positions
import Lnvps.Lib.FirstMatch
import Lnvps.Network

/-! # The firewall of a VM on the hypervisor -/

namespace Lnvps.Pve

open Net Remote Positions FirstMatch Option

inductive FirewallAction
 | accept
 | reject
 | drop
 deriving DecidableEq

inductive FirewallDirection
 | inbound
 | outbound
 deriving DecidableEq

inductive FirewallProtocol
 | any
 | tcp
 | udp
 | icmp
 deriving DecidableEq

structure VmFirewallRule where
 (id vmId : Nat)
 priority : Nat := 0
 direction : FirewallDirection := .inbound
 protocol : FirewallProtocol := .any
 action : FirewallAction := .accept
 srcCidr : Option String := none
 (dstPortStart dstPortEnd : Option Nat := none)
 enabled : Bool := true

structure PveRule where
 action : FirewallAction := .accept
 ruleType : FirewallDirection := .inbound
 (comment dest dport : Option String := none)
 enable : Option Int := none
 (iface macroName proto source sport : Option String := none)

def userFwMarker : String := "lnvps-fw"

variable (rule : VmFirewallRule)

def dportOf : Option String :=
 match rule.dstPortStart, rule.dstPortEnd with
 | some s, some e => if e ≠ s then some (toString s ++ ":" ++ toString e) else some (toString s)
 | some s, none => some (toString s)
 | none, _ => none

def protosOf : List (Option String) :=
 match rule.protocol with
 | .any => if (dportOf rule).isSome then [some "tcp", some "udp"] else [none]
 | .tcp => [some "tcp"]
 | .udp => [some "udp"]
 | .icmp => [some "icmp"]

def toPveFirewallRules : List PveRule :=
 (protosOf rule).map fun proto =>
  { action := rule.action
    ruleType := rule.direction
    dport := proto.bind fun _ => dportOf rule
    proto
    source := rule.srcCidr
    enable := some (if rule.enabled then 1 else 0)
    comment := some (userFwMarker ++ ":" ++ toString rule.id) }

inductive Transport
 | tcp (dport : Fin 65536)
 | udp (dport : Fin 65536)
 | icmp

def Transport.name : Transport → String
 | .tcp _ => "tcp"
 | .udp _ => "udp"
 | .icmp => "icmp"

def Transport.dport : Transport → Option Nat
 | .tcp port => some port
 | .udp port => some port
 | .icmp => none

structure Packet where
 direction : FirewallDirection
 transport : Transport
 (src dst : Addr)

def ipfilterSet : String := "+guest/ipfilter-net0"

structure Reading where
 cidr : String → Option Network
 cidr_ipfilterSet : cidr ipfilterSet = none
 (iface macroName sport : String → Packet → Bool := fun _ _ => true)

def parsePort (cs : List Char) : Option Nat :=
 if cs ≠ [] ∧ cs.all Char.isDigit then some (Nat.ofDigitChars 10 cs 0) else none

def parsePorts (text : String) : Option (Nat × Nat) :=
 match text.toList.dropWhile (· ≠ ':') with
 | [] => (parsePort text.toList).map fun s => (s, s)
 | _ :: rest => do
  let s ← parsePort (text.toList.takeWhile (· ≠ ':'))
  let e ← parsePort rest
  some (s, e)

structure PveVm where
 ipConfig : Option String := none
 enable : Bool := false
 (dhcp ipFilter macFilter ndp : Option Bool := none)
 (policyIn policyOut : Option FirewallAction := none)
 ipset : Option (List String) := none
 rules : List PveRule := []

def defaultPolicy : FirewallDirection → FirewallAction
 | .inbound => .drop
 | .outbound => .accept

variable (vm : PveVm)

def PveVm.storedPolicy : FirewallDirection → Option FirewallAction
 | .inbound => vm.policyIn
 | .outbound => vm.policyOut

def PveVm.policy (d : FirewallDirection) : FirewallAction := (vm.storedPolicy d).getD (defaultPolicy d)

section Filter

variable (reading : Reading) (entries : List String)

def inNetwork (cidr : String) (a : Addr) : Bool := (reading.cidr cidr).any fun n => n.contains a

def addrMatches (name : String) (a : Addr) : Bool :=
 if name = ipfilterSet then entries.any fun e => inNetwork reading e a else inNetwork reading name a

def dportMatches (ports : String) (t : Transport) : Bool :=
 t.dport.any fun port => (parsePorts ports).any fun r => r.1 ≤ port ∧ port ≤ r.2

def PveRule.hits (p : Packet) (rule : PveRule) : Bool :=
 rule.enable.any (· ≠ 0) && decide (rule.ruleType = p.direction) &&
 rule.proto.all (· = p.transport.name) &&
 rule.dport.all (fun ports => dportMatches ports p.transport) &&
 rule.source.all (fun name => addrMatches reading entries name p.src) &&
 rule.dest.all (fun name => addrMatches reading entries name p.dst) &&
 rule.iface.all (reading.iface · p) && rule.macroName.all (reading.macroName · p) && rule.sport.all (reading.sport · p)

def PveVm.verdict (vm : PveVm) (p : Packet) : FirewallAction :=
 if vm.enable then
  FirstMatch.verdict (PveRule.hits reading (vm.ipset.getD []) p) (·.action) (vm.policy p.direction) vm.rules
 else .accept

end Filter

structure VmFirewallConfig where
 (dhcp enable ipFilter macFilter ndp : Option Bool := none)
 (policyIn policyOut : Option FirewallAction := none)

def PveVm.setOptions (o : VmFirewallConfig) : PveVm := { vm with
 dhcp := o.dhcp.or vm.dhcp
 enable := o.enable.getD vm.enable
 ipFilter := o.ipFilter.or vm.ipFilter
 macFilter := o.macFilter.or vm.macFilter
 ndp := o.ndp.or vm.ndp
 policyIn := o.policyIn.or vm.policyIn
 policyOut := o.policyOut.or vm.policyOut }

inductive Call
 | getVmConfig
 | configureVm (ipConfig : String)
 | configureVmFirewall (options : VmFirewallConfig)
 | listVmIpsetEntries
 | addVmIpset
 | addVmIpsetEntry (cidr : String)
 | listVmFirewallRules
 | deleteVmFirewallRule (pos : Nat)
 | addVmFirewallRule (rule : PveRule)

abbrev Reply : Call → Type
 | .getVmConfig => Option String
 | .listVmIpsetEntries => List String
 | .listVmFirewallRules => List (PveRule × Nat)
 | _ => Unit

abbrev send (c : Call) : Prog Reply (Reply c) := command c

def handle (accepts : PveRule → Bool) : (c : Call) → PveVm → Option (Reply c × PveVm)
 | .getVmConfig, vm => some (vm.ipConfig, vm)
 | .configureVm ipConfig, vm => some ((), { vm with ipConfig := some ipConfig })
 | .configureVmFirewall o, vm => some ((), vm.setOptions o)
 | .listVmIpsetEntries, vm => vm.ipset.map fun entries => (entries, vm)
 | .addVmIpset, vm => if vm.ipset.isNone then some ((), { vm with ipset := some [] }) else none
 | .addVmIpsetEntry cidr, vm =>
  match vm.ipset with
  | some entries => if cidr ∈ entries then none else some ((), { vm with ipset := some (entries ++ [cidr]) })
  | none => none
 | .listVmFirewallRules, vm => some (vm.rules.zipIdx, vm)
 | .deleteVmFirewallRule pos, vm =>
  if pos < vm.rules.length then some ((), { vm with rules := vm.rules.eraseIdx pos }) else none
 | .addVmFirewallRule rule, vm => if accepts rule then some ((), { vm with rules := rule :: vm.rules }) else none

structure FirewallConfig where
 (dhcp enable ipFilter macFilter ndp : Option Bool := none)
 (policyIn policyOut : Option FirewallAction := none)

structure FullVmInfo where
 ips : List VmIpAssignment := []
 ranges : List IpRange := []
 hasResources : Bool := true
 (fwPolicyIn fwPolicyOut : Option FirewallAction := none)
 firewallRules : List VmFirewallRule := []

def FirewallConfig.policy (fw : FirewallConfig) : FirewallDirection → Option FirewallAction
 | .inbound => fw.policyIn
 | .outbound => fw.policyOut

def FullVmInfo.fwPolicy (cfg : FullVmInfo) : FirewallDirection → Option FirewallAction
 | .inbound => cfg.fwPolicyIn
 | .outbound => cfg.fwPolicyOut

variable (text : IpText)

def ipConfigOf (ranges : List IpRange) (ip : VmIpAssignment) : Option String := do
 let addr ← text.parse ip.ip
 let range ← ranges.find? fun r => r.id = ip.ipRangeId
 if addr.kind = .v6 ∧ range.allocationMode = .slaacEui64 then some "ip6=auto"
 else
  let cidr ← range.cidr
  let gateway ← range.gateway
  let net ← Network.new? addr (min cidr.prefixLen gateway.prefixLen)
  let netText := text.format net.ip ++ "/" ++ toString net.prefixLen
  match addr.kind with
  | .v4 => some ("ip=" ++ netText ++ ",gw=" ++ text.format gateway.ip)
  | .v6 => some ("ip6=" ++ netText ++ ",gw6=" ++ text.format gateway.ip)

def makeConfig (cfg : FullVmInfo) : Option String :=
 if cfg.hasResources then some (",".intercalate (cfg.ips.filterMap (ipConfigOf text cfg.ranges))) else none

def addressTexts (ips : List VmIpAssignment) : List String :=
 ips.filterMap fun ip => (text.parse ip.ip).map text.format

def isStaleIpfilter (rule : PveRule) : Bool :=
 rule.action = .accept ∧ rule.dest = some ipfilterSet ∧ rule.ruleType = .inbound

def isUserRule (rule : PveRule) : Bool := rule.comment.any fun c => userFwMarker.toList.isPrefixOf c.toList

def checkIpConfig (cfg : FullVmInfo) : Prog Reply Unit := do
 let current : Option String ← send .getVmConfig
 let expected ← Remote.ofOption (makeConfig text cfg)
 if current ≠ some expected then send (.configureVm expected) else pure ()

def enabledFirewall (host : Option FirewallConfig) : Option FirewallConfig := host.filter fun fw => fw.enable.getD false

def firewallOptions (fw : FirewallConfig) (cfg : FullVmInfo) : VmFirewallConfig where
 dhcp := fw.dhcp
 enable := fw.enable
 ipFilter := fw.ipFilter
 macFilter := fw.macFilter
 ndp := fw.ndp
 policyIn := cfg.fwPolicyIn.or fw.policyIn
 policyOut := cfg.fwPolicyOut.or fw.policyOut

def ensureIpset : Prog Reply Unit := do
 let found ← Remote.attempt Call.listVmIpsetEntries
 if found.isNone then send .addVmIpset else pure ()

def addAddresses (cfg : FullVmInfo) : Prog Reply Unit := do
 let existing : List String ← send .listVmIpsetEntries
 all (((addressTexts text cfg.ips).filter (· ∉ existing)).map Call.addVmIpsetEntry)

def removeRules (p : PveRule → Bool) : Prog Reply Unit := do
 let rules : List (PveRule × Nat) ← send .listVmFirewallRules
 all ((descending p rules).map Call.deleteVmFirewallRule)

def addRules (cfg : FullVmInfo) : Prog Reply Unit :=
 all ((cfg.firewallRules.reverse.flatMap toPveFirewallRules).map Call.addVmFirewallRule)

def syncFirewall (fw : FirewallConfig) (cfg : FullVmInfo) : Prog Reply Unit := do
 send (.configureVmFirewall (firewallOptions fw cfg))
 ensureIpset
 addAddresses text cfg
 removeRules isStaleIpfilter
 removeRules isUserRule
 addRules cfg

def patchFirewall (host : Option FirewallConfig) (cfg : FullVmInfo) : Prog Reply Unit := do
 checkIpConfig text cfg
 match enabledFirewall host with
 | none => send (.configureVmFirewall { enable := some false })
 | some fw => syncFirewall text fw cfg

variable {text} {accepts : PveRule → Bool} {s t : PveVm} {u : Unit} {cfg : FullVmInfo}

theorem ends_checkIpConfig : Ends (handle accepts) (checkIpConfig text cfg) s (some u) t ↔
  ∃ expected, makeConfig text cfg = some expected ∧ t = { s with ipConfig := some expected } := by
 simp only [checkIpConfig, ends_bind, ends_command, ends_ofOption]
 constructor
 · rintro ⟨current, _, hget, expected, _, ⟨hmake, rfl⟩, h⟩
   cases hget
   refine ⟨expected, hmake, ?_⟩
   split at h
   · cases ends_command.mp h
     rfl
   · rename_i hsame
     rw [(ends_pure.mp h).2, ← not_not.mp hsame]
 · rintro ⟨expected, hmake, rfl⟩
   refine ⟨s.ipConfig, s, rfl, expected, s, ⟨hmake, rfl⟩, ?_⟩
   split
   · exact ends_command.mpr rfl
   · rename_i hsame
     rw [← not_not.mp hsame]
     exact ends_pure.mpr ⟨rfl, rfl⟩

theorem visits_checkIpConfig (h : Visits (handle accepts) (checkIpConfig text cfg) s t) :
  t = s ∨ ∃ expected, makeConfig text cfg = some expected ∧ t = { s with ipConfig := some expected } := by
 simp only [checkIpConfig, visits_bind, visits_command, visits_ofOption, ends_command, ends_ofOption] at h
 rcases h with (rfl | ⟨_, hget⟩) | ⟨current, _, hget, rfl | ⟨expected, _, ⟨hmake, rfl⟩, h⟩⟩
 · exact .inl rfl
 · cases hget
   exact .inl rfl
 · cases hget
   exact .inl rfl
 cases hget
 split at h
 · rcases visits_command.mp h with rfl | ⟨_, hset⟩
   · exact .inl rfl
   · cases hset
     exact .inr ⟨expected, hmake, rfl⟩
 · exact .inl (visits_pure.mp h)

theorem ends_ensureIpset : Ends (handle accepts) ensureIpset s (some u) t ↔
  t = { s with ipset := some (s.ipset.getD []) } := by
 simp only [ensureIpset, ends_bind, ends_attempt]
 constructor
 · rintro ⟨found, v, ⟨rfl, rfl⟩ | ⟨entries, rfl, hlist⟩, h⟩
   · rw [isNone_none, if_pos rfl, ends_command, handle] at h
     split at h
     · rename_i hnone
       cases h
       rw [isNone_iff_eq_none.mp hnone, getD_none]
     · cases h
   · obtain ⟨entries', hset, heq⟩ := map_eq_some_iff.mp hlist
     cases heq
     rw [(ends_pure.mp h).2, hset, getD_some, ← hset]
 · rintro rfl
   cases hset : s.ipset with
   | none =>
    refine ⟨none, s, .inl ⟨rfl, rfl⟩, ?_⟩
    rw [isNone_none, if_pos rfl, ends_command, handle, hset]
    rfl
   | some entries =>
    refine ⟨some entries, s, .inr ⟨entries, rfl, by rw [handle, hset]; rfl⟩, ?_⟩
    rw [isNone_some, if_neg Bool.false_ne_true, getD_some, ← hset]
    exact ends_pure.mpr ⟨rfl, rfl⟩

theorem visits_ensureIpset (h : Visits (handle accepts) ensureIpset s t) :
  t = s ∨ t = { s with ipset := some (s.ipset.getD []) } := by
 simp only [ensureIpset, visits_bind, visits_attempt] at h
 rcases h with (rfl | ⟨_, hlist⟩) | ⟨found, v, hfound, h⟩
 · exact .inl rfl
 · obtain ⟨_, _, heq⟩ := map_eq_some_iff.mp hlist
   cases heq
   exact .inl rfl
 have hv : v = s := by
  rcases ends_attempt.mp hfound with ⟨-, rfl⟩ | ⟨_, -, hlist⟩
  · rfl
  · obtain ⟨_, _, heq⟩ := map_eq_some_iff.mp hlist
    cases heq
    rfl
 subst hv
 split at h
 · rcases visits_command.mp h with rfl | ⟨_, hadd⟩
   · exact .inl rfl
   rw [handle] at hadd
   split at hadd
   · rename_i hset
     cases hadd
     rw [isNone_iff_eq_none.mp hset, getD_none]
     exact .inr rfl
   · cases hadd
 · exact .inl (visits_pure.mp h)

theorem after_addVmIpsetEntry {entries : List String} (hs : s.ipset = some entries) (cs : List String) :
  after (handle accepts) (cs.map Call.addVmIpsetEntry) s =
   if cs.Nodup ∧ ∀ c ∈ cs, c ∉ entries then some { s with ipset := some (entries ++ cs) } else none := by
 induction cs generalizing s entries with
 | nil => simp [after, ← hs]
 | cons c cs ih =>
  rw [List.map_cons, after]
  by_cases hc : c ∈ entries
  · simp [handle, hs, hc]
  simp only [handle, hs, hc, if_false, bind_some]
  rw [ih rfl]
  simp only [List.nodup_cons, List.mem_append, List.mem_singleton, List.append_assoc, List.singleton_append]
  congr 1
  grind

theorem after_deleteVmFirewallRule (is : List Nat) :
  after (handle accepts) (is.map Call.deleteVmFirewallRule) s =
   (eraseEach is s.rules).map fun rules => { s with rules } := by
 induction is generalizing s with
 | nil => rfl
 | cons i is ih =>
  rw [List.map_cons, after, eraseEach, handle]
  split
  · exact ih
  · rfl

theorem after_addVmFirewallRule (rules : List PveRule) :
  after (handle accepts) (rules.map Call.addVmFirewallRule) s =
   if rules.all accepts then some { s with rules := rules.reverse ++ s.rules } else none := by
 induction rules generalizing s with
 | nil => rfl
 | cons r rules ih =>
  rw [List.map_cons, after, handle, List.all_cons]
  cases accepts r with
  | false => rfl
  | true =>
   simp only [if_true, bind_some, Bool.true_and, ih]
   simp

theorem ends_removeRules {p : PveRule → Bool} : Ends (handle accepts) (removeRules p) s (some u) t ↔
  t = { s with rules := s.rules.filter (!p ·) } := by
 have herase := eraseEach_descending (p := p) s.rules []
 rw [List.append_nil, List.append_nil] at herase
 simp only [removeRules, ends_bind, ends_command, ends_all, after_deleteVmFirewallRule]
 constructor
 · rintro ⟨_, _, hlist, h⟩
   cases hlist
   rw [herase] at h
   cases h
   rfl
 · rintro rfl
   exact ⟨s.rules.zipIdx, s, rfl, by rw [herase]; rfl⟩

theorem visits_removeRules {p : PveRule → Bool} (h : Visits (handle accepts) (removeRules p) s t) :
  ∃ k, t = { s with rules := s.rules.take k ++ (s.rules.drop k).filter (!p ·) } := by
 have hwhole : s = { s with rules := s.rules.take s.rules.length ++ (s.rules.drop s.rules.length).filter (!p ·) } := by
  rw [List.take_length, List.drop_length, List.filter_nil, List.append_nil]
 simp only [removeRules, visits_bind, visits_command, ends_command, visits_all] at h
 rcases h with (rfl | ⟨_, hlist⟩) | ⟨_, _, hlist, n, hn⟩
 · exact ⟨_, hwhole⟩
 · cases hlist
   exact ⟨_, hwhole⟩
 cases hlist
 obtain ⟨k, -, herase⟩ := eraseEach_take (p := p) s.rules [] n
 rw [List.append_nil, List.append_nil] at herase
 rw [← List.map_take, after_deleteVmFirewallRule, herase] at hn
 cases hn
 exact ⟨k, rfl⟩

def newAddresses (text : IpText) (cfg : FullVmInfo) (entries : List String) : List String :=
 (addressTexts text cfg.ips).filter (· ∉ entries)

theorem after_newAddresses {entries : List String} (hs : s.ipset = some entries) {l : List String}
  (hl : l.Sublist (newAddresses text cfg entries)) :
  after (handle accepts) (l.map Call.addVmIpsetEntry) s =
   if l.Nodup then some { s with ipset := some (entries ++ l) } else none := by
 have hfresh : ∀ c ∈ l, c ∉ entries := fun c hc => of_decide_eq_true (List.mem_filter.mp (hl.subset hc)).2
 rw [after_addVmIpsetEntry hs]
 exact if_congr (and_iff_left hfresh) rfl rfl

theorem listVmIpsetEntries_eq {entries existing : List String} (hs : s.ipset = some entries) :
  handle accepts .listVmIpsetEntries s = some (existing, t) ↔ existing = entries ∧ t = s := by
 rw [handle, hs]
 simp [eq_comm]

theorem ends_addAddresses {entries : List String} (hs : s.ipset = some entries) :
  Ends (handle accepts) (addAddresses text cfg) s (some u) t ↔ (newAddresses text cfg entries).Nodup ∧
   t = { s with ipset := some (entries ++ newAddresses text cfg entries) } := by
 have hafter : after (handle accepts) ((newAddresses text cfg entries).map .addVmIpsetEntry) s =
   if (newAddresses text cfg entries).Nodup
   then some { s with ipset := some (entries ++ newAddresses text cfg entries) } else none :=
  after_newAddresses hs (.refl _)
 simp only [addAddresses, ends_bind, ends_command, ends_all, listVmIpsetEntries_eq hs]
 constructor
 · rintro ⟨_, _, ⟨rfl, rfl⟩, h⟩
   rw [newAddresses] at hafter
   rw [hafter] at h
   split at h
   · rename_i hnodup
     cases h
     exact ⟨hnodup, rfl⟩
   · cases h
 · rintro ⟨hnodup, rfl⟩
   refine ⟨entries, s, ⟨rfl, rfl⟩, ?_⟩
   rw [if_pos hnodup] at hafter
   exact hafter

theorem visits_addAddresses {entries : List String} (hs : s.ipset = some entries) :
  Visits (handle accepts) (addAddresses text cfg) s t ↔ ∃ k, ((newAddresses text cfg entries).take k).Nodup ∧
   t = { s with ipset := some (entries ++ (newAddresses text cfg entries).take k) } := by
 have hafter : ∀ k, after (handle accepts) (((newAddresses text cfg entries).map .addVmIpsetEntry).take k) s =
   if ((newAddresses text cfg entries).take k).Nodup
   then some { s with ipset := some (entries ++ (newAddresses text cfg entries).take k) } else none := by
  intro k
  rw [← List.map_take]
  exact after_newAddresses hs (List.take_sublist k _)
 have hstart : s = { s with ipset := some (entries ++ (newAddresses text cfg entries).take 0) } := by
  rw [List.take_zero, List.append_nil, ← hs]
 simp only [addAddresses, visits_bind, visits_command, ends_command, visits_all, listVmIpsetEntries_eq hs]
 constructor
 · rintro ((rfl | ⟨_, -, rfl⟩) | ⟨_, _, ⟨rfl, rfl⟩, k, h⟩)
   · exact ⟨0, List.nodup_nil, hstart⟩
   · exact ⟨0, List.nodup_nil, hstart⟩
   have hk := hafter k
   rw [newAddresses] at hk
   rw [hk] at h
   split at h
   · rename_i hnodup
     cases h
     exact ⟨k, hnodup, rfl⟩
   · cases h
 · rintro ⟨k, hnodup, rfl⟩
   refine .inr ⟨entries, s, ⟨rfl, rfl⟩, k, ?_⟩
   have hk := hafter k
   rw [if_pos hnodup] at hk
   exact hk

def insertions (cfg : FullVmInfo) : List PveRule := cfg.firewallRules.reverse.flatMap toPveFirewallRules

theorem ends_addRules : Ends (handle accepts) (addRules cfg) s (some u) t ↔
  (insertions cfg).all accepts ∧ t = { s with rules := (insertions cfg).reverse ++ s.rules } := by
 rw [addRules, ends_all, after_addVmFirewallRule, ← insertions]
 split
 · rename_i hall
   simp [hall, eq_comm]
 · rename_i hall
   simp [hall]

theorem visits_addRules : Visits (handle accepts) (addRules cfg) s t ↔ ∃ k, ((insertions cfg).take k).all accepts ∧
  t = { s with rules := ((insertions cfg).take k).reverse ++ s.rules } := by
 rw [addRules, visits_all]
 simp only [← List.map_take, after_addVmFirewallRule]
 refine exists_congr fun k => ?_
 rw [← insertions]
 split
 · rename_i hall
   simp [hall, eq_comm]
 · rename_i hall
   simp [hall]

def PveVm.entries : List String := vm.ipset.getD []

def PveVm.keptRules : List PveRule :=
 (vm.rules.filter (!isStaleIpfilter ·)).filter (!isUserRule ·)

def allEntries (text : IpText) (cfg : FullVmInfo) (vm : PveVm) : List String :=
 vm.entries ++ newAddresses text cfg vm.entries

def synced (fw : FirewallConfig) (cfg : FullVmInfo) (vm : PveVm) (entries : List String) (rules : List PveRule) :
  PveVm :=
 { vm.setOptions (firewallOptions fw cfg) with ipset := some entries, rules }

variable {fw : FirewallConfig} {host : Option FirewallConfig}

theorem ends_syncFirewall : Ends (handle accepts) (syncFirewall text fw cfg) s (some u) t ↔
  (newAddresses text cfg s.entries).Nodup ∧ (insertions cfg).all accepts ∧
   t = synced fw cfg s (allEntries text cfg s) ((insertions cfg).reverse ++ s.keptRules) := by
 simp only [syncFirewall, ends_bind, ends_command, ends_ensureIpset, ends_removeRules, ends_addRules]
 constructor
 · rintro ⟨_, _, hopt, _, _, rfl, _, _, hadd, _, _, rfl, _, _, rfl, hall, rfl⟩
   cases hopt
   obtain ⟨hnodup, rfl⟩ := (ends_addAddresses rfl).mp hadd
   exact ⟨hnodup, hall, rfl⟩
 · rintro ⟨hnodup, hall, rfl⟩
   exact ⟨(), _, rfl, (), _, rfl, (), _, (ends_addAddresses rfl).mpr ⟨hnodup, rfl⟩, (), _, rfl, (), _, rfl, hall, rfl⟩

inductive Stage (text : IpText) (accepts : PveRule → Bool) (fw : FirewallConfig) (cfg : FullVmInfo) (s : PveVm) :
  PveVm → Prop
 | start : Stage text accepts fw cfg s s
 | options : Stage text accepts fw cfg s (s.setOptions (firewallOptions fw cfg))
 | addresses (k : Nat) (hnodup : ((newAddresses text cfg s.entries).take k).Nodup) :
   Stage text accepts fw cfg s (synced fw cfg s (s.entries ++ (newAddresses text cfg s.entries).take k) s.rules)
 | stale (k : Nat) (hnodup : (newAddresses text cfg s.entries).Nodup) :
   Stage text accepts fw cfg s (synced fw cfg s (allEntries text cfg s)
    (s.rules.take k ++ (s.rules.drop k).filter (!isStaleIpfilter ·)))
 | user (k : Nat) (hnodup : (newAddresses text cfg s.entries).Nodup) :
   Stage text accepts fw cfg s (synced fw cfg s (allEntries text cfg s)
    ((s.rules.filter (!isStaleIpfilter ·)).take k ++
     ((s.rules.filter (!isStaleIpfilter ·)).drop k).filter (!isUserRule ·)))
 | inserted (k : Nat) (hnodup : (newAddresses text cfg s.entries).Nodup)
   (hall : ((insertions cfg).take k).all accepts) :
   Stage text accepts fw cfg s (synced fw cfg s (allEntries text cfg s)
    (((insertions cfg).take k).reverse ++ s.keptRules))

theorem visits_syncFirewall (h : Visits (handle accepts) (syncFirewall text fw cfg) s t) :
  Stage text accepts fw cfg s t := by
 simp only [syncFirewall, visits_bind, ends_command, ends_ensureIpset, ends_removeRules, visits_command,
  visits_addRules] at h
 rcases h with (rfl | ⟨_, hopt⟩) | ⟨_, _, hopt, h⟩
 · exact .start
 · cases hopt
   exact .options
 cases hopt
 rcases h with h | ⟨_, _, rfl, h⟩
 · rcases visits_ensureIpset h with rfl | rfl
   · exact .options
   have hstart : Stage text accepts fw cfg s (synced fw cfg s (s.entries ++ (newAddresses text cfg s.entries).take 0)
     s.rules) := .addresses 0 List.nodup_nil
   rw [List.take_zero, List.append_nil] at hstart
   exact hstart
 rcases h with h | ⟨_, _, hadd, h⟩
 · obtain ⟨k, hnodup, rfl⟩ := (visits_addAddresses rfl).mp h
   exact .addresses k hnodup
 obtain ⟨hnodup, rfl⟩ := (ends_addAddresses rfl).mp hadd
 rcases h with h | ⟨_, _, rfl, h⟩
 · obtain ⟨k, rfl⟩ := visits_removeRules h
   exact .stale k hnodup
 rcases h with h | ⟨_, _, rfl, k, hall, rfl⟩
 · obtain ⟨k, rfl⟩ := visits_removeRules h
   exact .user k hnodup
 · exact .inserted k hnodup hall

theorem visits_addresses {k : Nat} (hnodup : ((newAddresses text cfg s.entries).take k).Nodup) :
  Visits (handle accepts) (syncFirewall text fw cfg) s
   (synced fw cfg s (s.entries ++ (newAddresses text cfg s.entries).take k) s.rules) := by
 simp only [syncFirewall, visits_bind, ends_command, ends_ensureIpset]
 exact .inr ⟨(), _, rfl, .inr ⟨(), _, rfl, .inl ((visits_addAddresses rfl).mpr ⟨k, hnodup, rfl⟩)⟩⟩

theorem visits_inserted {k : Nat} (hnodup : (newAddresses text cfg s.entries).Nodup)
  (hall : ((insertions cfg).take k).all accepts) :
  Visits (handle accepts) (syncFirewall text fw cfg) s
   (synced fw cfg s (allEntries text cfg s) (((insertions cfg).take k).reverse ++ s.keptRules)) := by
 simp only [syncFirewall, visits_bind, ends_command, ends_ensureIpset, ends_removeRules, visits_addRules]
 exact .inr ⟨(), _, rfl, .inr ⟨(), _, rfl, .inr ⟨(), _, (ends_addAddresses rfl).mpr ⟨hnodup, rfl⟩,
  .inr ⟨(), _, rfl, .inr ⟨(), _, rfl, k, hall, rfl⟩⟩⟩⟩⟩

theorem ends_patchFirewall : Ends (handle accepts) (patchFirewall text host cfg) s (some u) t ↔
  ∃ expected, makeConfig text cfg = some expected ∧
   match enabledFirewall host with
   | none => t = { s with ipConfig := some expected, enable := false }
   | some fw => (newAddresses text cfg s.entries).Nodup ∧ (insertions cfg).all accepts ∧
     t = { synced fw cfg s (allEntries text cfg s) ((insertions cfg).reverse ++ s.keptRules) with
      ipConfig := some expected } := by
 simp only [patchFirewall, ends_bind, ends_checkIpConfig]
 constructor
 · rintro ⟨_, _, ⟨expected, hmake, rfl⟩, h⟩
   refine ⟨expected, hmake, ?_⟩
   split at h
   · cases ends_command.mp h
     rfl
   · exact ends_syncFirewall.mp h
 · rintro ⟨expected, hmake, h⟩
   refine ⟨(), _, ⟨expected, hmake, rfl⟩, ?_⟩
   split at h
   · rw [h]
     exact ends_command.mpr rfl
   · exact ends_syncFirewall.mpr h

theorem visits_patchFirewall (h : Visits (handle accepts) (patchFirewall text host cfg) s t) :
  t = s ∨ ∃ expected, makeConfig text cfg = some expected ∧
   match enabledFirewall host with
   | none => t = { s with ipConfig := some expected } ∨ t = { s with ipConfig := some expected, enable := false }
   | some fw => Stage text accepts fw cfg { s with ipConfig := some expected } t := by
 simp only [patchFirewall, visits_bind, ends_checkIpConfig] at h
 rcases h with h | ⟨_, _, ⟨expected, hmake, rfl⟩, h⟩
 · rcases visits_checkIpConfig h with rfl | ⟨expected, hmake, rfl⟩
   · exact .inl rfl
   refine .inr ⟨expected, hmake, ?_⟩
   split
   · exact .inl rfl
   · exact .start
 · refine .inr ⟨expected, hmake, ?_⟩
   split at h
   · rcases visits_command.mp h with rfl | ⟨_, hopt⟩
     · exact .inl rfl
     · cases hopt
       exact .inr rfl
   · exact visits_syncFirewall h

theorem visits_patchFirewall_of_sync {expected : String} (hmake : makeConfig text cfg = some expected)
  (hfw : enabledFirewall host = some fw)
  (h : Visits (handle accepts) (syncFirewall text fw cfg) { s with ipConfig := some expected } t) :
  Visits (handle accepts) (patchFirewall text host cfg) s t := by
 simp only [patchFirewall, visits_bind, ends_checkIpConfig, hfw]
 exact .inr ⟨(), _, ⟨expected, hmake, rfl⟩, h⟩

def sentPolicy (fw : FirewallConfig) (cfg : FullVmInfo) (d : FirewallDirection) : Option FirewallAction :=
 (cfg.fwPolicy d).or (fw.policy d)

def nextPolicy (fw : FirewallConfig) (cfg : FullVmInfo) (s : PveVm) (d : FirewallDirection) : FirewallAction :=
 (sentPolicy fw cfg d).getD (s.policy d)

theorem enable_of_enabledFirewall (h : enabledFirewall host = some fw) : fw.enable = some true := by
 obtain ⟨-, hfw⟩ := filter_eq_some_iff.mp h
 cases henable : fw.enable with
 | none => simp [henable] at hfw
 | some b =>
  cases b with
  | false => simp [henable] at hfw
  | true => rfl

theorem verdict_synced (henable : fw.enable = some true) (reading : Reading) (entries : List String)
  (rules : List PveRule) (p : Packet) : (synced fw cfg s entries rules).verdict reading p =
   FirstMatch.verdict (PveRule.hits reading entries p) (·.action) (nextPolicy fw cfg s p.direction) rules := by
 have hpolicy : (synced fw cfg s entries rules).policy p.direction = nextPolicy fw cfg s p.direction := by
  cases p.direction with
  | inbound =>
   change (((cfg.fwPolicyIn.or fw.policyIn).or s.policyIn).getD _) = (cfg.fwPolicyIn.or fw.policyIn).getD _
   cases cfg.fwPolicyIn.or fw.policyIn <;> rfl
  | outbound =>
   change (((cfg.fwPolicyOut.or fw.policyOut).or s.policyOut).getD _) = (cfg.fwPolicyOut.or fw.policyOut).getD _
   cases cfg.fwPolicyOut.or fw.policyOut <;> rfl
 have henabled : (synced fw cfg s entries rules).enable = true := by
  change fw.enable.getD s.enable = true
  rw [henable]
  rfl
 rw [PveVm.verdict, if_pos henabled, hpolicy]
 rfl

theorem exec_checkIpConfig {expected : String} (h : makeConfig text cfg = some expected) :
  exec (handle accepts) (checkIpConfig text cfg) s = (some (), { s with ipConfig := some expected }) := by
 rw [checkIpConfig, exec_bind_of (exec_command rfl), h, exec_bind_of rfl]
 split
 · exact exec_command rfl
 · rename_i hsame
   rw [← not_not.mp hsame]
   rfl

theorem exec_ensureIpset : exec (handle accepts) ensureIpset s = (some (), { s with ipset := some s.entries }) := by
 have hlist := exec_attempt (handle accepts) .listVmIpsetEntries s
 rw [handle] at hlist
 cases hset : s.ipset with
 | none =>
  rw [hset] at hlist
  rw [ensureIpset, exec_bind_of hlist, PveVm.entries, hset]
  exact exec_command (by rw [handle, hset]; rfl)
 | some entries =>
  rw [hset] at hlist
  rw [ensureIpset, exec_bind_of hlist, if_neg (by simp), PveVm.entries, hset, getD_some, ← hset]
  rfl

theorem exec_addAddresses {entries : List String} (hs : s.ipset = some entries)
  (hnodup : (newAddresses text cfg entries).Nodup) : exec (handle accepts) (addAddresses text cfg) s =
   (some (), { s with ipset := some (entries ++ newAddresses text cfg entries) }) := by
 rw [addAddresses, exec_bind_of (exec_command ((listVmIpsetEntries_eq hs).mpr ⟨rfl, rfl⟩))]
 exact exec_all ((after_newAddresses hs (.refl _)).trans (if_pos hnodup))

theorem exec_removeRules (p : PveRule → Bool) :
  exec (handle accepts) (removeRules p) s = (some (), { s with rules := s.rules.filter (!p ·) }) := by
 have herase := eraseEach_descending (p := p) s.rules []
 rw [List.append_nil, List.append_nil] at herase
 exact exec_all (by rw [after_deleteVmFirewallRule, herase]; rfl)

theorem exec_addRules (hall : (insertions cfg).all accepts) : exec (handle accepts) (addRules cfg) s =
  (some (), { s with rules := (insertions cfg).reverse ++ s.rules }) :=
 exec_all ((after_addVmFirewallRule _).trans (if_pos hall))

theorem exec_syncFirewall (hnodup : (newAddresses text cfg s.entries).Nodup) (hall : (insertions cfg).all accepts) :
  exec (handle accepts) (syncFirewall text fw cfg) s =
   (some (), synced fw cfg s (allEntries text cfg s) ((insertions cfg).reverse ++ s.keptRules)) := by
 rw [syncFirewall, exec_bind_of (exec_command rfl), exec_bind_of exec_ensureIpset,
  exec_bind_of (exec_addAddresses rfl hnodup), exec_bind_of (exec_removeRules _), exec_bind_of (exec_removeRules _),
  exec_addRules hall]
 rfl

theorem exec_patchFirewall : (exec (handle accepts) (patchFirewall text host cfg) s).1 = some () ↔
  (makeConfig text cfg).isSome ∧ ((enabledFirewall host).isSome →
   (newAddresses text cfg s.entries).Nodup ∧ (insertions cfg).all accepts) := by
 constructor
 · intro h
   have hends := exec_ends (handle accepts) (patchFirewall text host cfg) s
   rw [h] at hends
   obtain ⟨expected, hmake, hsync⟩ := ends_patchFirewall.mp hends
   refine ⟨by rw [hmake]; rfl, fun hfw => ?_⟩
   obtain ⟨fw, hfw⟩ := isSome_iff_exists.mp hfw
   rw [hfw] at hsync
   exact ⟨hsync.1, hsync.2.1⟩
 · rintro ⟨hmake, hsync⟩
   obtain ⟨expected, hmake⟩ := isSome_iff_exists.mp hmake
   rw [patchFirewall, exec_bind_of (exec_checkIpConfig hmake)]
   cases hfw : enabledFirewall host with
   | none => rfl
   | some fw =>
    obtain ⟨hnodup, hall⟩ := hsync (by rw [hfw]; rfl)
    exact congrArg Prod.fst (exec_syncFirewall (s := { s with ipConfig := some expected }) hnodup hall)

end Lnvps.Pve
