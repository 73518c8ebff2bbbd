import Lnvps.VmFirewall

/-! # The firewall while it is applied again -/

namespace Lnvps.VmFirewall

open Net Steps Remote Pve List FirstMatch

variable {text : IpText} {reading : Reading} {db : FirewallDb} {cfg : FullVmInfo} {host : Option FirewallConfig}
 {fw : FirewallConfig} {s t : PveVm} {p : Packet}

def between (reading : Reading) (fw : FirewallConfig) (cfg : FullVmInfo) (s : PveVm) (p : Packet)
  (entries : List String) (rules : List PveRule) : FirewallAction :=
 FirstMatch.verdict (PveRule.hits reading entries p) (·.action) (nextPolicy fw cfg s p.direction) rules

def KeptOut (text : IpText) (reading : Reading) (host : Option FirewallConfig) (cfg : FullVmInfo) (s : PveVm)
  (p : Packet) : Prop :=
 cfg.hasResources = false ∨ ∃ fw, enabledFirewall host = some fw ∧
  (∀ k, ((newAddresses text cfg s.entries).take k).Nodup →
   between reading fw cfg s p (s.entries ++ (newAddresses text cfg s.entries).take k) s.rules ≠ .accept) ∧
  ((newAddresses text cfg s.entries).Nodup →
   between reading fw cfg s p (allEntries text cfg s) s.keptRules ≠ .accept ∧
   ∀ r ∈ cfg.firewallRules, ruleMatches reading p r → r.action ≠ .accept)

def ShutBefore (reading : Reading) (s : PveVm) (p : Packet) : Prop := s.verdict reading p ≠ .accept

def ShutAfter (reading : Reading) (db : FirewallDb) (vmId : Nat) (host : Option FirewallConfig) (cfg : FullVmInfo)
  (p : Packet) : Prop :=
 ¬ Decides reading (db.vmRules vmId) (customerPolicy host cfg p.direction) p .accept

def NeverOpens (text : IpText) (reading : Reading) (db : FirewallDb) (vmId : Nat) (host : Option FirewallConfig)
  (cfg : FullVmInfo) (s : PveVm) (p : Packet) : Prop :=
 ShutBefore reading s p → ShutAfter reading db vmId host cfg p →
 ∀ accepts t, Visits (handle accepts) (patchFirewall text host cfg) s t → t.verdict reading p ≠ .accept

theorem verdict_options (henable : fw.enable = some true) :
  (s.setOptions (firewallOptions fw cfg)).verdict reading p = between reading fw cfg s p s.entries s.rules :=
 verdict_synced henable reading s.entries s.rules p

theorem stale_accepts {r : PveRule} (h : (!isStaleIpfilter r) = false) : r.action = .accept := by
 have hstale : isStaleIpfilter r = true := by simpa using h
 exact (of_decide_eq_true hstale).1

theorem insertions_ne_accept (hvalid : ∀ r ∈ cfg.firewallRules, Valid reading r) {entries : List String}
  (hrules : ∀ r ∈ cfg.firewallRules, ruleMatches reading p r → r.action ≠ .accept) :
  ∀ q ∈ (insertions cfg).reverse, PveRule.hits reading entries p q = true → q.action ≠ .accept := by
 intro q hq hhit
 obtain ⟨r, hr, hq⟩ := mem_insertions.mp (mem_reverse.mp hq)
 have hmatch : ruleMatches reading p r = true := by
  rw [← any_hits (hvalid r hr) entries p]
  exact any_eq_true.mpr ⟨q, hq, hhit⟩
 rw [action_of_mem_toPve hq]
 exact hrules r hr hmatch

theorem stage_ne_accept {accepts : PveRule → Bool} (henable : fw.enable = some true)
  (hvalid : ∀ r ∈ cfg.firewallRules, Valid reading r) (hold : s.verdict reading p ≠ .accept)
  (haddresses : ∀ k, ((newAddresses text cfg s.entries).take k).Nodup →
   between reading fw cfg s p (s.entries ++ (newAddresses text cfg s.entries).take k) s.rules ≠ .accept)
  (hafter : (newAddresses text cfg s.entries).Nodup →
   between reading fw cfg s p (allEntries text cfg s) s.keptRules ≠ .accept ∧
   ∀ r ∈ cfg.firewallRules, ruleMatches reading p r → r.action ≠ .accept)
  (h : Stage text accepts fw cfg s t) : t.verdict reading p ≠ .accept := by
 have hall : (newAddresses text cfg s.entries).Nodup →
   between reading fw cfg s p (allEntries text cfg s) s.rules ≠ .accept := by
  intro hnodup
  have hlength := haddresses (newAddresses text cfg s.entries).length
  rw [take_length] at hlength
  exact hlength hnodup
 have hstale : (newAddresses text cfg s.entries).Nodup →
   between reading fw cfg s p (allEntries text cfg s) (s.rules.filter (!isStaleIpfilter ·)) ≠ .accept := by
  intro hnodup
  exact verdict_filter_ne (fun r _ hr => stale_accepts hr) (hall hnodup)
 cases h with
 | start => exact hold
 | options =>
  rw [verdict_options henable]
  have hzero := haddresses 0 nodup_nil
  rw [take_zero, append_nil] at hzero
  exact hzero
 | addresses k hnodup =>
  rw [verdict_synced henable]
  exact haddresses k hnodup
 | stale k hnodup =>
  rw [verdict_synced henable]
  exact verdict_take_filter_ne k (hall hnodup) (hstale hnodup)
 | user k hnodup =>
  rw [verdict_synced henable]
  exact verdict_take_filter_ne k (hstale hnodup) (hafter hnodup).1
 | inserted k hnodup _ =>
  rw [verdict_synced henable, reverse_take]
  obtain ⟨hkept, hrules⟩ := hafter hnodup
  exact verdict_drop_append_ne _ (insertions_ne_accept hvalid hrules) hkept

theorem keptOut_of_visits (henable : fw.enable = some true) (hvalid : ∀ r ∈ cfg.firewallRules, Valid reading r)
  (h : ∀ t, Visits (handle fun _ => true) (syncFirewall text fw cfg) s t → t.verdict reading p ≠ .accept) :
  (∀ k, ((newAddresses text cfg s.entries).take k).Nodup →
   between reading fw cfg s p (s.entries ++ (newAddresses text cfg s.entries).take k) s.rules ≠ .accept) ∧
  ((newAddresses text cfg s.entries).Nodup →
   between reading fw cfg s p (allEntries text cfg s) s.keptRules ≠ .accept ∧
   ∀ r ∈ cfg.firewallRules, ruleMatches reading p r → r.action ≠ .accept) := by
 have hinserted : (newAddresses text cfg s.entries).Nodup → ∀ k, between reading fw cfg s p (allEntries text cfg s)
   (((insertions cfg).take k).reverse ++ s.keptRules) ≠ .accept := by
  intro hnodup k
  have hk := h _ (visits_inserted (k := k) hnodup (by simp))
  rw [verdict_synced henable] at hk
  exact hk
 refine ⟨fun k hnodup => ?_, fun hnodup => ⟨?_, fun r hr hmatch haccept => ?_⟩⟩
 · have hk := h _ (visits_addresses hnodup)
   rw [verdict_synced henable] at hk
   exact hk
 · exact hinserted hnodup 0
 rw [← any_hits (hvalid r hr) (allEntries text cfg s) p] at hmatch
 obtain ⟨q, hq, hhit⟩ := any_eq_true.mp hmatch
 have hmem : q ∈ (insertions cfg).reverse := mem_reverse.mpr (mem_insertions.mpr ⟨r, hr, hq⟩)
 obtain ⟨k, hk⟩ := exists_drop_append_eq PveRule.action (nextPolicy fw cfg s p.direction) s.keptRules
  hmem hhit
 rw [drop_reverse, action_of_mem_toPve hq, haccept] at hk
 exact hinserted hnodup _ hk

theorem never_opens_iff (text : IpText) (reading : Reading) {start db : FirewallDb} {reqs : List Request}
  (hstart : start.rules = []) (hrun : Run (step reading) start reqs db) (vm : FirewallVm) (ips : List VmIpAssignment)
  (ranges : List IpRange) (hasResources : Bool) (host : Option FirewallConfig) (s : PveVm) (p : Packet) :
  NeverOpens text reading db vm.id host (fullVmInfo db vm ips ranges hasResources) s p ↔
   (ShutBefore reading s p →
    ShutAfter reading db vm.id host (fullVmInfo db vm ips ranges hasResources) p →
    KeptOut text reading host (fullVmInfo db vm ips ranges hasResources) s p) := by
 have hi := run_inv hstart hrun
 obtain ⟨cfg, hcfg⟩ : ∃ cfg, cfg = fullVmInfo db vm ips ranges hasResources := ⟨_, rfl⟩
 have hvalid : ∀ r ∈ cfg.firewallRules, Valid reading r := by
  rw [hcfg]
  exact hi.valid_listed
 rw [← hcfg]
 constructor
 · intro h hold hnew
   have hvisits := h hold hnew (fun _ => true)
   cases hmake : makeConfig text cfg with
   | none =>
    refine .inl ?_
    rw [← makeConfig_isSome text, hmake]
    rfl
   | some expected =>
    refine .inr ?_
    cases hfw : enabledFirewall host with
    | none =>
     have hends : Ends (handle fun _ => true) (patchFirewall text host cfg) s (some ())
       { s with ipConfig := some expected, enable := false } := by
      refine ends_patchFirewall.mpr ⟨expected, hmake, ?_⟩
      rw [hfw]
     exact absurd rfl (hvisits _ hends.visits)
    | some fw =>
     refine ⟨fw, rfl, ?_⟩
     exact keptOut_of_visits (s := { s with ipConfig := some expected }) (enable_of_enabledFirewall hfw) hvalid
      fun t ht => hvisits t (visits_patchFirewall_of_sync hmake hfw ht)
 · intro h hold hnew accepts t ht
   rcases visits_patchFirewall ht with rfl | ⟨expected, hmake, hstage⟩
   · exact hold
   rcases h hold hnew with hresources | ⟨fw, hfw, haddresses, hafter⟩
   · rw [← makeConfig_isSome text, hmake] at hresources
     cases hresources
   · rw [hfw] at hstage
     exact stage_ne_accept (s := { s with ipConfig := some expected }) (enable_of_enabledFirewall hfw) hvalid hold
      haddresses hafter hstage

def addrOf (value : Fin 256) : Addr := ⟨.v4, value, by have := value.isLt; change (value : Nat) < 2 ^ 32; omega⟩

def inboundTcp (port : Fin 65536) : Packet where
 direction := .inbound
 transport := .tcp port
 src := addrOf 1
 dst := addrOf 2

theorem never_opens_iff_web : ∃ db, Run (step plainReading) oneVm [.create 7 1 sshRule] db ∧
  NeverOpens Provisioning.plainText plainReading db closedVm.id (some enabledHost)
   (fullVmInfo db closedVm [] [] true) { enable := true } (inboundTcp 80) := by
 obtain ⟨db, hrun, hrules⟩ : ∃ db, Run (step plainReading) oneVm [.create 7 1 sshRule] db ∧
   ∀ r ∈ db.listVmFirewallRules 1, ruleMatches plainReading (inboundTcp 80) r → r.action ≠ .accept :=
  Run.exists_of_exec (by decide +kernel)
 refine ⟨db, hrun, (never_opens_iff Provisioning.plainText plainReading rfl hrun closedVm [] [] true
  (some enabledHost) { enable := true } (inboundTcp 80)).mpr fun _ _ => .inr ⟨enabledHost, rfl, ?_, ?_⟩⟩
 · intro k _
   exact nofun
 · intro _
   exact ⟨nofun, hrules⟩

def openVm : FirewallVm where
 id := 1
 userId := 7
 fwPolicyIn := some .accept

def blockSsh : CreateVmFirewallRule where
 direction := .inbound
 protocol := .tcp
 action := .drop
 dstPortStart := some 22

def blockSshOnHost : PveRule where
 action := .drop
 comment := some "lnvps-fw:1"
 dport := some "22"
 enable := some 1
 proto := some "tcp"

def blockedSsh : PveVm where
 enable := true
 policyIn := some .accept
 ipset := some []
 rules := [blockSshOnHost]

/-- The rule that keeps a packet out is the same before and after, and is missing in between. -/
theorem open_after_deletion : ∃ db t, Run (step plainReading) { vms := [openVm] } [.create 7 1 blockSsh] db ∧
  ShutBefore plainReading blockedSsh (inboundTcp 22) ∧
  ShutAfter plainReading db 1 (some enabledHost) (fullVmInfo db openVm [] [] true) (inboundTcp 22) ∧
  Visits (handle fun _ => true)
   (patchFirewall Provisioning.plainText (some enabledHost) (fullVmInfo db openVm [] [] true)) blockedSsh t ∧
  t.verdict plainReading (inboundTcp 22) = .accept := by
 obtain ⟨db, hrun, hdrop⟩ : ∃ db, Run (step plainReading) { vms := [openVm] } [.create 7 1 blockSsh] db ∧
   FirstMatch.verdict (ruleMatches plainReading (inboundTcp 22)) (·.action) .accept
    (db.listVmFirewallRules 1) = .drop :=
  Run.exists_of_exec (by decide +kernel)
 have hshut : blockedSsh.verdict plainReading (inboundTcp 22) ≠ .accept := by decide +kernel
 have hkept : blockedSsh.keptRules = [] := by decide +kernel
 refine ⟨db, _, hrun, hshut, ?_, visits_patchFirewall_of_sync rfl rfl
  (visits_inserted (k := 0) List.nodup_nil rfl), ?_⟩
 · intro haccept
   have heq := (decides_iff (run_inv rfl hrun)).mp haccept
   exact absurd (hdrop.symm.trans heq) nofun
 rw [verdict_synced rfl]
 change FirstMatch.verdict _ _ _ ([] ++ blockedSsh.keptRules) = _
 rw [hkept]
 rfl

end Lnvps.VmFirewall
