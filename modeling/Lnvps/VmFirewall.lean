import Lnvps.Lib.Outcome
import Lnvps.Pve

/-! # The customer's firewall -/

namespace Lnvps.VmFirewall

open Net Table Steps Outcome Remote Pve List Option Except FirstMatch

structure FirewallVm where
 (id userId : Nat)
 deleted : Bool := false
 (templateId customTemplateId : Option Nat := none)
 (fwPolicyIn fwPolicyOut : Option FirewallAction := none)

structure TemplateLimit where
 id : Nat
 firewallRuleLimit : Option Nat := none

structure FirewallDb where
 vms : List FirewallVm := []
 (templates customTemplates : List TemplateLimit := [])
 rules : List VmFirewallRule := []
 nextId : Nat := 1
 queue : List Nat := []

def evaluatedBefore (a b : VmFirewallRule) : Prop := a.priority < b.priority ∨ a.priority = b.priority ∧ a.id ≤ b.id

instance : DecidableRel evaluatedBefore := fun a b =>
 inferInstanceAs (Decidable (a.priority < b.priority ∨ a.priority = b.priority ∧ a.id ≤ b.id))

namespace FirewallDb

variable (db : FirewallDb)

def getVm (id : Nat) : Option FirewallVm := lookup (·.id) id db.vms

def getVmFirewallRule (id : Nat) : Option VmFirewallRule := lookup (·.id) id db.rules

def vmRules (vmId : Nat) : List VmFirewallRule := db.rules.filter fun r => r.vmId = vmId

def listVmFirewallRules (vmId : Nat) : List VmFirewallRule := (db.vmRules vmId).insertionSort evaluatedBefore

def insertVmFirewallRule (rule : VmFirewallRule) : FirewallDb := { db with
 rules := db.rules ++ [{ rule with id := db.nextId }]
 nextId := db.nextId + 1 }

def updateVmFirewallRule (rule : VmFirewallRule) : FirewallDb := { db with
 rules := updateWhere (fun r => r.id = rule.id) (fun r => { rule with id := r.id, vmId := r.vmId }) db.rules }

def deleteVmFirewallRule (id : Nat) : FirewallDb := { db with rules := db.rules.filter fun r => r.id ≠ id }

def updateVmFirewallPolicy (vmId : Nat) (policyIn policyOut : Option FirewallAction) : FirewallDb := { db with
 vms := updateWhere (fun v => v.id = vmId)
  (fun v => { v with fwPolicyIn := policyIn, fwPolicyOut := policyOut }) db.vms }

def applyFirewall (vmId : Nat) : FirewallDb := { db with queue := db.queue ++ [vmId] }

end FirewallDb

inductive ApiError
 | forbidden (message : String)
 | notFound (message : String)
 | error (message : String)

def resourceNotFound : ApiError := .notFound "Resource not found"

structure CreateVmFirewallRule where
 priority : Nat := 0
 direction : FirewallDirection
 protocol : FirewallProtocol
 action : FirewallAction
 srcCidr : Option String := none
 (dstPortStart dstPortEnd : Option Nat := none)
 enabled : Option Bool := none

structure PatchVmFirewallRule where
 priority : Option Nat := none
 direction : Option FirewallDirection := none
 protocol : Option FirewallProtocol := none
 action : Option FirewallAction := none
 srcCidr : Option (Option String) := none
 (dstPortStart dstPortEnd : Option (Option Nat) := none)
 enabled : Option Bool := none

structure PatchVmFirewallPolicy where
 (policyIn policyOut : Option (Option FirewallAction) := none)

variable (reading : Reading)

def validateFirewallCidr (cidr : String) : Except ApiError Unit :=
 ensure (reading.cidr cidr).isSome (.error ("Invalid src_cidr: " ++ cidr))

def validatePort (p : Nat) : Except ApiError Unit :=
 ensure (p ≠ 0 ∧ p ≤ 65535) (.error ("Port out of range (1-65535): " ++ toString p))

def validateFirewallPorts : Option Nat → Option Nat → Except ApiError (Option Nat × Option Nat)
 | none, none => .ok (none, none)
 | some s, none => do
  validatePort s
  return (some s, none)
 | none, some _ => .error (.error "dst_port_end set without dst_port_start")
 | some s, some e => do
  validatePort s
  validatePort e
  ensure (s ≤ e) (.error "dst_port_start must be <= dst_port_end")
  return (some s, some e)

def getUserVm (db : FirewallDb) (uid vmId : Nat) : Except ApiError FirewallVm := do
 let vm ← ofOption resourceNotFound (db.getVm vmId)
 ensure (uid = vm.userId) (.forbidden "VM does not belong to you")
 ensure (!vm.deleted) (.notFound "VM not found")
 return vm

def defaultFirewallRuleLimit : Nat := 20

def vmFirewallRuleLimit (db : FirewallDb) (vm : FirewallVm) : Except ApiError Nat := do
 let limit ← (match vm.templateId, vm.customTemplateId with
  | some t, _ => (ofOption resourceNotFound (lookup (·.id) t db.templates)).map (·.firewallRuleLimit)
  | none, some t => (ofOption resourceNotFound (lookup (·.id) t db.customTemplates)).map (·.firewallRuleLimit)
  | none, none => .ok none)
 return limit.getD defaultFirewallRuleLimit

def v1CreateFirewallRule (db : FirewallDb) (uid vmId : Nat) (req : CreateVmFirewallRule) :
  Except ApiError FirewallDb := do
 let vm ← getUserVm db uid vmId
 let limit ← vmFirewallRuleLimit db vm
 ensure ((db.listVmFirewallRules vm.id).length % 2 ^ 16 < limit)
  (.error ("Firewall rule limit reached (" ++ toString limit ++ ")"))
 req.srcCidr.forM (validateFirewallCidr reading)
 let (dstPortStart, dstPortEnd) ← validateFirewallPorts req.dstPortStart req.dstPortEnd
 let rule : VmFirewallRule :=
  { id := 0
    vmId := vm.id
    priority := req.priority
    direction := req.direction
    protocol := req.protocol
    action := req.action
    srcCidr := req.srcCidr
    dstPortStart
    dstPortEnd
    enabled := req.enabled.getD true }
 return (db.insertVmFirewallRule rule).applyFirewall vm.id

def getOwnRule (db : FirewallDb) (vm : FirewallVm) (ruleId : Nat) : Except ApiError VmFirewallRule := do
 let rule ← ofOption resourceNotFound (db.getVmFirewallRule ruleId)
 ensure (rule.vmId = vm.id) (.notFound "Firewall rule does not belong to this VM")
 return rule

def PatchVmFirewallRule.apply (req : PatchVmFirewallRule) (rule : VmFirewallRule) : VmFirewallRule := { rule with
 priority := req.priority.getD rule.priority
 direction := req.direction.getD rule.direction
 protocol := req.protocol.getD rule.protocol
 action := req.action.getD rule.action
 srcCidr := req.srcCidr.getD rule.srcCidr
 dstPortStart := req.dstPortStart.getD rule.dstPortStart
 dstPortEnd := req.dstPortEnd.getD rule.dstPortEnd
 enabled := req.enabled.getD rule.enabled }

def v1PatchFirewallRule (db : FirewallDb) (uid vmId ruleId : Nat) (req : PatchVmFirewallRule) :
  Except ApiError FirewallDb := do
 let vm ← getUserVm db uid vmId
 let rule ← getOwnRule db vm ruleId
 req.srcCidr.join.forM (validateFirewallCidr reading)
 let rule := req.apply rule
 let (dstPortStart, dstPortEnd) ← validateFirewallPorts rule.dstPortStart rule.dstPortEnd
 return (db.updateVmFirewallRule { rule with dstPortStart, dstPortEnd }).applyFirewall vm.id

def v1DeleteFirewallRule (db : FirewallDb) (uid vmId ruleId : Nat) : Except ApiError FirewallDb := do
 let vm ← getUserVm db uid vmId
 let rule ← getOwnRule db vm ruleId
 return (db.deleteVmFirewallRule rule.id).applyFirewall vm.id

def v1PatchFirewallPolicy (db : FirewallDb) (uid vmId : Nat) (req : PatchVmFirewallPolicy) :
  Except ApiError FirewallDb := do
 let vm ← getUserVm db uid vmId
 let policyIn := req.policyIn.getD vm.fwPolicyIn
 let policyOut := req.policyOut.getD vm.fwPolicyOut
 return (db.updateVmFirewallPolicy vm.id policyIn policyOut).applyFirewall vm.id

inductive Request
 | create (uid vmId : Nat) (req : CreateVmFirewallRule)
 | patch (uid vmId ruleId : Nat) (req : PatchVmFirewallRule)
 | delete (uid vmId ruleId : Nat)
 | policy (uid vmId : Nat) (req : PatchVmFirewallPolicy)

def respond (db : FirewallDb) : Request → Except ApiError FirewallDb
 | .create uid vmId req => v1CreateFirewallRule reading db uid vmId req
 | .patch uid vmId ruleId req => v1PatchFirewallRule reading db uid vmId ruleId req
 | .delete uid vmId ruleId => v1DeleteFirewallRule db uid vmId ruleId
 | .policy uid vmId req => v1PatchFirewallPolicy db uid vmId req

def step (db : FirewallDb) (req : Request) : Option FirewallDb := (respond reading db req).toOption

structure Valid (reading : Reading) (rule : VmFirewallRule) : Prop where
 cidr : ∀ c ∈ rule.srcCidr, (reading.cidr c).isSome
 ports : validateFirewallPorts rule.dstPortStart rule.dstPortEnd = .ok (rule.dstPortStart, rule.dstPortEnd)

structure Inv (reading : Reading) (db : FirewallDb) : Prop where
 keyed : Keyed (·.id) db.rules
 fresh : ∀ r ∈ db.rules, r.id < db.nextId
 valid : ∀ r ∈ db.rules, Valid reading r

variable {reading} {db db' : FirewallDb}

theorem forM_validateFirewallCidr {src : Option String} (h : src.forM (validateFirewallCidr reading) = .ok ()) :
  ∀ c ∈ src, (reading.cidr c).isSome := by
 rintro c rfl
 exact ensure_eq_ok.mp h

theorem validateFirewallPorts_eq {start stop : Option Nat} {ports : Option Nat × Option Nat}
  (h : validateFirewallPorts start stop = .ok ports) : ports = (start, stop) := by
 cases start with
 | none =>
  cases stop with
  | none => exact (ok.inj h).symm
  | some e => cases h
 | some s =>
  cases stop with
  | none =>
   obtain ⟨-, -, h⟩ := bind_eq_ok.mp h
   exact (ok.inj h).symm
  | some e =>
   obtain ⟨-, -, h⟩ := bind_eq_ok.mp h
   obtain ⟨-, -, h⟩ := bind_eq_ok.mp h
   obtain ⟨-, -, h⟩ := bind_eq_ok.mp h
   exact (ok.inj h).symm

theorem respond_effect {req : Request} (hvalid : ∀ r ∈ db.rules, Valid reading r)
  (h : respond reading db req = .ok db') :
  (∃ rule vmId, Valid reading rule ∧ db' = (db.insertVmFirewallRule rule).applyFirewall vmId) ∨
  (∃ rule vmId, Valid reading rule ∧ db' = (db.updateVmFirewallRule rule).applyFirewall vmId) ∨
  (∃ id vmId, db' = (db.deleteVmFirewallRule id).applyFirewall vmId) ∨
  ∃ vmId policyIn policyOut, db' = (db.updateVmFirewallPolicy vmId policyIn policyOut).applyFirewall vmId := by
 cases req with
 | create uid vmId req =>
  obtain ⟨vm, -, h⟩ := bind_eq_ok.mp h
  obtain ⟨limit, -, h⟩ := bind_eq_ok.mp h
  obtain ⟨-, -, h⟩ := bind_eq_ok.mp h
  obtain ⟨⟨⟩, hcidr, h⟩ := bind_eq_ok.mp h
  obtain ⟨ports, hports, h⟩ := bind_eq_ok.mp h
  obtain rfl := validateFirewallPorts_eq hports
  exact .inl ⟨_, vm.id, ⟨forM_validateFirewallCidr hcidr, hports⟩, (ok.inj h).symm⟩
 | patch uid vmId ruleId req =>
  obtain ⟨vm, -, h⟩ := bind_eq_ok.mp h
  obtain ⟨rule, hrule, h⟩ := bind_eq_ok.mp h
  obtain ⟨⟨⟩, hcidr, h⟩ := bind_eq_ok.mp h
  obtain ⟨ports, hports, h⟩ := bind_eq_ok.mp h
  obtain rfl := validateFirewallPorts_eq hports
  refine .inr (.inl ⟨req.apply rule, vm.id, ⟨?_, hports⟩, (ok.inj h).symm⟩)
  obtain ⟨rule', hget, hown⟩ := bind_eq_ok.mp hrule
  obtain ⟨-, -, hown⟩ := bind_eq_ok.mp hown
  obtain rfl := ok.inj hown
  have hold := hvalid rule' (mem_of_lookup (ofOption_eq_ok.mp hget))
  intro c hc
  cases hsrc : req.srcCidr with
  | none => exact hold.cidr c (by simpa [PatchVmFirewallRule.apply, hsrc] using hc)
  | some src =>
   rw [hsrc] at hcidr
   exact forM_validateFirewallCidr hcidr c (by simpa [PatchVmFirewallRule.apply, hsrc] using hc)
 | delete uid vmId ruleId =>
  obtain ⟨vm, -, h⟩ := bind_eq_ok.mp h
  obtain ⟨rule, -, h⟩ := bind_eq_ok.mp h
  exact .inr (.inr (.inl ⟨rule.id, vm.id, (ok.inj h).symm⟩))
 | policy uid vmId req =>
  obtain ⟨vm, -, h⟩ := bind_eq_ok.mp h
  exact .inr (.inr (.inr ⟨vm.id, _, _, (ok.inj h).symm⟩))

theorem step_inv {req : Request} (hi : Inv reading db) (h : step reading db req = some db') : Inv reading db' := by
 have hok : respond reading db req = .ok db' := by
  rw [step] at h
  cases hr : respond reading db req with
  | error e => rw [hr] at h; cases h
  | ok d => rw [hr] at h; cases h; rfl
 obtain ⟨rule, vmId, hrule, rfl⟩ | ⟨rule, vmId, hrule, rfl⟩ | ⟨id, vmId, rfl⟩ | ⟨vmId, policyIn, policyOut, rfl⟩ :=
  respond_effect hi.valid hok
 · refine ⟨hi.keyed.snoc fun r hr => (hi.fresh r hr).ne, ?_, ?_⟩
   · intro r hr
     rcases mem_snoc.mp hr with hr | rfl
     · exact (hi.fresh r hr).trans (Nat.lt_succ_self _)
     · exact Nat.lt_succ_self _
   intro r hr
   rcases mem_snoc.mp hr with hr | rfl
   · exact hi.valid r hr
   · exact ⟨hrule.cidr, hrule.ports⟩
 · refine ⟨hi.keyed.updateWhere fun r _ _ => rfl, ?_, ?_⟩
   · intro r hr
     obtain ⟨r', hr', rfl⟩ := mem_updateWhere.mp hr
     split
     · exact hi.fresh r' hr'
     · exact hi.fresh r' hr'
   · intro r hr
     obtain ⟨r', hr', rfl⟩ := mem_updateWhere.mp hr
     split
     · exact ⟨hrule.cidr, hrule.ports⟩
     · exact hi.valid r' hr'
 · exact ⟨hi.keyed.sublist (filter_sublist.map _), fun r hr => hi.fresh r (mem_of_mem_filter hr),
    fun r hr => hi.valid r (mem_of_mem_filter hr)⟩
 · exact ⟨hi.keyed, hi.fresh, hi.valid⟩

theorem run_inv {start : FirewallDb} {reqs : List Request} (hstart : start.rules = [])
  (hrun : Run (step reading) start reqs db) : Inv reading db := by
 refine hrun.invariant (fun _ _ _ hi _ hs => step_inv hi hs) ?_
 constructor <;> simp [hstart, Keyed]

def FirewallProtocol.covers : FirewallProtocol → Transport → Bool
 | .any, _ => true
 | .tcp, t => t.name = "tcp"
 | .udp, t => t.name = "udp"
 | .icmp, t => t.name = "icmp"

variable (rule : VmFirewallRule)

def coversPort (t : Transport) : Bool :=
 rule.dstPortStart.all fun s => t.dport.any fun port => s ≤ port ∧ port ≤ rule.dstPortEnd.getD s

def ruleMatches (reading : Reading) (p : Packet) (rule : VmFirewallRule) : Bool :=
 rule.enabled && decide (rule.direction = p.direction) && FirewallProtocol.covers rule.protocol p.transport &&
 coversPort rule p.transport && rule.srcCidr.all fun c => inNetwork reading c p.src

def Decides (reading : Reading) (rules : List VmFirewallRule) (policy : FirewallAction) (p : Packet)
  (a : FirewallAction) : Prop :=
 (∃ r ∈ rules, ruleMatches reading p r ∧ (∀ r' ∈ rules, ruleMatches reading p r' → evaluatedBefore r r') ∧
  r.action = a) ∨
 (∀ r ∈ rules, ruleMatches reading p r = false) ∧ a = policy

variable {rule : VmFirewallRule} {p : Packet} {entries : List String}

theorem parsePort_toDigits (n : Nat) : parsePort (Nat.toDigits 10 n) = some n := by
 have hdigits : (Nat.toDigits 10 n).all Char.isDigit = true :=
  all_eq_true.mpr fun c hc => Nat.isDigit_of_mem_toDigits (by decide) (by decide) hc
 rw [parsePort, if_pos ⟨Nat.toDigits_ne_nil, hdigits⟩, Nat.ofDigitChars_ten_toDigits]

theorem ne_colon_of_mem_toDigits {n : Nat} {c : Char} (hc : c ∈ Nat.toDigits 10 n) : decide (c ≠ ':') = true := by
 refine decide_eq_true ?_
 rintro rfl
 exact absurd (Nat.isDigit_of_mem_toDigits (by decide) (by decide) hc) (by decide)

theorem parsePorts_port (n : Nat) : parsePorts n.repr = some (n, n) := by
 have hcolon : (Nat.toDigits 10 n).dropWhile (· ≠ ':') = [] := by
  rw [← append_nil (Nat.toDigits 10 n), dropWhile_append_of_pos fun c => ne_colon_of_mem_toDigits]
  rfl
 rw [parsePorts, Nat.toList_repr, hcolon, parsePort_toDigits]
 rfl

theorem parsePorts_range (n m : Nat) : parsePorts (n.repr ++ ":" ++ m.repr) = some (n, m) := by
 have hlist : (n.repr ++ ":" ++ m.repr).toList = Nat.toDigits 10 n ++ ':' :: Nat.toDigits 10 m := by
  rw [String.toList_append, String.toList_append, Nat.toList_repr, Nat.toList_repr, append_assoc]
  rfl
 have htake : (Nat.toDigits 10 n ++ ':' :: Nat.toDigits 10 m).takeWhile (· ≠ ':') = Nat.toDigits 10 n := by
  rw [takeWhile_append_of_pos fun c => ne_colon_of_mem_toDigits]
  simp
 have hdrop : (Nat.toDigits 10 n ++ ':' :: Nat.toDigits 10 m).dropWhile (· ≠ ':') = ':' :: Nat.toDigits 10 m := by
  rw [dropWhile_append_of_pos fun c => ne_colon_of_mem_toDigits]
  simp
 rw [parsePorts, hlist, hdrop]
 simp only [htake, parsePort_toDigits]
 rfl

theorem dportOf_all (t : Transport) : (dportOf rule).all (dportMatches · t) = coversPort rule t := by
 rw [dportOf, coversPort]
 cases rule.dstPortStart with
 | none => rfl
 | some s =>
  cases rule.dstPortEnd with
  | none => simp [dportMatches, parsePorts_port]
  | some e =>
   by_cases he : e = s
   · simp [he, dportMatches, parsePorts_port]
   · simp [he, dportMatches, parsePorts_range]

theorem dportOf_isSome : (dportOf rule).isSome = rule.dstPortStart.isSome := by
 rw [dportOf]
 split
 · split <;> simp [*]
 · simp [*]
 · simp [*]

theorem any_protosOf (t : Transport) :
  ((protosOf rule).any fun proto =>
   proto.all (· = t.name) && (proto.bind fun _ => dportOf rule).all (dportMatches · t)) =
   (FirewallProtocol.covers rule.protocol t && coversPort rule t) := by
 rw [← dportOf_all, protosOf]
 cases rule.protocol with
 | any =>
  cases hport : dportOf rule with
  | none => simp [FirewallProtocol.covers]
  | some ports => cases t <;> simp [FirewallProtocol.covers, Transport.name, Transport.dport, dportMatches]
 | tcp | udp | icmp => simp [FirewallProtocol.covers, eq_comm]

theorem any_hits (hvalid : Valid reading rule) (entries : List String) (p : Packet) :
  (toPveFirewallRules rule).any (PveRule.hits reading entries p) = ruleMatches reading p rule := by
 have hsource : rule.srcCidr.all (fun name => addrMatches reading entries name p.src) =
   rule.srcCidr.all fun c => inNetwork reading c p.src := by
  cases hsrc : rule.srcCidr with
  | none => rfl
  | some c =>
   have hne : c ≠ ipfilterSet := by
    rintro rfl
    have hsome := hvalid.cidr _ hsrc
    rw [reading.cidr_ipfilterSet] at hsome
    cases hsome
   simp [addrMatches, hne]
 have henable : (some (if rule.enabled then 1 else 0 : Int)).any (· ≠ 0) = rule.enabled := by
  cases rule.enabled <;> rfl
 have hhits : ∀ proto, PveRule.hits reading entries p
   { action := rule.action
     ruleType := rule.direction
     dport := proto.bind fun _ => dportOf rule
     proto
     source := rule.srcCidr
     enable := some (if rule.enabled then 1 else 0)
     comment := some (userFwMarker ++ ":" ++ toString rule.id) } =
   ((proto.all (· = p.transport.name) && (proto.bind fun _ => dportOf rule).all (dportMatches · p.transport)) &&
    (rule.enabled && decide (rule.direction = p.direction) &&
     rule.srcCidr.all fun c => inNetwork reading c p.src)) := by
  intro proto
  simp only [PveRule.hits, henable, hsource, all_none, Bool.and_true]
  ac_rfl
 rw [toPveFirewallRules, List.any_map, ruleMatches]
 simp only [Function.comp_def, hhits]
 rw [← and_any_distrib_right, any_protosOf]
 ac_rfl

theorem action_of_mem_toPve {q : PveRule} (h : q ∈ toPveFirewallRules rule) : q.action = rule.action := by
 obtain ⟨proto, -, rfl⟩ := mem_map.mp h
 rfl

variable {cfg : FullVmInfo}

theorem verdict_insertions (hvalid : ∀ r ∈ cfg.firewallRules, Valid reading r)
  (entries : List String) (policy : FirewallAction) :
  verdict (PveRule.hits reading entries p) (·.action) policy (insertions cfg).reverse =
   verdict (ruleMatches reading p) (·.action) policy cfg.firewallRules := by
 have hreverse : (insertions cfg).reverse = cfg.firewallRules.flatMap fun r => (toPveFirewallRules r).reverse := by
  rw [insertions, reverse_flatMap, reverse_reverse]
  rfl
 rw [hreverse]
 refine verdict_flatMap fun r hr => ⟨?_, fun q hq => action_of_mem_toPve (mem_reverse.mp hq)⟩
 rw [any_reverse]
 exact any_hits (hvalid r hr) entries p

variable {vmId : Nat} {rules : List VmFirewallRule} {a policy : FirewallAction} {accepts : PveRule → Bool}

theorem mem_listVmFirewallRules : rule ∈ db.listVmFirewallRules vmId ↔ rule ∈ db.vmRules vmId :=
 (perm_insertionSort _ _).mem_iff

theorem Inv.valid_listed (hi : Inv reading db) : ∀ r ∈ db.listVmFirewallRules vmId, Valid reading r :=
 fun r hr => hi.valid r (mem_of_mem_filter (mem_listVmFirewallRules.mp hr))

theorem evaluatedBefore_total (a b : VmFirewallRule) : evaluatedBefore a b ∨ evaluatedBefore b a := by
 unfold evaluatedBefore
 omega

theorem evaluatedBefore_trans {a b c : VmFirewallRule} (hab : evaluatedBefore a b) (hbc : evaluatedBefore b c) :
  evaluatedBefore a c := by
 unfold evaluatedBefore at *
 omega

theorem decides_of_sorted (hsorted : rules.Pairwise evaluatedBefore)
  (policy : FirewallAction) :
  Decides reading rules policy p (verdict (ruleMatches reading p) (·.action) policy rules) := by
 induction rules with
 | nil => exact .inr ⟨nofun, rfl⟩
 | cons r rules ih =>
  rw [verdict_cons]
  obtain ⟨hfirst, htail⟩ := pairwise_cons.mp hsorted
  cases hr : ruleMatches reading p r with
  | true =>
   rw [if_pos rfl]
   refine .inl ⟨r, mem_cons_self .., hr, fun r' hr' _ => ?_, rfl⟩
   rcases mem_cons.mp hr' with rfl | hr'
   · exact .inr ⟨rfl, Nat.le_refl _⟩
   · exact hfirst r' hr'
  | false =>
   rw [if_neg Bool.false_ne_true]
   rcases ih htail with ⟨q, hq, hmatch, hbefore, haction⟩ | ⟨hnone, hpolicy⟩
   · refine .inl ⟨q, mem_cons_of_mem _ hq, hmatch, fun r' hr' hmatch' => ?_, haction⟩
     rcases mem_cons.mp hr' with rfl | hr'
     · rw [hr] at hmatch'
       cases hmatch'
     · exact hbefore r' hr' hmatch'
   · refine .inr ⟨fun r' hr' => ?_, hpolicy⟩
     rcases mem_cons.mp hr' with rfl | hr'
     · exact hr
     · exact hnone r' hr'

theorem Decides.unique {b : FirewallAction} (hkeyed : Keyed (·.id) rules)
  (ha : Decides reading rules policy p a) (hb : Decides reading rules policy p b) : a = b := by
 rcases ha with ⟨r, hr, hmatch, hbefore, rfl⟩ | ⟨hnone, rfl⟩
 · rcases hb with ⟨r', hr', hmatch', hbefore', rfl⟩ | ⟨hnone, -⟩
   · have hid : r.id = r'.id := by
      have h₁ := hbefore r' hr' hmatch'
      have h₂ := hbefore' r hr hmatch
      unfold evaluatedBefore at h₁ h₂
      omega
     rw [hkeyed.eq_of_key hr hr' hid]
   · rw [hnone r hr] at hmatch
     cases hmatch
 · rcases hb with ⟨r', hr', hmatch', -⟩ | ⟨-, rfl⟩
   · rw [hnone r' hr'] at hmatch'
     cases hmatch'
   · rfl

instance : Std.Total evaluatedBefore := ⟨evaluatedBefore_total⟩

instance : IsTrans VmFirewallRule evaluatedBefore := ⟨fun _ _ _ => evaluatedBefore_trans⟩

theorem decides_iff (hi : Inv reading db) :
  Decides reading (db.vmRules vmId) policy p a ↔
   verdict (ruleMatches reading p) (·.action) policy (db.listVmFirewallRules vmId) = a := by
 have hkeyed : Keyed (·.id) (db.vmRules vmId) := hi.keyed.sublist (filter_sublist.map _)
 have hlisting : Decides reading (db.vmRules vmId) policy p
   (verdict (ruleMatches reading p) (·.action) policy (db.listVmFirewallRules vmId)) := by
  have hsorted : (db.listVmFirewallRules vmId).Pairwise evaluatedBefore := pairwise_insertionSort _ _
  simpa only [Decides, mem_listVmFirewallRules] using decides_of_sorted hsorted policy
 constructor
 · intro h
   exact hlisting.unique hkeyed h
 · rintro rfl
   exact hlisting

def fullVmInfo (db : FirewallDb) (vm : FirewallVm) (ips : List VmIpAssignment) (ranges : List IpRange)
  (hasResources : Bool) : FullVmInfo where
 ips
 ranges
 hasResources
 fwPolicyIn := vm.fwPolicyIn
 fwPolicyOut := vm.fwPolicyOut
 firewallRules := db.listVmFirewallRules vm.id

def customerPolicy (host : Option FirewallConfig) (cfg : FullVmInfo) (d : FirewallDirection) : FirewallAction :=
 ((cfg.fwPolicy d).or (host.bind (·.policy d))).getD (defaultPolicy d)

def AcceptsPorted (accepts : PveRule → Bool) : Prop :=
 ∀ r : PveRule, (r.dport.isSome → r.proto = some "tcp" ∨ r.proto = some "udp") → accepts r = true

def Enforceable (text : IpText) (reading : Reading) (host : Option FirewallConfig) (cfg : FullVmInfo) (s : PveVm) :
  Prop :=
 cfg.hasResources = true ∧
 match enabledFirewall host with
 | none => ∀ p, Decides reading cfg.firewallRules (customerPolicy host cfg p.direction) p .accept
 | some fw =>
  (∀ r ∈ cfg.firewallRules, r.protocol = .icmp → r.dstPortStart = none) ∧
  (newAddresses text cfg s.entries).Nodup ∧
  ∀ d, (sentPolicy fw cfg d).isSome ∨ s.policy d = defaultPolicy d ∨
   ∀ p : Packet, p.direction = d → ∃ r ∈ cfg.firewallRules, ruleMatches reading p r

def portedOnly (r : PveRule) : Bool := r.dport.isNone || decide (r.proto = some "tcp") || decide (r.proto = some "udp")

theorem acceptsPorted_portedOnly : AcceptsPorted portedOnly := by
 intro r h
 cases hport : r.dport with
 | none => simp [portedOnly, hport]
 | some ports =>
  rcases h (by rw [hport]; rfl) with hproto | hproto
  · simp [portedOnly, hproto]
  · simp [portedOnly, hproto]

theorem mem_insertions {q : PveRule} : q ∈ insertions cfg ↔ ∃ r ∈ cfg.firewallRules, q ∈ toPveFirewallRules r := by
 simp [insertions]

theorem all_insertions_iff :
  (∀ accepts, AcceptsPorted accepts → (insertions cfg).all accepts) ↔
   ∀ r ∈ cfg.firewallRules, r.protocol = .icmp → r.dstPortStart = none := by
 constructor
 · intro h r hr hicmp
   by_contra hport
   have hsome : (dportOf r).isSome := by
    rw [dportOf_isSome]
    exact isSome_iff_ne_none.mpr hport
   obtain ⟨q, hq, hdport, hproto⟩ : ∃ q ∈ toPveFirewallRules r, q.dport = dportOf r ∧ q.proto = some "icmp" := by
    rw [toPveFirewallRules, protosOf, hicmp]
    exact ⟨_, mem_singleton.mpr rfl, rfl, rfl⟩
   have haccept := all_eq_true.mp (h portedOnly acceptsPorted_portedOnly) q (mem_insertions.mpr ⟨r, hr, hq⟩)
   simp [portedOnly, hdport, hproto, isSome_iff_ne_none.mp hsome] at haccept
 · intro h accepts haccepts
   refine all_eq_true.mpr fun q hq => haccepts q fun hport => ?_
   obtain ⟨r, hr, hq⟩ := mem_insertions.mp hq
   obtain ⟨proto, hproto, rfl⟩ := mem_map.mp hq
   rw [protosOf] at hproto
   cases hp : r.protocol with
   | any =>
    rw [hp] at hproto
    cases hd : (dportOf r).isSome with
    | true => simpa [hd] using hproto
    | false =>
     rw [hd] at hproto
     simp only [Bool.false_eq_true, if_false, mem_singleton] at hproto
     rw [hproto] at hport
     cases hport
   | tcp =>
    rw [hp] at hproto
    exact .inl (mem_singleton.mp hproto)
   | udp =>
    rw [hp] at hproto
    exact .inr (mem_singleton.mp hproto)
   | icmp =>
    rw [hp] at hproto
    rw [mem_singleton.mp hproto, bind_some, dportOf_isSome, h r hr hp] at hport
    cases hport

variable {text : IpText} {cfg : FullVmInfo} {host : Option FirewallConfig} {fw : FirewallConfig} {s t : PveVm}

theorem makeConfig_isSome (text : IpText) (cfg : FullVmInfo) : (makeConfig text cfg).isSome = cfg.hasResources := by
 rw [makeConfig]
 cases cfg.hasResources <;> rfl

theorem keptRules_eq_nil (hold : ∀ r ∈ s.rules, isUserRule r = true ∨ isStaleIpfilter r = true) : s.keptRules = [] := by
 rw [PveVm.keptRules, filter_eq_nil_iff]
 intro r hr
 obtain ⟨hr, hstale⟩ := mem_filter.mp hr
 rcases hold r hr with huser | h
 · simp [huser]
 · simp [h] at hstale

theorem verdict_of_ends (hvalid : ∀ r ∈ cfg.firewallRules, Valid reading r)
  (hfw : enabledFirewall host = some fw) (hold : ∀ r ∈ s.rules, isUserRule r = true ∨ isStaleIpfilter r = true)
  (h : Ends (handle accepts) (patchFirewall text host cfg) s (some ()) t) : t.verdict reading p =
   verdict (ruleMatches reading p) (·.action) (nextPolicy fw cfg s p.direction) cfg.firewallRules := by
 obtain ⟨expected, -, hsync⟩ := ends_patchFirewall.mp h
 rw [hfw] at hsync
 obtain ⟨-, -, rfl⟩ := hsync
 rw [keptRules_eq_nil hold, append_nil, ← verdict_insertions hvalid (allEntries text cfg s)]
 exact verdict_synced (enable_of_enabledFirewall hfw) reading _ _ p

theorem customerPolicy_eq (hfw : enabledFirewall host = some fw) (d : FirewallDirection) :
  customerPolicy host cfg d = (sentPolicy fw cfg d).getD (defaultPolicy d) := by
 obtain ⟨rfl, -⟩ := filter_eq_some_iff.mp hfw
 rfl

theorem verdict_nextPolicy_iff (hfw : enabledFirewall host = some fw) :
  verdict (ruleMatches reading p) (·.action) (nextPolicy fw cfg s p.direction) cfg.firewallRules =
   verdict (ruleMatches reading p) (·.action) (customerPolicy host cfg p.direction) cfg.firewallRules ↔
  (sentPolicy fw cfg p.direction).isSome ∨ s.policy p.direction = defaultPolicy p.direction ∨
   ∃ r ∈ cfg.firewallRules, ruleMatches reading p r := by
 rw [customerPolicy_eq hfw, nextPolicy]
 by_cases hhit : ∃ r ∈ cfg.firewallRules, ruleMatches reading p r
 · exact ⟨fun _ => .inr (.inr hhit), fun _ => verdict_of_hit _ hhit⟩
 have hmiss : ∀ r ∈ cfg.firewallRules, ruleMatches reading p r = false :=
  fun r hr => Bool.eq_false_iff.mpr fun h => hhit ⟨r, hr, h⟩
 rw [verdict_of_no_hit hmiss, verdict_of_no_hit hmiss]
 cases sentPolicy fw cfg p.direction with
 | none => simp [hhit]
 | some a => simp

def Enforced (text : IpText) (reading : Reading) (db : FirewallDb) (vmId : Nat) (host : Option FirewallConfig)
  (cfg : FullVmInfo) (s : PveVm) : Prop :=
 (∀ accepts, AcceptsPorted accepts → (exec (handle accepts) (patchFirewall text host cfg) s).1 = some ()) ∧
 ∀ accepts t, Ends (handle accepts) (patchFirewall text host cfg) s (some ()) t → ∀ p : Packet,
  Decides reading (db.vmRules vmId) (customerPolicy host cfg p.direction) p (t.verdict reading p)

theorem verdict_of_ends_disabled (hfw : enabledFirewall host = none)
  (h : Ends (handle accepts) (patchFirewall text host cfg) s (some ()) t) : t.verdict reading p = .accept := by
 obtain ⟨expected, -, hdisabled⟩ := ends_patchFirewall.mp h
 rw [hfw] at hdisabled
 rw [hdisabled]
 rfl

theorem decides_listing :
  Decides reading (db.listVmFirewallRules vmId) policy p a ↔ Decides reading (db.vmRules vmId) policy p a := by
 simp only [Decides, mem_listVmFirewallRules]

theorem enforced_disabled_iff (hfw : enabledFirewall host = none) (want : Packet → FirewallAction) :
  ((∀ accepts, AcceptsPorted accepts → (exec (handle accepts) (patchFirewall text host cfg) s).1 = some ()) ∧
   ∀ accepts t, Ends (handle accepts) (patchFirewall text host cfg) s (some ()) t → ∀ p : Packet,
    want p = t.verdict reading p) ↔
  cfg.hasResources = true ∧ ∀ p, want p = .accept := by
 constructor
 · rintro ⟨hsucceeds, hverdict⟩
   have hok := hsucceeds portedOnly acceptsPorted_portedOnly
   have hends := exec_ends (handle portedOnly) (patchFirewall text host cfg) s
   rw [hok] at hends
   obtain ⟨hresources, -⟩ := exec_patchFirewall.mp hok
   refine ⟨(makeConfig_isSome text cfg).symm.trans hresources, fun p => ?_⟩
   rw [hverdict portedOnly _ hends p, verdict_of_ends_disabled hfw hends]
 · rintro ⟨hresources, haccept⟩
   refine ⟨fun accepts _ => exec_patchFirewall.mpr ⟨(makeConfig_isSome text cfg).trans hresources, by simp [hfw]⟩, ?_⟩
   intro accepts t ht p
   rw [haccept p, verdict_of_ends_disabled hfw ht]

theorem enforced_enabled_iff (hfw : enabledFirewall host = some fw)
  (hvalid : ∀ r ∈ cfg.firewallRules, Valid reading r)
  (hold : ∀ r ∈ s.rules, isUserRule r = true ∨ isStaleIpfilter r = true) :
  ((∀ accepts, AcceptsPorted accepts → (exec (handle accepts) (patchFirewall text host cfg) s).1 = some ()) ∧
   ∀ accepts t, Ends (handle accepts) (patchFirewall text host cfg) s (some ()) t → ∀ p : Packet,
    verdict (ruleMatches reading p) (·.action) (customerPolicy host cfg p.direction) cfg.firewallRules =
     t.verdict reading p) ↔
  cfg.hasResources = true ∧ (∀ r ∈ cfg.firewallRules, r.protocol = .icmp → r.dstPortStart = none) ∧
   (newAddresses text cfg s.entries).Nodup ∧
   ∀ d, (sentPolicy fw cfg d).isSome ∨ s.policy d = defaultPolicy d ∨
    ∀ p : Packet, p.direction = d → ∃ r ∈ cfg.firewallRules, ruleMatches reading p r := by
 have hverdict_iff : ∀ accepts t, Ends (handle accepts) (patchFirewall text host cfg) s (some ()) t → ∀ p : Packet,
   (verdict (ruleMatches reading p) (·.action) (customerPolicy host cfg p.direction) cfg.firewallRules =
    t.verdict reading p ↔
   (sentPolicy fw cfg p.direction).isSome ∨ s.policy p.direction = defaultPolicy p.direction ∨
    ∃ r ∈ cfg.firewallRules, ruleMatches reading p r) := by
  intro accepts t ht p
  rw [verdict_of_ends hvalid hfw hold ht, eq_comm]
  exact verdict_nextPolicy_iff hfw
 have hsome : (enabledFirewall host).isSome := by rw [hfw]; rfl
 constructor
 · rintro ⟨hsucceeds, hverdict⟩
   have hok := hsucceeds portedOnly acceptsPorted_portedOnly
   have hends := exec_ends (handle portedOnly) (patchFirewall text host cfg) s
   rw [hok] at hends
   obtain ⟨hresources, hsync⟩ := exec_patchFirewall.mp hok
   refine ⟨(makeConfig_isSome text cfg).symm.trans hresources, all_insertions_iff.mp fun accepts h => ?_,
    (hsync hsome).1, fun d => ?_⟩
   · exact ((exec_patchFirewall.mp (hsucceeds accepts h)).2 hsome).2
   by_cases hpolicy : (sentPolicy fw cfg d).isSome ∨ s.policy d = defaultPolicy d
   · exact hpolicy.imp_right .inl
   refine .inr (.inr ?_)
   rintro p rfl
   rcases (hverdict_iff _ _ hends p).mp (hverdict _ _ hends p) with h | h | h
   · exact absurd (.inl h) hpolicy
   · exact absurd (.inr h) hpolicy
   · exact h
 · rintro ⟨hresources, hicmp, hnodup, hpolicy⟩
   constructor
   · intro accepts h
     exact exec_patchFirewall.mpr ⟨(makeConfig_isSome text cfg).trans hresources,
      fun _ => ⟨hnodup, all_insertions_iff.mpr hicmp accepts h⟩⟩
   intro accepts t ht p
   rw [hverdict_iff accepts t ht p]
   rcases hpolicy p.direction with h | h | h
   · exact .inl h
   · exact .inr (.inl h)
   · exact .inr (.inr (h p rfl))

theorem enforces_iff (text : IpText) (reading : Reading) {start db : FirewallDb} {reqs : List Request}
  (hstart : start.rules = []) (hrun : Run (step reading) start reqs db) (vm : FirewallVm) (ips : List VmIpAssignment)
  (ranges : List IpRange) (hasResources : Bool) (host : Option FirewallConfig) (s : PveVm)
  (hold : ∀ r ∈ s.rules, isUserRule r = true ∨ isStaleIpfilter r = true) :
  Enforced text reading db vm.id host (fullVmInfo db vm ips ranges hasResources) s ↔
   Enforceable text reading host (fullVmInfo db vm ips ranges hasResources) s := by
 have hi := run_inv hstart hrun
 obtain ⟨cfg, hcfg⟩ : ∃ cfg, cfg = fullVmInfo db vm ips ranges hasResources := ⟨_, rfl⟩
 have hrules : cfg.firewallRules = db.listVmFirewallRules vm.id := by rw [hcfg]; rfl
 have hvalid : ∀ r ∈ cfg.firewallRules, Valid reading r := by
  rw [hrules]
  exact hi.valid_listed
 have hdecides : ∀ p policy a, Decides reading (db.vmRules vm.id) policy p a ↔
   FirstMatch.verdict (ruleMatches reading p) (·.action) policy cfg.firewallRules = a := by
  intro p policy a
  rw [hrules]
  exact decides_iff hi
 rw [← hcfg, Enforced, Enforceable]
 cases hfw : enabledFirewall host with
 | none =>
  simp only [hrules, decides_listing, hdecides]
  exact enforced_disabled_iff hfw _
 | some fw =>
  simp only [hdecides]
  exact enforced_enabled_iff hfw hvalid hold

def closedVm : FirewallVm where
 id := 1
 userId := 7
 fwPolicyIn := some .drop
 fwPolicyOut := some .accept

def oneVm : FirewallDb where
 vms := [closedVm]

def plainReading : Reading where
 cidr _ := none
 cidr_ipfilterSet := rfl

def sshRule : CreateVmFirewallRule where
 direction := .inbound
 protocol := .any
 action := .accept
 dstPortStart := some 22

def enabledHost : FirewallConfig where
 enable := some true

theorem enforces_iff_ssh : ∃ db, Run (step plainReading) oneVm [.create 7 1 sshRule] db ∧
  (db.vmRules 1).length = 1 ∧ Enforced Provisioning.plainText plainReading db closedVm.id (some enabledHost)
   (fullVmInfo db closedVm [] [] true) {} := by
 obtain ⟨db, hrun, hlength, hicmp⟩ : ∃ db, Run (step plainReading) oneVm [.create 7 1 sshRule] db ∧
   (db.vmRules 1).length = 1 ∧ ∀ r ∈ db.listVmFirewallRules 1, r.protocol = .icmp → r.dstPortStart = none :=
  Run.exists_of_exec (by decide +kernel)
 have hfw : enabledFirewall (some enabledHost) = some enabledHost := rfl
 refine ⟨db, hrun, hlength, (enforces_iff Provisioning.plainText plainReading rfl hrun closedVm [] [] true
  (some enabledHost) {} fun _ hr => absurd hr not_mem_nil).mpr ?_⟩
 rw [Enforceable, hfw]
 refine ⟨rfl, hicmp, nodup_nil, fun d => .inl ?_⟩
 cases d <;> rfl

def pingRule : CreateVmFirewallRule where
 direction := .inbound
 protocol := .icmp
 action := .drop
 dstPortStart := some 8

/-- The endpoint stores an ICMP rule with a port, and the job that applies it fails. -/
theorem icmp_port_rule_refused : ∃ db, Run (step plainReading) oneVm [.create 7 1 pingRule] db ∧
  AcceptsPorted portedOnly ∧
  (exec (handle portedOnly) (patchFirewall Provisioning.plainText (some enabledHost)
   (fullVmInfo db closedVm [] [] true)) {}).1 = none := by
 obtain ⟨db, hrun, h⟩ : ∃ db, Run (step plainReading) oneVm [.create 7 1 pingRule] db ∧
   ((insertions (fullVmInfo db closedVm [] [] true)).any fun r => !portedOnly r) = true :=
  Run.exists_of_exec (by decide +kernel)
 refine ⟨db, hrun, acceptsPorted_portedOnly, ?_⟩
 by_contra hsome
 obtain ⟨u, hok⟩ := ne_none_iff_exists'.mp hsome
 obtain ⟨-, hsync⟩ := exec_patchFirewall.mp hok
 obtain ⟨r, hr, hrefused⟩ := any_eq_true.mp h
 have haccepted := all_eq_true.mp (hsync rfl).2 r hr
 simp [haccepted] at hrefused

end Lnvps.VmFirewall
