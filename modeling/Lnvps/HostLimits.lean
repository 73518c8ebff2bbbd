import Lnvps.Lib.Options
import Lnvps.Lib.Single
import Lnvps.Lib.Url
import Lnvps.Pve

/-! # The limits of a plan on the hypervisor -/

namespace Lnvps.HostLimits

open Options Remote List Option Function

structure VmLimits where
 (diskIopsRead diskIopsWrite diskMbpsRead diskMbpsWrite networkMbps : Option Nat := none)
 cpuLimit : Option Rat := none

variable (l : VmLimits)

def VmLimits.hasDiskLimits : Bool :=
 l.diskIopsRead.isSome || l.diskIopsWrite.isSome || l.diskMbpsRead.isSome || l.diskMbpsWrite.isSome

structure Template where
 cpu : Nat := 1
 memory : Nat := 0
 limits : VmLimits := {}

inductive DiskType
 | hdd
 | ssd

abbrev OptionValue := { t : Text // ',' ∉ t }

structure FullVmInfo where
 id : Nat
 macAddress : OptionValue
 disabled : Bool := false
 (vlanId mtu : Option Nat := none)
 diskName : String
 diskKind : DiskType
 sshKeyData : String
 ips : List VmIpAssignment := []
 ranges : List IpRange := []
 (template customTemplate : Option Template := none)

def FullVmInfo.resources (info : FullVmInfo) : Option Template := info.template.or info.customTemplate

def FullVmInfo.limits (info : FullVmInfo) : VmLimits := (info.resources.map (·.limits)).getD {}

inductive VmBios
 | seaBios
 | ovmf
 deriving DecidableEq

structure VmConfig where
 onBoot : Option Bool := none
 balloon : Option Int := none
 bios : Option VmBios := none
 boot : Option String := none
 cores : Option Nat := none
 (cpu ipConfig machine memory name : Option String := none)
 net : Option Text := none
 osType : Option String := none
 scsi0 : Option Text := none
 (scsi1 scsiHw sshKeys efiDisk0 : Option String := none)
 kvm : Option Bool := none
 serial0 : Option String := none
 cpuLimit : Option Rat := none
 cicustom : Option String := none
 deriving DecidableEq

def VmConfig.update (old new : VmConfig) : VmConfig where
 onBoot := new.onBoot.or old.onBoot
 balloon := new.balloon.or old.balloon
 bios := new.bios.or old.bios
 boot := new.boot.or old.boot
 cores := new.cores.or old.cores
 cpu := new.cpu.or old.cpu
 ipConfig := new.ipConfig.or old.ipConfig
 machine := new.machine.or old.machine
 memory := new.memory.or old.memory
 name := new.name.or old.name
 net := new.net.or old.net
 osType := new.osType.or old.osType
 scsi0 := new.scsi0.or old.scsi0
 scsi1 := new.scsi1.or old.scsi1
 scsiHw := new.scsiHw.or old.scsiHw
 sshKeys := new.sshKeys.or old.sshKeys
 efiDisk0 := new.efiDisk0.or old.efiDisk0
 kvm := new.kvm.or old.kvm
 serial0 := new.serial0.or old.serial0
 cpuLimit := new.cpuLimit.or old.cpuLimit
 cicustom := new.cicustom.or old.cicustom

structure QemuConfig where
 (machine osType : String)
 bridge : OptionValue
 cpu : String
 kvm : Bool
 balloonMinPct : Option Nat := none

def QemuConfig.balloonMb (config : QemuConfig) (memoryMb : Nat) : Option Int :=
 match config.balloonMinPct with
 | some pct => if 1 ≤ pct ∧ pct < 100 then some (((memoryMb * pct / 100 : Nat) : Int).bmod (2 ^ 32)) else none
 | none => none

def rateText (mbps : Nat) : Text := Single.decimal (Single.shortest (Single.ofNat mbps))

def netOptions (config : QemuConfig) (info : FullVmInfo) : List (String × Text) :=
 [("bridge", config.bridge.val), ("firewall", "1".toList)] ++
  optional "tag" (info.vlanId.map (Nat.toDigits 10)) ++
  optional "mtu" (info.mtu.map (Nat.toDigits 10)) ++
  (if info.disabled then [("link_down", "1".toList)] else []) ++
  optional "rate" (info.limits.networkMbps.map rateText)

def diskFlags : DiskType → List (String × Text)
 | .ssd => [("discard", "on".toList), ("ssd", "1".toList)]
 | .hdd => []

def diskOptions (kind : DiskType) (limits : VmLimits) : List (String × Text) :=
 diskFlags kind ++
  optional "mbps_rd" (limits.diskMbpsRead.map (Nat.toDigits 10)) ++
  optional "mbps_wr" (limits.diskMbpsWrite.map (Nat.toDigits 10)) ++
  optional "iops_rd" (limits.diskIopsRead.map (Nat.toDigits 10)) ++
  optional "iops_wr" (limits.diskIopsWrite.map (Nat.toDigits 10))

section Program

variable (config : QemuConfig) (text : IpText) (info : FullVmInfo)

def makeConfig (vendorSnippet : Option String) : Option VmConfig :=
 info.resources.map fun resources =>
  { name := some ("VM" ++ toString info.id)
    cpu := some config.cpu
    kvm := some config.kvm
    ipConfig := some (",".intercalate (info.ips.filterMap (Pve.ipConfigOf text info.ranges)))
    machine := some config.machine
    net := some (render (entry ("virtio", info.macAddress.val)) (netOptions config info))
    osType := some config.osType
    onBoot := some true
    bios := some .ovmf
    boot := some "order=scsi0"
    cores := some resources.cpu
    memory := some (toString (resources.memory / (1024 * 1024)))
    balloon := config.balloonMb (resources.memory / (1024 * 1024))
    scsiHw := some "virtio-scsi-pci"
    serial0 := some "socket"
    scsi1 := some (info.diskName ++ ":cloudinit")
    sshKeys := some (String.ofList (Url.urlencodingEncode info.sshKeyData.toList))
    efiDisk0 := some (info.diskName ++ ":0,efitype=4m")
    cpuLimit := info.limits.cpuLimit
    cicustom := vendorSnippet.map ("vendor=" ++ ·) }

inductive Call
 | getVmConfig
 | ensureVendorSnippet
 | configureVm (digest : Option VmConfig) (config : VmConfig)

abbrev Reply : Call → Type
 | .getVmConfig => VmConfig
 | .ensureVendorSnippet => Option String
 | .configureVm _ _ => Unit

abbrev send (c : Call) : Prog Reply (Reply c) := command c

def handle (snippet : Option String) : (c : Call) → VmConfig → Option (Reply c × VmConfig)
 | .getVmConfig, vm => some (vm, vm)
 | .ensureVendorSnippet, vm => some (snippet, vm)
 | .configureVm digest config, vm => if digest.all (· = vm) then some ((), vm.update config) else none

def applyDiskLimits : Prog Reply Unit := do
 if info.limits.hasDiskLimits then
  let current : VmConfig ← send .getVmConfig
  let scsi0Base ← ofOption current.scsi0
  send (.configureVm none { scsi0 := some (render (head scsi0Base) (diskOptions info.diskKind info.limits)) })
 else pure ()

def sent (current made : VmConfig) : VmConfig := { made with
 scsi0 := none
 scsi1 := none
 efiDisk0 := none
 sshKeys := if current.sshKeys = made.sshKeys then none else made.sshKeys
 cicustom := if current.cicustom = made.cicustom then none else made.cicustom }

def configureVm : Prog Reply Unit := do
 let current : VmConfig ← send .getVmConfig
 let vendorSnippet : Option String ← send .ensureVendorSnippet
 let made ← ofOption (makeConfig config text info vendorSnippet)
 let _ ← send (.configureVm (some current) (sent current made))
 applyDiskLimits info

end Program

inductive DiskThrottle
 | mbpsRead
 | mbpsWrite
 | iopsRead
 | iopsWrite

def DiskThrottle.key : DiskThrottle → String
 | .mbpsRead => "mbps_rd"
 | .mbpsWrite => "mbps_wr"
 | .iopsRead => "iops_rd"
 | .iopsWrite => "iops_wr"

def VmLimits.disk : DiskThrottle → Option Nat
 | .mbpsRead => l.diskMbpsRead
 | .mbpsWrite => l.diskMbpsWrite
 | .iopsRead => l.diskIopsRead
 | .iopsWrite => l.diskIopsWrite

inductive Throttle
 | cpu
 | network
 | disk (d : DiskThrottle)

def VmLimits.throttle : Throttle → Option Rat
 | .cpu => l.cpuLimit
 | .network => l.networkMbps.map fun mbps => (mbps : Rat) / 8
 | .disk d => (l.disk d).map (↑)

def optionNumber (key : String) (device : Option Text) : Option Rat :=
 (device.bind (find key)).bind Single.readDecimal

def VmConfig.throttle (c : VmConfig) : Throttle → Option Rat
 | .cpu => c.cpuLimit
 | .network => optionNumber "rate" c.net
 | .disk d => optionNumber d.key c.scsi0

def VmConfig.disk (c : VmConfig) : Option (Text × Option Text × Option Text) :=
 c.scsi0.map fun t => (head t, find "discard" t, find "ssd" t)

section Force

variable (unlimited : Rat → Bool)

def inForce (limit : Option Rat) : Option Rat := limit.filter fun v => !unlimited v

def Follows (c : VmConfig) (l : VmLimits) : Prop :=
 ∀ t, inForce unlimited (c.throttle t) = inForce unlimited (l.throttle t)

def discardOf : DiskType → Option Text
 | .ssd => some "on".toList
 | .hdd => none

def ssdOf : DiskType → Option Text
 | .ssd => some "1".toList
 | .hdd => none

structure Configured (kind : DiskType) (l : VmLimits) (c : VmConfig) : Prop where
 follows : Follows unlimited c l
 disk : ∃ volume, c.disk = some (volume, discardOf kind, ssdOf kind)

variable {unlimited}

theorem Configured.scsi0 {kind : DiskType} {l : VmLimits} {c : VmConfig} (h : Configured unlimited kind l c) :
  c.scsi0.isSome := by
 obtain ⟨volume, hvolume⟩ := h.disk
 obtain ⟨base, hbase, -⟩ := map_eq_some_iff.mp hvolume
 rw [hbase]
 rfl

end Force

section Devices

variable {config : QemuConfig} {info : FullVmInfo} {kind : DiskType} {limits : VmLimits} {volume : Text}

def rate (mbps : Nat) : Rat := (Single.shortest (Single.ofNat mbps) : Rat) / 1000

theorem read_rateText (mbps : Nat) : Single.readDecimal (rateText mbps) = some (rate mbps) :=
 Single.readDecimal_decimal _

theorem rate_eq {mbps : Nat} (h : mbps < 2 ^ 20) : rate mbps = (mbps : Rat) / 8 := by
 rw [rate, Single.ofNat_eq (by omega), Single.shortest_eq h]
 push_cast
 ring

theorem comma_toDigits (n : Nat) : ',' ∉ Nat.toDigits 10 n :=
 fun h => absurd (Text.isDigit_toDigits n ',' h) (by decide)

theorem plain_number {key : String} (hkey : PlainKey key) (value : Option Nat) :
  Plain (optional key (value.map (Nat.toDigits 10))) := by
 refine plain_optional hkey fun v hv => ?_
 obtain ⟨n, -, rfl⟩ := map_eq_some_iff.mp hv
 exact comma_toDigits n

theorem plain_netOptions (config : QemuConfig) (info : FullVmInfo) : Plain (netOptions config info) := by
 have hbridge : Plain [("bridge", config.bridge.val), ("firewall", "1".toList)] := by
  simp only [Plain, forall_mem_cons]
  exact ⟨⟨by decide, config.bridge.property⟩, ⟨by decide, by decide⟩, nofun⟩
 have hdown : Plain (if info.disabled then [("link_down", "1".toList)] else []) := by
  split
  · simp only [Plain, forall_mem_cons]
    exact ⟨⟨by decide, by decide⟩, nofun⟩
  · exact nofun
 have hrate : Plain (optional "rate" (info.limits.networkMbps.map rateText)) := by
  refine plain_optional (by decide) fun v hv => ?_
  obtain ⟨mbps, -, rfl⟩ := map_eq_some_iff.mp hv
  exact Single.comma_decimal _
 exact (((hbridge.append (plain_number (by decide) _)).append (plain_number (by decide) _)).append hdown).append hrate

theorem plain_diskOptions (kind : DiskType) (limits : VmLimits) : Plain (diskOptions kind limits) := by
  have hkind : Plain (diskFlags kind) := by
    cases kind with
    | hdd => exact nofun
    | ssd =>
      simp only [diskFlags, Plain, forall_mem_cons]
      exact ⟨⟨by decide, by decide⟩, ⟨by decide, by decide⟩, nofun⟩
  exact (((hkind.append (plain_number (by decide) _)).append (plain_number (by decide) _)).append
    (plain_number (by decide) _)).append (plain_number (by decide) _)

def diskKeys : List String := ["discard", "ssd"] ++ ["mbps_rd"] ++ ["mbps_wr"] ++ ["iops_rd"] ++ ["iops_wr"]

theorem keys_diskOptions (kind : DiskType) (limits : VmLimits) :
  ((diskOptions kind limits).map (·.1)).Sublist diskKeys := by
 have hkind : ((diskFlags kind).map (·.1)).Sublist ["discard", "ssd"] := by
  cases kind with
  | hdd => exact nil_sublist _
  | ssd => exact .refl _
 simp only [diskOptions, map_append]
 exact (((hkind.append keys_optional).append keys_optional).append keys_optional).append keys_optional

theorem nodup_diskOptions (kind : DiskType) (limits : VmLimits) : ((diskOptions kind limits).map (·.1)).Nodup :=
 (keys_diskOptions kind limits).nodup (by decide)

theorem find_netOptions (config : QemuConfig) (info : FullVmInfo) :
  find "rate" (render (entry ("virtio", info.macAddress.val)) (netOptions config info)) =
   info.limits.networkMbps.map rateText := by
 have hhead : ',' ∉ entry ("virtio", info.macAddress.val) := by
  have := info.macAddress.property
  simp [entry, this]
 rw [find_render hhead (plain_netOptions config info) (by decide)]
 cases hdown : info.disabled <;> simp [netOptions, hdown, List.find?_append, comp_def]

theorem find_diskOptions (d : DiskThrottle) (hvolume : ',' ∉ volume) :
  find d.key (render volume (diskOptions kind limits)) = (limits.disk d).map (Nat.toDigits 10) := by
 have hfind : ∀ key, PlainKey key → find key (render volume (diskOptions kind limits)) = _ :=
  fun _ => find_render hvolume (plain_diskOptions kind limits)
 cases d with
 | mbpsRead =>
  refine (hfind "mbps_rd" (by decide)).trans ?_
  cases kind <;> simp [diskOptions, diskFlags, List.find?_append, VmLimits.disk, comp_def]
 | mbpsWrite =>
  refine (hfind "mbps_wr" (by decide)).trans ?_
  cases kind <;> simp [diskOptions, diskFlags, List.find?_append, VmLimits.disk, comp_def]
 | iopsRead =>
  refine (hfind "iops_rd" (by decide)).trans ?_
  cases kind <;> simp [diskOptions, diskFlags, List.find?_append, VmLimits.disk, comp_def]
 | iopsWrite =>
  refine (hfind "iops_wr" (by decide)).trans ?_
  cases kind <;> simp [diskOptions, diskFlags, List.find?_append, VmLimits.disk, comp_def]

theorem find_discard (hvolume : ',' ∉ volume) :
  find "discard" (render volume (diskOptions kind limits)) = discardOf kind := by
 rw [find_render hvolume (plain_diskOptions kind limits) (by decide)]
 cases kind <;> simp [diskOptions, diskFlags, List.find?_append, discardOf]

theorem find_ssd (hvolume : ',' ∉ volume) : find "ssd" (render volume (diskOptions kind limits)) = ssdOf kind := by
 rw [find_render hvolume (plain_diskOptions kind limits) (by decide)]
 cases kind <;> simp [diskOptions, diskFlags, List.find?_append, ssdOf]

end Devices

section Runs

variable {config : QemuConfig} {text : IpText} {snippet : Option String} {info : FullVmInfo} {c c' : VmConfig}

theorem ends_applyDiskLimits : Ends (handle snippet) (applyDiskLimits info) c (some ()) c' ↔
  if info.limits.hasDiskLimits then ∃ base, c.scsi0 = some base ∧
   c' = c.update { scsi0 := some (render (head base) (diskOptions info.diskKind info.limits)) }
  else c' = c := by
 unfold applyDiskLimits
 split
 · simp only [ends_bind, ends_command, ends_ofOption, handle, all_none, if_true]
   constructor
   · rintro ⟨current, u, hget, base, v, ⟨hbase, rfl⟩, hset⟩
     cases hget
     exact ⟨base, hbase, (Prod.mk.inj (Option.some.inj hset)).2.symm⟩
   · rintro ⟨base, hbase, rfl⟩
     exact ⟨c, c, rfl, base, c, ⟨hbase, rfl⟩, rfl⟩
 · exact ends_pure.trans (and_iff_right rfl)

theorem ends_configureVm : Ends (handle snippet) (configureVm config text info) c (some ()) c' ↔
  ∃ made, makeConfig config text info snippet = some made ∧
   Ends (handle snippet) (applyDiskLimits info) (c.update (sent c made)) (some ()) c' := by
 unfold configureVm
 simp only [ends_bind, ends_command, ends_ofOption, handle]
 constructor
 · rintro ⟨current, u, hget, vendor, v, hvendor, made, w, ⟨hmade, rfl⟩, x, y, hset, hdisk⟩
   cases hget
   cases hvendor
   rw [all_some, if_pos (decide_eq_true rfl)] at hset
   cases hset
   exact ⟨made, hmade, hdisk⟩
 · rintro ⟨made, hmade, hdisk⟩
   refine ⟨c, c, rfl, snippet, c, rfl, made, c, ⟨hmade, rfl⟩, (), _, ?_, hdisk⟩
   rw [all_some, if_pos (decide_eq_true rfl)]

structure Result (config : QemuConfig) (info : FullVmInfo) (c c' : VmConfig) : Prop where
 cpuLimit : c'.cpuLimit = info.limits.cpuLimit.or c.cpuLimit
 net : c'.net = some (render (entry ("virtio", info.macAddress.val)) (netOptions config info))
 scsi0 : c'.scsi0 = if info.limits.hasDiskLimits then
   c.scsi0.map fun base => render (head base) (diskOptions info.diskKind info.limits)
  else c.scsi0

theorem result_of_ends (h : Ends (handle snippet) (configureVm config text info) c (some ()) c') :
  Result config info c c' := by
 obtain ⟨made, hmade, hdisk⟩ := ends_configureVm.mp h
 obtain ⟨resources, -, rfl⟩ := map_eq_some_iff.mp hmade
 rw [ends_applyDiskLimits] at hdisk
 split at hdisk
 · rename_i hlimits
   obtain ⟨base, hbase, rfl⟩ := hdisk
   have hc : c.scsi0 = some base := hbase
   exact ⟨rfl, rfl, by rw [if_pos hlimits, hc]; rfl⟩
 · rename_i hlimits
   subst hdisk
   exact ⟨rfl, rfl, by rw [if_neg hlimits]; rfl⟩

theorem exists_ends (config : QemuConfig) (text : IpText) (snippet : Option String) (hres : info.resources.isSome)
  (hdisk : c.scsi0.isSome) : ∃ c', Ends (handle snippet) (configureVm config text info) c (some ()) c' := by
 obtain ⟨resources, hres⟩ := isSome_iff_exists.mp hres
 obtain ⟨base, hbase⟩ := isSome_iff_exists.mp hdisk
 simp only [ends_configureVm, ends_applyDiskLimits, makeConfig, hres, map_some, Option.some.injEq,
  exists_eq_left']
 split
 · exact ⟨_, base, hbase, rfl⟩
 · exact ⟨_, rfl⟩

end Runs

section Limits

variable {unlimited : Rat → Bool} {config : QemuConfig} {text : IpText} {snippet : Option String} {info : FullVmInfo}
 {c c' : VmConfig} {l : VmLimits}

theorem hasDiskLimits_eq_false : l.hasDiskLimits = false ↔ ∀ d, l.disk d = none := by
 simp only [VmLimits.hasDiskLimits, Bool.or_eq_false_iff, isSome_eq_false_iff, isNone_iff_eq_none]
 constructor
 · rintro ⟨⟨⟨hir, hiw⟩, hmr⟩, hmw⟩ d
   cases d <;> assumption
 · intro h
   exact ⟨⟨⟨h .iopsRead, h .iopsWrite⟩, h .mbpsRead⟩, h .mbpsWrite⟩

theorem network_of_net (h : c.net = some (render (entry ("virtio", info.macAddress.val)) (netOptions config info))) :
  c.throttle .network = info.limits.networkMbps.map rate := by
 have hnet : c.throttle .network = optionNumber "rate" c.net := rfl
 rw [hnet, h, optionNumber, bind_some, find_netOptions]
 cases info.limits.networkMbps with
 | none => rfl
 | some mbps => rw [map_some, bind_some, read_rateText, map_some]

theorem disk_of_find {kind : DiskType} {volume t : Text} {d : DiskThrottle} (hscsi0 : c.scsi0 = some t)
  (hvolume : ',' ∉ volume) (hfind : find d.key t = find d.key (render volume (diskOptions kind l))) :
  c.throttle (.disk d) = l.throttle (.disk d) := by
 simp only [VmConfig.throttle, optionNumber, hscsi0, bind_some, hfind, find_diskOptions d hvolume,
  VmLimits.throttle]
 cases l.disk d with
 | none => rfl
 | some n => simp only [map_some, bind_some, Single.readDecimal_toDigits]

theorem network_follows (unlimited : Rat → Bool) (h : c.throttle .network = info.limits.networkMbps.map rate) :
  inForce unlimited (c.throttle .network) = inForce unlimited (info.limits.throttle .network) ↔
   ∀ mbps, info.limits.networkMbps = some mbps →
    inForce unlimited (some (rate mbps)) = inForce unlimited (some ((mbps : Rat) / 8)) := by
 rw [h, VmLimits.throttle]
 cases info.limits.networkMbps with
 | none => simp
 | some mbps => simp

end Limits

section Create

variable {unlimited : Rat → Bool} {config : QemuConfig} {text : IpText} {snippet : Option String} {info : FullVmInfo}
 {made : VmConfig} {volume image : Text} {args : List (String × Text)}

def importArgs (image : Text) (kind : DiskType) (limits : VmLimits) : List (String × Text) :=
 ("import-from", "/var/lib/vz/template/iso/".toList ++ image) :: diskOptions kind limits

def imported (made : VmConfig) (volume : Text) (args : List (String × Text)) : VmConfig :=
 { made with scsi0 := some (render volume (args.filter (·.1 ≠ "import-from"))) }

theorem stored_perm {kind : DiskType} {limits : VmLimits} (hargs : args.Perm (importArgs image kind limits)) :
  (args.filter (·.1 ≠ "import-from")).Perm (diskOptions kind limits) := by
 refine (hargs.filter _).trans (.of_eq ?_)
 rw [importArgs, filter_cons_of_neg (by simp), filter_eq_self]
 intro o ho
 have hkey := (keys_diskOptions kind limits).subset (mem_map_of_mem ho)
 have hkeys : ∀ key ∈ diskKeys, decide (key ≠ "import-from") = true := by decide
 exact hkeys o.1 hkey

theorem configured_imported (hmade : makeConfig config text info snippet = some made) (hvolume : ',' ∉ volume)
  (hargs : args.Perm (importArgs image info.diskKind info.limits))
  (hrate : ∀ mbps, info.limits.networkMbps = some mbps →
   inForce unlimited (some (rate mbps)) = inForce unlimited (some ((mbps : Rat) / 8))) :
  Configured unlimited info.diskKind info.limits (imported made volume args) := by
 have hfind : ∀ key, PlainKey key → find key (render volume (args.filter (·.1 ≠ "import-from"))) =
   find key (render volume (diskOptions info.diskKind info.limits)) := fun key hkey =>
  find_perm hvolume (plain_diskOptions _ _) hkey (nodup_diskOptions _ _) (stored_perm hargs)
 have hscsi0 : (imported made volume args).scsi0 = some (render volume (args.filter (·.1 ≠ "import-from"))) := rfl
 obtain ⟨resources, -, rfl⟩ := map_eq_some_iff.mp hmade
 constructor
 · intro t
   cases t with
   | cpu => rfl
   | network => exact (network_follows unlimited (network_of_net rfl)).mpr hrate
   | disk d => rw [disk_of_find hscsi0 hvolume (hfind d.key (by cases d <;> decide))]
 · refine ⟨volume, ?_⟩
   simp only [VmConfig.disk, imported, map_some, head_render hvolume, hfind "discard" (by decide),
    hfind "ssd" (by decide), find_discard hvolume, find_ssd hvolume]

end Create

section Change

variable {unlimited : Rat → Bool} {config : QemuConfig} {text : IpText} {snippet : Option String} {info : FullVmInfo}
 {c c' : VmConfig} {l : VmLimits}

theorem Result.disk (h : Result config info c c') (hdisk : c.scsi0.isSome) (hlimits : info.limits.hasDiskLimits = true)
  (d : DiskThrottle) : c'.throttle (.disk d) = info.limits.throttle (.disk d) := by
 obtain ⟨base, hbase⟩ := isSome_iff_exists.mp hdisk
 have hscsi0 : c'.scsi0 = some (render (head base) (diskOptions info.diskKind info.limits)) := by
  rw [h.scsi0, if_pos hlimits, hbase, map_some]
 exact disk_of_find hscsi0 (comma_head base) rfl

theorem Result.keeps_disk (h : Result config info c c') {volume : Text}
  (hdisk : c.disk = some (volume, discardOf info.diskKind, ssdOf info.diskKind)) : c'.disk = c.disk := by
 by_cases hlimits : info.limits.hasDiskLimits = true
 · obtain ⟨base, hbase, hparts⟩ := map_eq_some_iff.mp hdisk
   rw [hdisk, VmConfig.disk, h.scsi0, if_pos hlimits, hbase]
   simp only [map_some, head_render (comma_head base), find_discard (comma_head base),
    find_ssd (comma_head base)]
   rw [(Prod.mk.inj hparts).1]
 · simp only [VmConfig.disk, h.scsi0, if_neg hlimits]

theorem Result.follows_iff (h : Result config info c c') (hc : Follows unlimited c l) (hdisk : c.scsi0.isSome) :
  Follows unlimited c' info.limits ↔
   (info.limits.cpuLimit = none → inForce unlimited l.cpuLimit = none) ∧
   (info.limits.hasDiskLimits = false → ∀ d, inForce unlimited (l.throttle (.disk d)) = none) ∧
   ∀ mbps, info.limits.networkMbps = some mbps →
    inForce unlimited (some (rate mbps)) = inForce unlimited (some ((mbps : Rat) / 8)) := by
 have hcpu : inForce unlimited (c'.throttle .cpu) = inForce unlimited (info.limits.throttle .cpu) ↔
   (info.limits.cpuLimit = none → inForce unlimited l.cpuLimit = none) := by
  have hbefore : inForce unlimited c.cpuLimit = inForce unlimited l.cpuLimit := hc .cpu
  simp only [VmConfig.throttle, VmLimits.throttle, h.cpuLimit]
  cases info.limits.cpuLimit with
  | none =>
   simp only [none_or, hbefore, forall_const]
   exact .rfl
  | some v => simp
 have hnetwork := network_follows unlimited (network_of_net h.net)
 have hdisks : (∀ d, inForce unlimited (c'.throttle (.disk d)) = inForce unlimited (info.limits.throttle (.disk d))) ↔
   (info.limits.hasDiskLimits = false → ∀ d, inForce unlimited (l.throttle (.disk d)) = none) := by
  cases hlimits : info.limits.hasDiskLimits with
  | true => simp [h.disk hdisk hlimits]
  | false =>
   have hnone := hasDiskLimits_eq_false.mp hlimits
   have hbefore : ∀ d, inForce unlimited (c'.throttle (.disk d)) = inForce unlimited (l.throttle (.disk d)) := by
    intro d
    rw [← hc (.disk d)]
    simp only [VmConfig.throttle, h.scsi0, hlimits, Bool.false_eq_true, if_false]
   simp only [hbefore, VmLimits.throttle, hnone, forall_const]
   exact .rfl
 constructor
 · intro hfollows
   exact ⟨hcpu.mp (hfollows .cpu), hdisks.mp fun d => hfollows (.disk d), hnetwork.mp (hfollows .network)⟩
 rintro ⟨h1, h2, h3⟩ t
 cases t with
 | cpu => exact hcpu.mpr h1
 | network => exact hnetwork.mpr h3
 | disk d => exact hdisks.mpr h2 d

theorem limits_follow_iff (hres : info.resources.isSome) (hc : Configured unlimited info.diskKind l c) :
  (∀ c', Ends (handle snippet) (configureVm config text info) c (some ()) c' →
    Follows unlimited c' info.limits ∧ c'.disk = c.disk) ↔
   (info.limits.cpuLimit = none → inForce unlimited l.cpuLimit = none) ∧
   (info.limits.hasDiskLimits = false → ∀ d, inForce unlimited (l.throttle (.disk d)) = none) ∧
   ∀ mbps, info.limits.networkMbps = some mbps →
    inForce unlimited (some (rate mbps)) = inForce unlimited (some ((mbps : Rat) / 8)) := by
 obtain ⟨volume, hvolume⟩ := hc.disk
 have hdisk := hc.scsi0
 constructor
 · intro hall
   obtain ⟨c', hends⟩ := exists_ends config text snippet hres hdisk
   exact ((result_of_ends hends).follows_iff hc.follows hdisk).mp (hall c' hends).1
 · intro hcond c' hends
   have hresult := result_of_ends hends
   exact ⟨(hresult.follows_iff hc.follows hdisk).mpr hcond, hresult.keeps_disk hvolume⟩

def smallHost : QemuConfig where
 machine := "q35"
 osType := "l26"
 bridge := ⟨"vmbr0".toList, by decide⟩
 cpu := "host"
 kvm := true

def planned (kind : DiskType) (limits : VmLimits) : FullVmInfo where
 id := 1
 macAddress := ⟨"bc:24:11:4e:8f:d1".toList, by decide⟩
 diskName := "local-zfs"
 diskKind := kind
 sshKeyData := ""
 template := some { limits }

theorem configured_planned (unlimited : Rat → Bool) (kind : DiskType) (limits : VmLimits)
  (hrate : ∀ mbps ∈ limits.networkMbps, mbps < 2 ^ 20) : ∃ c, Configured unlimited kind limits c := by
 have hmade : ∃ made, makeConfig smallHost Provisioning.plainText (planned kind limits) none = some made := ⟨_, rfl⟩
 obtain ⟨made, hmade⟩ := hmade
 have hvolume : ',' ∉ "local-zfs:vm-1-disk-0".toList := by decide
 refine ⟨_, configured_imported hmade hvolume (.refl (importArgs [] kind limits)) fun mbps hmbps => ?_⟩
 rw [rate_eq (hrate mbps hmbps)]

/-- The CPU gets another limit, the network none, and the disk one for its reads instead of its writes. -/
theorem limits_follow_changed : ∃ c,
  Configured (· = 0) .ssd { cpuLimit := some 2, networkMbps := some 100, diskMbpsWrite := some 50 } c ∧
   ∀ c', Ends (handle none) (configureVm smallHost Provisioning.plainText
    (planned .ssd { cpuLimit := some 1, diskIopsRead := some 500 })) c (some ()) c' →
     Follows (· = 0) c' { cpuLimit := some 1, diskIopsRead := some 500 } ∧ c'.disk = c.disk := by
 obtain ⟨c, hc⟩ := configured_planned (· = 0) .ssd
  { cpuLimit := some 2, networkMbps := some 100, diskMbpsWrite := some 50 } (by decide)
 have hres : (planned .ssd { cpuLimit := some 1, diskIopsRead := some 500 }).resources.isSome = true := rfl
 exact ⟨c, hc, (limits_follow_iff hres hc).mpr ⟨nofun, nofun, nofun⟩⟩

/-- A plan without limits: half a CPU and 100 MB/s stay in force. -/
theorem limits_not_lifted : ∃ c c',
  Configured (· = 0) .hdd { cpuLimit := some (1 / 2), diskMbpsRead := some 100 } c ∧
   Ends (handle none) (configureVm smallHost Provisioning.plainText (planned .hdd {})) c (some ()) c' ∧
    inForce (· = 0) (c'.throttle .cpu) = some (1 / 2) ∧
     inForce (· = 0) (c'.throttle (.disk .mbpsRead)) = some 100 := by
 obtain ⟨c, hc⟩ := configured_planned (· = 0) .hdd
  { cpuLimit := some (1 / 2), diskMbpsRead := some 100 } (by decide)
 have hres : (planned .hdd {}).resources.isSome = true := rfl
 obtain ⟨c', hends⟩ := exists_ends smallHost Provisioning.plainText none hres hc.scsi0
 have hresult := result_of_ends hends
 have hcpu : c'.throttle .cpu = c.throttle .cpu := hresult.cpuLimit
 have hdisk : c'.throttle (.disk .mbpsRead) = c.throttle (.disk .mbpsRead) := by
  unfold VmConfig.throttle
  rw [show c'.scsi0 = c.scsi0 from hresult.scsi0]
 refine ⟨c, c', hc, hends, ?_, ?_⟩
 · rw [hcpu, hc.follows]
   simp [inForce, VmLimits.throttle]
 · rw [hdisk, hc.follows]
   simp [inForce, VmLimits.throttle, VmLimits.disk]

end Change

end Lnvps.HostLimits
