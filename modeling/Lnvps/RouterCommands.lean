import Lnvps.Lib.ExitStatus
import Lnvps.Lib.Shell

/-! # Commands for a Linux router -/

namespace Lnvps.Router

open Shell ExitStatus List Option

structure WireguardPeer where
 publicKey : Text
 endpoint : Option Text := none
 allowedIps : List Text := []
 persistentKeepalive : Option Nat := none
 deriving DecidableEq

structure WireguardConfig where
 listenPort : Option Nat := none
 (privateKey publicKey : Option Text := none)
 peers : List WireguardPeer := []
 deriving DecidableEq

inductive TunnelConfig
 | gre (key : Option Nat)
 | vxlan (vni : Nat) (dstPort : Option Nat)
 | wireguard (c : WireguardConfig)
 deriving DecidableEq

structure Tunnel where
 id : Option Text := none
 name : Text
 (localAddr remoteAddr : Option Text := none)
 enabled : Bool := true
 config : TunnelConfig
 deriving DecidableEq

def WireguardPeer.strings (p : WireguardPeer) : List Text := p.publicKey :: (p.endpoint.toList ++ p.allowedIps)

def TunnelConfig.strings : TunnelConfig → List Text
 | .wireguard c => c.privateKey.toList ++ c.publicKey.toList ++ c.peers.flatMap (·.strings)
 | _ => []

variable (t : Tunnel)

def Tunnel.strings : List Text :=
 t.name :: (t.id.toList ++ t.localAddr.toList ++ t.remoteAddr.toList ++ t.config.strings)

def shq (s : Text) : Text := quote s

def digits (n : Nat) : Text := Nat.toDigits 10 n

def flag (key : String) (value : Option Text) : Text :=
 match value with
 | none => []
 | some v => ' ' :: (key.toList ++ ' ' :: v)

def allowedIpsText (p : WireguardPeer) : Option Text :=
 if p.allowedIps = [] then none else some (",".toList.intercalate p.allowedIps)

def peerScript (name : Text) (p : WireguardPeer) : Text :=
 "wg set ".toList ++ shq name ++ " peer ".toList ++ shq p.publicKey ++ flag "endpoint" (p.endpoint.map shq) ++
  flag "allowed-ips" ((allowedIpsText p).map shq) ++
  flag "persistent-keepalive" (p.persistentKeepalive.map digits)

def wgSetScript (name : Text) (c : WireguardConfig) : Text :=
 let own : List Text :=
  match c.privateKey with
  | some pk =>
   ["umask 077; f=$(mktemp); printf '%s' ".toList ++ shq pk ++ " > \"$f\"; wg set ".toList ++ shq name ++
    flag "listen-port" (c.listenPort.map digits) ++ " private-key \"$f\"; rm -f \"$f\"".toList]
  | none =>
   match c.listenPort with
   | some port => ["wg set ".toList ++ shq name ++ " listen-port ".toList ++ digits port]
   | none => []
 let parts := own ++ c.peers.map (peerScript name)
 if parts = [] then "true".toList else " && ".toList.intercalate parts

def addTunnelScript : Text :=
 (match t.config with
  | .gre key =>
   "ip link add ".toList ++ shq t.name ++ " type gre".toList ++ flag "local" (t.localAddr.map shq) ++
    flag "remote" (t.remoteAddr.map shq) ++ flag "key" (key.map digits)
  | .vxlan vni dstPort =>
   "ip link add ".toList ++ shq t.name ++ " type vxlan id ".toList ++ digits vni ++
    flag "local" (t.localAddr.map shq) ++ flag "remote" (t.remoteAddr.map shq) ++
    flag "dstport" (dstPort.map digits)
  | .wireguard c =>
   "ip link add ".toList ++ shq t.name ++ " type wireguard".toList ++ " && ".toList ++ wgSetScript t.name c) ++
  " && ip link set ".toList ++ shq t.name ++ " up".toList

def deleteScript (name : Text) : Text := "ip link del ".toList ++ shq name ++ " 2>/dev/null; true".toList

inductive OpError
 | transient
 | fatal (code : Int) (cmd out : Text)
 deriving DecidableEq

abbrev Answers := List Text → Text → Option (Int × Text)

abbrev Call (α : Type) := List Text → Except OpError α × List Text

section Calls

variable (answer : Answers)

def execChecked (cmd : Text) : Call Text := fun sent =>
 (match answer sent cmd with
  | none => .error .transient
  | some (code, out) => if code ≠ 0 then .error (.fatal code cmd out) else .ok out, sent ++ [cmd])

def shC (script : Text) : Text := "sh -c ".toList ++ shq script

def execThen {α : Type} (cmd : Text) (value : α) : Call α := fun sent =>
 match execChecked answer cmd sent with
 | (.error e, sent) => (.error e, sent)
 | (.ok _, sent) => (.ok value, sent)

def addTunnel (t : Tunnel) : Call Tunnel :=
 execThen answer (shC (addTunnelScript t)) { t with id := some t.name, enabled := true }

def removeTunnel (id : Text) : Call Unit := execThen answer ("ip link del ".toList ++ shq id) ()

def updateTunnel (t : Tunnel) : Call Tunnel := fun sent =>
 match execChecked answer (shC (deleteScript t.name)) sent with
 | (.error e, sent) => (.error e, sent)
 | (.ok _, sent) => addTunnel answer t sent

def setTunnelEnabled (id : Text) (enabled : Bool) : Call Unit :=
 let state := if enabled then "up" else "down"
 execThen answer ("ip link set ".toList ++ shq id ++ ' ' :: state.toList) ()

def setSessionEnabled (id : Text) (enabled : Bool) : Call Unit :=
 let action := if enabled then "enable" else "disable"
 execThen answer ("birdc ".toList ++ action.toList ++ ' ' :: shq id) ()

end Calls

def lit (s : String) : Atom := .word (.bare s.toList)

def field (s : Text) : Atom := .word (.quoted s)

def number (n : Nat) : Atom := .word (.bare (digits n))

def option (key : String) (value : Option Atom) : List Atom :=
 match value with
 | none => []
 | some v => [lit key, v]

def peerCommand (name : Text) (p : WireguardPeer) : List Atom :=
 [lit "wg", lit "set", field name, lit "peer", field p.publicKey] ++ option "endpoint" (p.endpoint.map field) ++
  (if p.allowedIps = [] then [] else [lit "allowed-ips", field (",".toList.intercalate p.allowedIps)]) ++
  option "persistent-keepalive" (p.persistentKeepalive.map number)

def linkAdd (kind : String) (options : List Atom) : List Atom :=
 [lit "ip", lit "link", lit "add", field t.name, lit "type", lit kind] ++ options

def addresses : List Atom :=
 option "local" (t.localAddr.map field) ++ option "remote" (t.remoteAddr.map field)

def linkSet (name : Text) (state : String) : List Atom :=
 [lit "ip", lit "link", lit "set", field name, lit state]

def keyFile : Token := .var "f".toList

def keyCommands (listenPort : Option Nat) (pk : Text) : Source :=
 [[linkAdd t "wireguard" [], [lit "umask", lit "077"]],
  [[.assign "f".toList "mktemp".toList]],
  [[lit "printf", field "%s".toList, field pk, .stdout keyFile]],
  [[lit "wg", lit "set", field t.name] ++ option "listen-port" (listenPort.map number) ++
   [lit "private-key", .word keyFile]]]

def wireguardCommands (c : WireguardConfig) : Source :=
 let add := linkAdd t "wireguard" []
 let rest := c.peers.map (peerCommand t.name) ++ [linkSet t.name "up"]
 match c.privateKey with
 | some pk => keyCommands t c.listenPort pk ++ [[lit "rm", lit "-f", .word keyFile] :: rest]
 | none =>
  match c.listenPort with
  | some port => [add :: [lit "wg", lit "set", field t.name, lit "listen-port", number port] :: rest]
  | none => [add :: ((if c.peers = [] then [[lit "true"]] else []) ++ rest)]

def addCommands : Source :=
 match t.config with
 | .gre key => [[linkAdd t "gre" (addresses t ++ option "key" (key.map number)), linkSet t.name "up"]]
 | .vxlan vni dstPort =>
  [[linkAdd t "vxlan" ([lit "id", number vni] ++ addresses t ++ option "dstport" (dstPort.map number)),
   linkSet t.name "up"]]
 | .wireguard c => wireguardCommands t c

def deleteCommands (name : Text) : Source :=
 [[[lit "ip", lit "link", lit "del", field name, .stderr (.bare "/dev/null".toList)]], [[lit "true"]]]

section Texts

variable {t : Tunnel} {name : Text} {c : WireguardConfig} {p : WireguardPeer}

@[simp] theorem text_lit (s : String) : (lit s).text = s.toList := rfl

@[simp] theorem text_field (s : Text) : (field s).text = shq s := rfl

@[simp] theorem text_number (n : Nat) : (number n).text = digits n := rfl

@[simp] theorem text_keyFile : (Atom.word keyFile).text = "\"$f\"".toList := by decide

theorem flatMap_option {α : Type} (key : String) (value : Option α) (f : α → Atom) :
  (option key (value.map f)).flatMap (fun b => ' ' :: b.text) = flag key (value.map fun v => (f v).text) := by
 cases value with
 | none => rfl
 | some v => simp [option, flag]

theorem allowedIps_eq :
  (if p.allowedIps = [] then [] else [lit "allowed-ips", field (",".toList.intercalate p.allowedIps)]) =
   option "allowed-ips" ((allowedIpsText p).map field) := by
 unfold allowedIpsText
 split <;> rfl

theorem commandText_peer : commandText (peerCommand name p) = peerScript name p := by
 have hhead : commandText [lit "wg", lit "set", field name, lit "peer", field p.publicKey] =
   "wg set ".toList ++ shq name ++ " peer ".toList ++ shq p.publicKey := by
  simp [commandText_cons]
 unfold peerCommand peerScript
 rw [allowedIps_eq, append_assoc, append_assoc, commandText_append (cons_ne_nil _ _), hhead]
 simp only [flatMap_append, flatMap_option, text_field, text_number]
 rw [append_assoc _ (flag _ _), append_assoc _ (flag _ _)]

theorem commandText_linkAdd (kind : String) (options : List Atom) : commandText (linkAdd t kind options) =
  "ip link add ".toList ++ shq t.name ++ " type ".toList ++ kind.toList ++
   options.flatMap fun b => ' ' :: b.text := by
 rw [linkAdd, commandText_append (cons_ne_nil _ _)]
 simp [commandText_cons]

theorem commandText_linkSet (name : Text) (state : String) :
  commandText (linkSet name state) = "ip link set ".toList ++ shq name ++ ' ' :: state.toList := by
 simp [linkSet, commandText_cons]

theorem flatMap_rest : (c.peers.map (peerCommand name) ++ [linkSet name "up"]).flatMap
   (fun b => " && ".toList ++ commandText b) =
  (c.peers.map (peerScript name)).flatMap (" && ".toList ++ ·) ++ " && ip link set ".toList ++ shq name ++
   " up".toList := by
 rw [flatMap_append, flatMap_map, flatMap_map]
 simp only [commandText_peer, flatMap_cons, flatMap_nil, commandText_linkSet]
 simp

theorem text_wireguard : (wireguardCommands t c).text =
  "ip link add ".toList ++ shq t.name ++ " type wireguard".toList ++ " && ".toList ++ wgSetScript t.name c ++
   " && ip link set ".toList ++ shq t.name ++ " up".toList := by
 unfold wireguardCommands wgSetScript
 dsimp only
 cases c.privateKey with
 | some pk =>
  have hformat : shq "%s".toList = "'%s'".toList := by decide
  have hmktemp : (Atom.assign "f".toList "mktemp".toList).text = "f=$(mktemp)".toList := by decide
  have hwrite : (Atom.stdout keyFile).text = "> \"$f\"".toList := by decide
  dsimp only
  rw [if_neg (by simp), singleton_append, intercalate_cons, Source.text, keyCommands]
  simp only [cons_append, nil_append, map_cons, map_nil, intercalate_cons, flatMap_cons,
   flatMap_nil, andText_cons, commandText_linkAdd, flatMap_rest, commandText_cons, text_field, hformat, hmktemp,
   hwrite]
  simp [flatMap_option]
 | none =>
  cases c.listenPort with
  | some port =>
   dsimp only
   rw [if_neg (by simp), singleton_append, intercalate_cons, text_singleton, andText_cons, flatMap_cons,
    flatMap_rest, commandText_linkAdd]
   simp [commandText_cons]
  | none =>
   rw [text_singleton, andText_cons, flatMap_append, flatMap_rest, commandText_linkAdd, nil_append]
   cases c.peers with
   | nil => simp [commandText_cons]
   | cons p peers => simp [intercalate_cons]

theorem addTunnelScript_eq (t : Tunnel) : addTunnelScript t = (addCommands t).text := by
 unfold addTunnelScript addCommands
 cases t.config with
 | gre key =>
  rw [text_singleton, andText_cons, commandText_linkAdd, addresses, flatMap_append, flatMap_append,
   flatMap_option, flatMap_option, flatMap_option]
  simp [commandText_linkSet]
 | vxlan vni dstPort =>
  rw [text_singleton, andText_cons, commandText_linkAdd, addresses, flatMap_append, flatMap_append,
   flatMap_append, flatMap_option, flatMap_option, flatMap_option]
  simp [commandText_linkSet]
 | wireguard c => exact text_wireguard.symm

end Texts

def received (cmd : Text) : Option Script := do
 let outer ← parse cmd
 match outer with
 | [[⟨[], [sh, c, script], []⟩]] =>
  if sh = arg "sh".toList ∧ c = arg "-c".toList then parse (← textOf script) else outer
 | _ => outer

section Received

variable {t : Tunnel} {name id s : Text} {c : WireguardConfig} {p : WireguardPeer} {atoms : List Atom} {src : Source}

theorem later_field (s : Text) : (field s).later = decide (nul ∉ s) := rfl

theorem later_number (n : Nat) : (number n).later = true := number_ok n

theorem all_option {α : Type} {key : String} {value : Option α} {f : α → Atom} (hkey : (lit key).later = true)
  (h : ∀ v ∈ value, (f v).later = true) : (option key (value.map f)).all Atom.later = true := by
 cases value with
 | none => rfl
 | some v => simp [option, hkey, h v rfl]

theorem all_number {key : String} (hkey : (lit key).later = true) (value : Option Nat) :
  (option key (value.map number)).all Atom.later = true := all_option hkey fun n _ => number_ok n

theorem commandOk_lit {key : String} {a : Atom} (hkey : commandOk [lit key] = true) :
  commandOk (lit key :: a :: atoms) = (a.later && atoms.all Atom.later) := by
 rw [lit, commandOk_cons, ← lit, hkey, Bool.true_and, all_cons]

theorem commandOk_ip {a : Atom} : commandOk (lit "ip" :: a :: atoms) = (a.later && atoms.all Atom.later) :=
 commandOk_lit (by decide)

theorem commandOk_wg {a : Atom} : commandOk (lit "wg" :: a :: atoms) = (a.later && atoms.all Atom.later) :=
 commandOk_lit (by decide)

theorem nul_intercalate {texts : List Text} (h : ∀ s ∈ texts, nul ∉ s) : nul ∉ ",".toList.intercalate texts := by
 cases texts with
 | nil => exact not_mem_nil
 | cons s texts =>
  rw [intercalate_cons, mem_append, mem_flatMap]
  rintro (hs | ⟨s', hs', hmem⟩)
  · exact h s mem_cons_self hs
  · rcases mem_append.mp hmem with hsep | hmem
    · exact absurd hsep (by decide)
    · exact h s' (mem_cons_of_mem _ hs') hmem

theorem nul_allowedIps (h : ∀ s ∈ p.strings, nul ∉ s) : ∀ ips ∈ allowedIpsText p, nul ∉ ips := by
 intro ips hips
 unfold allowedIpsText at hips
 split at hips
 · cases hips
 · cases hips
   exact nul_intercalate fun s hs => h s (by simp [WireguardPeer.strings, hs])

theorem commandOk_peer (hname : nul ∉ name) (h : ∀ s ∈ p.strings, nul ∉ s) : commandOk (peerCommand name p) = true := by
 have hkey : nul ∉ p.publicKey := h _ mem_cons_self
 have hendpoint : (option "endpoint" (p.endpoint.map field)).all Atom.later = true :=
  all_option (by decide) fun e he => decide_eq_true (h e (by simp [WireguardPeer.strings, mem_def.mp he]))
 have hips : (option "allowed-ips" ((allowedIpsText p).map field)).all Atom.later = true :=
  all_option (by decide) fun ips hips => decide_eq_true (nul_allowedIps h ips hips)
 have hkeepalive : (lit "persistent-keepalive").later = true := by decide
 simp only [peerCommand, allowedIps_eq, cons_append, nil_append, commandOk_wg, all_cons, all_append,
  later_field, hkey, hname, hendpoint, hips, all_number hkeepalive]
 decide

theorem commandOk_linkAdd {kind : String} {options : List Atom} (hname : nul ∉ t.name)
  (hkind : (lit kind).later = true) (h : options.all Atom.later = true) :
  commandOk (linkAdd t kind options) = true := by
 simp only [linkAdd, cons_append, nil_append, commandOk_ip, all_cons, later_field, hname, hkind, h]
 decide

theorem commandOk_linkSet {state : String} (hname : nul ∉ name) (hstate : (lit state).later = true) :
  commandOk (linkSet name state) = true := by
 simp only [linkSet, commandOk_ip, all_cons, later_field, hname, hstate]
 decide

theorem all_addresses (h : ∀ s ∈ t.strings, nul ∉ s) : (addresses t).all Atom.later = true := by
 rw [addresses, all_append, Bool.and_eq_true]
 constructor
 · exact all_option (by decide) fun s hs => decide_eq_true (h s (by simp [Tunnel.strings, mem_def.mp hs]))
 · exact all_option (by decide) fun s hs => decide_eq_true (h s (by simp [Tunnel.strings, mem_def.mp hs]))

theorem wireguardCommands_ok (hname : nul ∉ t.name) (h : ∀ s ∈ (TunnelConfig.wireguard c).strings, nul ∉ s) :
  (wireguardCommands t c).ok = true := by
 have hadd : commandOk (linkAdd t "wireguard" []) = true := commandOk_linkAdd hname (by decide) rfl
 have hup : commandOk (linkSet t.name "up") = true := commandOk_linkSet hname (by decide)
 have hpeers : c.peers.all (commandOk ∘ peerCommand t.name) = true := all_eq_true.mpr fun p hp =>
  commandOk_peer hname fun s hs => h s (mem_append_right _ (mem_flatMap.mpr ⟨p, hp, hs⟩))
 have hlisten : (lit "listen-port").later = true := by decide
 unfold wireguardCommands
 cases hkey : c.privateKey with
 | some pk =>
  have hpk : nul ∉ pk := h pk (by simp [TunnelConfig.strings, hkey])
  have hprintf : commandOk [lit "printf"] = true := by decide
  simp only [Source.ok, keyCommands, List.all_cons, List.all_append, List.all_map, List.cons_append, List.nil_append,
   hadd, hup, hpeers, commandOk_wg, commandOk_lit hprintf, later_field, hname, hpk, all_number hlisten, ne_eq,
   reduceCtorEq]
  decide
 | none =>
  cases c.listenPort with
  | some port =>
   simp only [Source.ok, List.all_cons, List.all_append, List.all_map, hadd, hup, hpeers, commandOk_wg,
    later_field, later_number, hname, ne_eq, reduceCtorEq]
   decide
  | none =>
   have htrue : (if c.peers = [] then [[lit "true"]] else []).all commandOk = true := by split <;> decide
   simp only [Source.ok, List.all_cons, List.all_append, List.all_map, hadd, hup, hpeers, htrue, ne_eq,
    reduceCtorEq]
   decide

theorem addCommands_ok (h : ∀ s ∈ t.strings, nul ∉ s) : (addCommands t).ok = true := by
 have hname : nul ∉ t.name := h _ mem_cons_self
 have hup : commandOk (linkSet t.name "up") = true := commandOk_linkSet hname (by decide)
 unfold addCommands
 split
 · rename_i key _
   have hoptions : (addresses t ++ option "key" (key.map number)).all Atom.later = true := by
    rw [all_append, all_addresses h, all_number (by decide)]
    rfl
   have hadd := commandOk_linkAdd hname (by decide : (lit "gre").later = true) hoptions
   simp only [Source.ok, all_cons, hadd, hup, ne_eq, reduceCtorEq]
   decide
 · rename_i vni dstPort _
   have hoptions : ([lit "id", number vni] ++ addresses t ++ option "dstport" (dstPort.map number)).all Atom.later =
     true := by
    have hport : (lit "dstport").later = true := by decide
    simp only [all_append, all_cons, later_number, all_addresses h, all_number hport]
    decide
   have hadd := commandOk_linkAdd hname (by decide : (lit "vxlan").later = true) hoptions
   simp only [Source.ok, all_cons, hadd, hup, ne_eq, reduceCtorEq]
   decide
 · rename_i c hconfig
   refine wireguardCommands_ok hname fun s hs => h s ?_
   simp [Tunnel.strings, hconfig, hs]

theorem received_shC (h : src.ok = true) : received (shC src.text) = some src.script := by
 have hsh : commandOk [lit "sh"] = true := by decide
 have hok : commandOk [lit "sh", lit "-c", field src.text] = true := by
  simp only [commandOk_lit hsh, all_cons, later_field, Source.nul_text h]
  decide
 have houter : received (commandText [lit "sh", lit "-c", field src.text]) = (textOf (arg src.text)).bind parse := by
  unfold received
  rw [parse_command hok]
  rfl
 have htext : shC src.text = commandText [lit "sh", lit "-c", field src.text] := by
  unfold shC
  rw [commandText_cons]
  simp
 rw [htext, houter, State.textOf_arg, bind_some, parse_source h]

theorem received_delete (h : nul ∉ name) : received (shC (deleteScript name)) = some (deleteCommands name).script := by
 have htext : deleteScript name = (deleteCommands name).text := by
  have hfile : ∀ file, (Atom.stderr (.bare file)).text = '2' :: '>' :: file := fun _ => rfl
  unfold deleteScript deleteCommands Source.text
  simp only [map_cons, map_nil, andText_cons, intercalate_cons, commandText_cons]
  simp [hfile]
 rw [htext]
 refine received_shC ?_
 simp only [deleteCommands, Source.ok, all_cons, commandOk_ip, later_field, h, ne_eq, reduceCtorEq]
 decide

theorem sent_execThen {α : Type} (answer : Answers) (cmd : Text) (value : α) (sent : List Text) :
  (execThen answer cmd value sent).2 = sent ++ [cmd] := by
 unfold execThen
 split <;> rename_i h <;> exact (congrArg Prod.snd h).symm

theorem received_remove (h : nul ∉ id) :
  received ("ip link del ".toList ++ shq id) = some [[command [lit "ip", lit "link", lit "del", field id]]] := by
 have hok : commandOk [lit "ip", lit "link", lit "del", field id] = true := by
  simp only [commandOk_ip, all_cons, later_field, h]
  decide
 have htext : "ip link del ".toList ++ shq id = commandText [lit "ip", lit "link", lit "del", field id] := by
  rw [commandText_cons]
  simp
 unfold received
 rw [htext, parse_command hok]
 rfl

theorem received_linkSet {state : String} (h : nul ∉ id) (hstate : (lit state).later = true) :
  received ("ip link set ".toList ++ shq id ++ ' ' :: state.toList) = some [[command (linkSet id state)]] := by
 unfold received
 rw [← commandText_linkSet, parse_command (commandOk_linkSet h hstate)]
 rfl

theorem received_birdc {action : String} (h : nul ∉ id) (haction : (lit action).later = true) :
  received ("birdc ".toList ++ action.toList ++ ' ' :: shq id) =
   some [[command [lit "birdc", lit action, field id]]] := by
 have hbirdc : commandOk [lit "birdc"] = true := by decide
 have hok : commandOk [lit "birdc", lit action, field id] = true := by
  simp only [commandOk_lit hbirdc, all_cons, later_field, h, haction]
  decide
 have htext : "birdc ".toList ++ action.toList ++ ' ' :: shq id = commandText [lit "birdc", lit action, field id] := by
  rw [commandText_cons]
  simp
 unfold received
 rw [htext, parse_command hok]
 rfl

end Received

/-- Whatever is in the strings, every call makes the router execute the commands that are meant and no others, with each
string as one argument. -/
theorem commands_not_injected (answer : Answers) (t : Tunnel) (id : Text) (enabled : Bool)
  (ht : ∀ s ∈ t.strings, nul ∉ s) (hid : nul ∉ id) :
  (addTunnel answer t []).2.map received = [some (addCommands t).script] ∧
   (updateTunnel answer t []).2.map received = some (deleteCommands t.name).script ::
    (if (execChecked answer (shC (deleteScript t.name)) []).1.isOk then [some (addCommands t).script] else []) ∧
   (removeTunnel answer id []).2.map received =
    [some [[command [lit "ip", lit "link", lit "del", field id]]]] ∧
   (setTunnelEnabled answer id enabled []).2.map received =
    [some [[command (linkSet id (if enabled then "up" else "down"))]]] ∧
   (setSessionEnabled answer id enabled []).2.map received =
    [some [[command [lit "birdc", lit (if enabled then "enable" else "disable"), field id]]]] := by
 have hadd : received (shC (addTunnelScript t)) = some (addCommands t).script := by
  rw [addTunnelScript_eq]
  exact received_shC (addCommands_ok ht)
 have hname : nul ∉ t.name := ht _ mem_cons_self
 refine ⟨?_, ?_, ?_, ?_, ?_⟩
 · rw [addTunnel, sent_execThen, nil_append, map_singleton, hadd]
 · unfold updateTunnel
   split
   · rename_i e sent hexec
     have hsent : sent = [shC (deleteScript t.name)] := (congrArg Prod.snd hexec).symm
     rw [hexec, hsent, map_singleton, received_delete hname]
     rfl
   rename_i out sent hexec
   have hsent : sent = [shC (deleteScript t.name)] := (congrArg Prod.snd hexec).symm
   rw [addTunnel, sent_execThen, hexec, hsent, singleton_append, map_cons, received_delete hname,
    map_singleton, hadd]
   rfl
 · rw [removeTunnel, sent_execThen, nil_append, map_singleton, received_remove hid]
 · rw [setTunnelEnabled, sent_execThen, nil_append, map_singleton,
    received_linkSet hid (by cases enabled <;> decide)]
 · rw [setSessionEnabled, sent_execThen, nil_append, map_singleton,
    received_birdc hid (by cases enabled <;> decide)]

def quotedTunnel : Tunnel where
  name := "a'; reboot #".toList
  config := .wireguard { peers := [{
    publicKey := "$(id)\n".toList, allowedIps := ["10.0.0.0/8".toList, "b c".toList], persistentKeepalive := some 25 }] }

def plain (words : List String) : Command := { words := words.map (arg ·.toList) }

theorem commands_not_injected_wireguard : ∃ (t : Tunnel) (id : Text), (∀ s ∈ t.strings, nul ∉ s) ∧ nul ∉ id ∧
  (addTunnel (fun _ _ => none) t []).2.map received =
   [some [[plain ["ip", "link", "add", "a'; reboot #", "type", "wireguard"],
    plain ["wg", "set", "a'; reboot #", "peer", "$(id)\n", "allowed-ips", "10.0.0.0/8,b c", "persistent-keepalive",
     "25"],
    plain ["ip", "link", "set", "a'; reboot #", "up"]]]] :=
 ⟨quotedTunnel, [], by decide, by decide,
  (commands_not_injected (fun _ _ => none) quotedTunnel [] true (by decide) (by decide)).1.trans (by decide)⟩

def Tunnel.privateKey : Option Text :=
 match t.config with
 | .wireguard c => c.privateKey
 | _ => none

def executing (src : Source) (codes : Nat → Nat) (out : Text) : Answers := fun _ cmd =>
 if cmd = shC src.text then some ((runLists codes 0 src.script).2, out) else none

def configures (cmd : Command) : Bool :=
 cmd.words.head? = some (arg "ip".toList) || cmd.words.head? = some (arg "wg".toList)

theorem isOk_addTunnel {t : Tunnel} {codes : Nat → Nat} {out : Text} {sent : List Text} :
  (addTunnel (executing (addCommands t) codes out) t sent).1.isOk = true ↔
   (runLists codes 0 (addCommands t).script).2 = 0 := by
 unfold addTunnel execThen execChecked executing
 rw [addTunnelScript_eq, if_pos rfl]
 by_cases hzero : (runLists codes 0 (addCommands t).script).2 = 0
 · simp [hzero, Except.isOk, Except.toBool]
 · simp [hzero, Except.isOk, Except.toBool]

theorem script_eq : ∃ init last, (addCommands t).script = init ++ [last] ∧
  ((∀ a ∈ init.flatten, configures a = false) ↔ t.privateKey = none) := by
 unfold addCommands Tunnel.privateKey
 cases t.config with
 | gre key | vxlan vni dstPort => exact ⟨[], _, rfl, by simp⟩
 | wireguard c =>
  unfold wireguardCommands
  dsimp only
  cases c.privateKey with
  | some pk =>
   refine ⟨Source.script (keyCommands t c.listenPort pk), _, map_append .., iff_of_false (fun h => ?_) nofun⟩
   exact absurd (h (command (linkAdd t "wireguard" [])) mem_cons_self) Bool.false_ne_true.symm
  | none =>
   cases c.listenPort with
   | some port => exact ⟨[], _, rfl, by simp⟩
   | none => exact ⟨[], _, rfl, by simp⟩

/-- A tunnel that is reported as created exists, with every command for it executed and successful, exactly if the
script has no private key to write. -/
theorem created_tunnel_exists_iff (t : Tunnel) :
  (∀ codes out sent, (addTunnel (executing (addCommands t) codes out) t sent).1.isOk = true →
   Succeeded configures codes (addCommands t).script) ↔ t.privateKey = none := by
 obtain ⟨init, last, hscript, hkey⟩ := script_eq t
 have hiff : _ ↔ ∀ a ∈ init.flatten, configures a = false := succeeded_iff init last
 rw [← hscript, hkey] at hiff
 rw [← hiff]
 constructor
 · exact fun h codes hzero => h codes [] [] (isOk_addTunnel.mpr hzero)
 · exact fun h codes out sent hok => h codes (isOk_addTunnel.mp hok)

def keyedTunnel : Tunnel where
 name := "wg0".toList
 config := .wireguard { privateKey := some "key".toList }

/-- The private key is refused, and the tunnel is reported as created. -/
theorem tunnel_without_key : ∃ codes,
  (addTunnel (executing (addCommands keyedTunnel) codes []) keyedTunnel []).1 =
    .ok { keyedTunnel with id := some keyedTunnel.name } ∧
   (addCommands keyedTunnel).script.flatten[4]? =
    some (command [lit "wg", lit "set", field "wg0".toList, lit "private-key", .word keyFile]) ∧
   codes 4 = 1 ∧ ¬ Succeeded configures codes (addCommands keyedTunnel).script := by
 refine ⟨fun i => if i = 4 then 1 else 0, by decide +kernel, by decide +kernel, rfl, fun h => ?_⟩
 have hset := (h 4 (command [lit "wg", lit "set", field "wg0".toList, lit "private-key", .word keyFile])
  (by decide +kernel) (by decide)).2
 exact absurd hset (by decide)

end Lnvps.Router
