import Lnvps.Lib.Outcome
import Lnvps.Lib.Run
import Lnvps.Lib.Table

/-! # The roles of administrators -/

namespace Lnvps.Roles

open Table Outcome Steps List Option

inductive AdminResource
 | users | virtualMachines | hosts | payments | analytics | system | roles | audit | accessPolicy | company | ipRange
 | router | vmCustomPricing | hostRegion | vmOsImage | vmPayment | vmTemplate | subscriptions | subscriptionLineItems
 | subscriptionPayments | ipSpace | paymentMethodConfig | dnsServer | userPaymentMethod | resourceCost | referral | app
 deriving DecidableEq

inductive AdminAction
 | create | view | update | delete | bulkUpdate
 deriving DecidableEq

def AdminResource.table : List (AdminResource × String) :=
 [(.users, "users"), (.virtualMachines, "virtual_machines"), (.hosts, "hosts"), (.payments, "payments"),
  (.analytics, "analytics"), (.system, "system"), (.roles, "roles"), (.audit, "audit"),
  (.accessPolicy, "access_policy"), (.company, "company"), (.ipRange, "ip_range"), (.router, "router"),
  (.vmCustomPricing, "vm_custom_pricing"), (.hostRegion, "host_region"), (.vmOsImage, "vm_os_image"),
  (.vmPayment, "vm_payment"), (.vmTemplate, "vm_template"), (.subscriptions, "subscriptions"),
  (.subscriptionLineItems, "subscription_line_items"), (.subscriptionPayments, "subscription_payments"),
  (.ipSpace, "ip_space"), (.paymentMethodConfig, "payment_method_config"), (.dnsServer, "dns_server"),
  (.userPaymentMethod, "user_payment_method"), (.resourceCost, "resource_cost"), (.referral, "referral"),
  (.app, "app")]

def AdminAction.table : List (AdminAction × String) :=
 [(.create, "create"), (.view, "view"), (.update, "update"), (.delete, "delete"), (.bulkUpdate, "bulk_update")]

section Enums

variable {α : Type} [DecidableEq α] (table : List (α × String))

def textOf (a : α) : String := ((table.find? fun entry => entry.1 = a).map (·.2)).getD ""

def numberOf (a : α) : Nat := table.findIdx fun entry => entry.1 = a

def ofNumber (n : Nat) : Option α := table[n]?.map (·.1)

def ofText (text : String) : Option α := (table.find? fun entry => entry.2 = text).map (·.1)

end Enums

structure Permission where
 resource : AdminResource
 action : AdminAction
 deriving DecidableEq

def cut : List Char → List Char × Option (List Char)
 | ':' :: ':' :: rest => ([], some rest)
 | c :: rest => (c :: (cut rest).1, (cut rest).2)
 | [] => ([], none)

def toLowercase (s : List Char) : String := String.ofList (s.map fun c => if c = '\u212a' then 'k' else c.toLower)

def resourceFromStr (s : List Char) : Option AdminResource :=
 let text := toLowercase s
 if text = "vms" then some .virtualMachines else ofText AdminResource.table text

def actionFromStr (s : List Char) : Option AdminAction :=
 let text := toLowercase s
 if text = "read" ∨ text = "list" then some .view
 else if text = "edit" then some .update
 else if text = "remove" then some .delete
 else if text = "bulk" then some .bulkUpdate
 else ofText AdminAction.table text

def permissionFromStr (s : String) : Option Permission := do
 let (resource, rest) := cut s.toList
 let rest ← rest
 let resource ← resourceFromStr resource
 let action ← actionFromStr (cut rest).1
 some { resource, action }

structure AdminRole where
 id : Nat
 name : String
 description : Option String := none
 isSystemRole : Bool := false

structure RolePermission where
 (roleId resource action : Nat)
 deriving DecidableEq

structure RoleAssignment where
 (userId roleId : Nat)
 assignedBy : Option Nat := none
 assignedAt : Int := 0
 expiresAt : Option Int := none

structure RoleDb where
 users : List Nat := []
 roles : List AdminRole := []
 permissions : List RolePermission := []
 assignments : List RoleAssignment := []
 nextId : Nat := 1

inductive ApiError
 | forbidden (message : String)
 | error (message : String)
 | database
 deriving DecidableEq

namespace RoleDb

variable (sameName : String → String → Bool) (db : RoleDb)

def getUser (id : Nat) : Except ApiError Unit := ensure (db.users.contains id) .database

def getRole (id : Nat) : Except ApiError AdminRole := ofOption .database (lookup (·.id) id db.roles)

def live (now : Int) (a : RoleAssignment) : Bool := a.expiresAt.all (now < ·)

def getUserRoles (now : Int) (userId : Nat) : List Nat :=
 (db.assignments.filter fun a => a.userId = userId ∧ live now a).map (·.roleId)

def getUserPermissions (now : Int) (userId : Nat) : List (Nat × Nat) :=
 ((db.getUserRoles now userId).flatMap fun roleId =>
  (db.permissions.filter fun p => p.roleId = roleId).map fun p => (p.resource, p.action)).dedup

def getRolePermissions (roleId : Nat) : List (Nat × Nat) :=
 ((db.permissions.filter fun p => p.roleId = roleId).map fun p => (p.resource, p.action)).insertionSort
  fun p q => p.1 < q.1 ∨ (p.1 = q.1 ∧ p.2 ≤ q.2)

def countRoleUsers (now : Int) (roleId : Nat) : Nat :=
 db.assignments.countP fun a => a.roleId = roleId ∧ live now a

def assignUserRole (now : Int) (userId roleId assignedBy : Nat) : RoleDb :=
 let row : RoleAssignment := { userId, roleId, assignedBy := some assignedBy, assignedAt := now }
 { db with
   assignments :=
    if db.assignments.any fun a => a.userId = userId ∧ a.roleId = roleId then
     updateWhere (fun a => a.userId = userId ∧ a.roleId = roleId) (fun _ => row) db.assignments
    else db.assignments ++ [row] }

def revokeUserRole (userId roleId : Nat) : RoleDb :=
 { db with assignments := db.assignments.filter fun a => ¬ (a.userId = userId ∧ a.roleId = roleId) }

def createRole (name : String) (description : Option String) : Except ApiError (RoleDb × Nat) := do
 ensure (db.roles.all fun r => !sameName r.name name) .database
 return ({ db with roles := db.roles ++ [{ id := db.nextId, name, description }], nextId := db.nextId + 1 }, db.nextId)

def updateRole (role : AdminRole) : Except ApiError RoleDb := do
 ensure (db.roles.all fun r => r.id = role.id ∨ !sameName r.name role.name) .database
 ensure (db.roles.any fun r => r.id = role.id ∧ !r.isSystemRole) .database
 return { db with
  roles := updateWhere (fun r => r.id = role.id ∧ !r.isSystemRole)
   (fun r => { r with name := role.name, description := role.description }) db.roles }

def deleteRole (roleId : Nat) : Except ApiError RoleDb := do
 ensure (db.assignments.all fun a => a.roleId ≠ roleId) .database
 ensure (db.roles.any fun r => r.id = roleId ∧ !r.isSystemRole) .database
 return { db with
  roles := db.roles.filter fun r => ¬ (r.id = roleId ∧ !r.isSystemRole)
  permissions := db.permissions.filter fun p => p.roleId ≠ roleId }

def addRolePermission (roleId resource action : Nat) : RoleDb :=
 let row : RolePermission := { roleId, resource, action }
 { db with permissions := if db.permissions.contains row then db.permissions else db.permissions ++ [row] }

def removeRolePermission (roleId resource action : Nat) : RoleDb :=
 { db with permissions := db.permissions.filter fun p => p ≠ { roleId, resource, action } }

end RoleDb

structure AdminAuth where
 userId : Nat
 permissions : List Permission

def decodePermission (p : Nat × Nat) : Option Permission := do
 let resource ← ofNumber AdminResource.table p.1
 let action ← ofNumber AdminAction.table p.2
 some { resource, action }

def fromNip98Auth (db : RoleDb) (now : Int) (userId : Nat) : AdminAuth where
 userId := userId
 permissions := (db.getUserPermissions now userId).filterMap decodePermission

def anySuperAdmin (db : RoleDb) : List Nat → Except ApiError Bool
 | [] => .ok false
 | roleId :: rest => do
  let role ← db.getRole roleId
  if role.name = "super_admin" then return true else anySuperAdmin db rest

def isSuperAdmin (db : RoleDb) (now : Int) (userId : Nat) : Except ApiError Bool :=
 anySuperAdmin db (db.getUserRoles now userId)

def AdminAuth.requirePermission (auth : AdminAuth) (resource : AdminResource) (action : AdminAction) :
  Except ApiError Unit :=
 ensure (auth.permissions.contains { resource, action })
  (.forbidden ("Insufficient permissions for " ++ textOf AdminResource.table resource ++ "::" ++
   textOf AdminAction.table action))

structure Reply where
 db : RoleDb
 result : Except ApiError Unit := .ok ()

def addPermissions (roleId : Nat) : RoleDb → List String → Reply
 | db, [] => { db }
 | db, text :: rest =>
  match permissionFromStr text with
  | none => { db, result := .error (.error ("Invalid permission format: " ++ text)) }
  | some p => addPermissions roleId
    (db.addRolePermission roleId (numberOf AdminResource.table p.resource) (numberOf AdminAction.table p.action))
    rest

section Requests

variable (sameName : String → String → Bool) (db : RoleDb) (now : Int) (auth : AdminAuth)

def adminCreateRole (name : String) (description : Option String) (permissions : List String) :
  Except ApiError Reply := do
 auth.requirePermission .roles .create
 let (db, roleId) ← db.createRole sameName name description
 return addPermissions roleId db permissions

def adminUpdateRole (id : Nat) (name description : Option String) (permissions : Option (List String)) :
  Except ApiError Reply := do
 auth.requirePermission .roles .update
 let role ← db.getRole id
 ensure (!role.isSystemRole) (.forbidden "Cannot modify system roles")
 let db ← db.updateRole sameName
  { role with name := name.getD role.name, description := description.or role.description }
 match permissions with
 | none => return { db }
 | some permissions =>
  let cleared := (db.getRolePermissions id).foldl (fun db p => db.removeRolePermission id p.1 p.2) db
  return addPermissions id cleared permissions

def adminDeleteRole (id : Nat) : Except ApiError Reply := do
 auth.requirePermission .roles .delete
 let role ← db.getRole id
 ensure (!role.isSystemRole) (.forbidden "Cannot delete system roles")
 let userCount := db.countRoleUsers now id
 ensure (userCount = 0) (.error ("Cannot delete role with " ++ toString userCount ++
  " assigned users. Remove all user assignments first."))
 let db ← db.deleteRole id
 return { db }

def adminAssignUserRole (userId roleId : Nat) : Except ApiError Reply := do
 auth.requirePermission .users .update
 db.getUser userId
 let _ ← db.getRole roleId
 return { db := db.assignUserRole now userId roleId auth.userId }

def adminRevokeUserRole (userId roleId : Nat) : Except ApiError Reply := do
 auth.requirePermission .users .update
 db.getUser userId
 let role ← db.getRole roleId
 if auth.userId = userId ∧ role.name = "super_admin" then
  let own ← isSuperAdmin db now auth.userId
  ensure (!own) (.forbidden "Super admins cannot revoke their own super_admin role")
 return { db := db.revokeUserRole userId roleId }

inductive Request
 | create (name : String) (description : Option String) (permissions : List String)
 | update (id : Nat) (name description : Option String) (permissions : Option (List String))
 | delete (id : Nat)
 | assign (userId roleId : Nat)
 | revoke (userId roleId : Nat)

def respond : Request → Except ApiError Reply
 | .create name description permissions => adminCreateRole sameName db auth name description permissions
 | .update id name description permissions => adminUpdateRole sameName db auth id name description permissions
 | .delete id => adminDeleteRole db now auth id
 | .assign userId roleId => adminAssignUserRole db now auth userId roleId
 | .revoke userId roleId => adminRevokeUserRole db now auth userId roleId

def handle (request : Request) : Reply :=
 match respond sameName db now auth request with
 | .ok reply => reply
 | .error e => { db, result := .error e }

end Requests

structure State where
 db : RoleDb
 now : Int := 0

inductive Label
 | tick (seconds : Nat)
 | request (caller : Nat) (request : Request)

def step (sameName : String → String → Bool) (group : List Nat) (s : State) : Label → Option State
 | .tick seconds => some { s with now := s.now + seconds }
 | .request caller request =>
  if group.contains caller then
   some { s with db := (handle sameName s.db s.now (fromNip98Auth s.db s.now caller) request).db }
  else none

def permissionsOf (s : State) (userId : Nat) : List Permission := (fromNip98Auth s.db s.now userId).permissions

variable (group : List Nat)

def grouped (s : State) (p : Permission) : Bool := group.any fun u => (permissionsOf s u).contains p

def Secure (start s : State) : Prop :=
 ∀ u ∈ group, isSuperAdmin s.db s.now u ≠ .ok true ∧ ∀ p ∈ permissionsOf s u, grouped group start p = true

def modest (start : State) (db : RoleDb) (role : AdminRole) : Bool :=
 role.name ≠ "super_admin" ∧
  ((db.permissions.filter fun p => p.roleId = role.id).filterMap fun p => decodePermission (p.resource, p.action)).all
   (grouped group start)

def harmless (start s : State) : Label → Bool
 | .request caller (.assign userId roleId) =>
  !((permissionsOf s caller).contains ⟨.users, .update⟩ && group.contains userId && s.db.users.contains userId) ||
   (lookup (·.id) roleId s.db.roles).all (modest group start s.db)
 | _ => true

section Effect

variable {sameName : String → String → Bool} {db : RoleDb} {now : Int} {auth : AdminAuth} {request : Request}

def LacksRoles (permissions : List Permission) : Prop :=
 ∀ action ∈ [AdminAction.create, .update, .delete], (⟨.roles, action⟩ : Permission) ∉ permissions

instance (permissions : List Permission) : Decidable (LacksRoles permissions) :=
 inferInstanceAs (Decidable (∀ action ∈ [AdminAction.create, .update, .delete], _ ∉ permissions))

theorem requirePermission_eq_ok {resource : AdminResource} {action : AdminAction} {u : Unit} :
  auth.requirePermission resource action = .ok u ↔ ⟨resource, action⟩ ∈ auth.permissions := by
 simp [AdminAuth.requirePermission]

theorem getRole_eq_ok {id : Nat} {role : AdminRole} :
  db.getRole id = .ok role ↔ lookup (·.id) id db.roles = some role := by
 simp [RoleDb.getRole]

theorem getUser_eq_ok {id : Nat} {u : Unit} : db.getUser id = .ok u ↔ id ∈ db.users := by
 simp [RoleDb.getUser]

theorem handle_effect (sameName : String → String → Bool) (request : Request)
  (hlacks : LacksRoles auth.permissions) :
  (handle sameName db now auth request).db = db ∨
  (∃ userId roleId role, request = .assign userId roleId ∧ ⟨.users, .update⟩ ∈ auth.permissions ∧
   userId ∈ db.users ∧ lookup (·.id) roleId db.roles = some role ∧
   (handle sameName db now auth request).db = db.assignUserRole now userId roleId auth.userId) ∨
  ∃ userId roleId, (handle sameName db now auth request).db = db.revokeUserRole userId roleId := by
 unfold handle
 split
 · rename_i reply hreply
   cases request with
   | create name description permissions =>
    obtain ⟨⟨⟩, hperm, -⟩ := bind_eq_ok.mp hreply
    exact absurd (requirePermission_eq_ok.mp hperm) (hlacks .create (by simp))
   | update id name description permissions =>
    obtain ⟨⟨⟩, hperm, -⟩ := bind_eq_ok.mp hreply
    exact absurd (requirePermission_eq_ok.mp hperm) (hlacks .update (by simp))
   | delete id =>
    obtain ⟨⟨⟩, hperm, -⟩ := bind_eq_ok.mp hreply
    exact absurd (requirePermission_eq_ok.mp hperm) (hlacks .delete (by simp))
   | assign userId roleId =>
    obtain ⟨⟨⟩, hperm, h⟩ := bind_eq_ok.mp hreply
    obtain ⟨⟨⟩, huser, h⟩ := bind_eq_ok.mp h
    obtain ⟨role, hrole, h⟩ := bind_eq_ok.mp h
    cases h
    exact .inr (.inl ⟨userId, roleId, role, rfl, requirePermission_eq_ok.mp hperm, getUser_eq_ok.mp huser,
     getRole_eq_ok.mp hrole, rfl⟩)
   | revoke userId roleId =>
    obtain ⟨-, -, h⟩ := bind_eq_ok.mp hreply
    obtain ⟨-, -, h⟩ := bind_eq_ok.mp h
    obtain ⟨role, -, h⟩ := bind_eq_ok.mp h
    refine .inr (.inr ⟨userId, roleId, ?_⟩)
    split at h
    · obtain ⟨own, -, h⟩ := bind_eq_ok.mp h
      obtain ⟨⟨⟩, -, h⟩ := bind_eq_ok.mp h
      exact (Except.ok.inj h).symm ▸ rfl
    · exact (Except.ok.inj h).symm ▸ rfl
 · exact .inl rfl

theorem handle_assign {userId roleId : Nat} {role : AdminRole} (hperm : ⟨.users, .update⟩ ∈ auth.permissions)
  (huser : userId ∈ db.users) (hrole : lookup (·.id) roleId db.roles = some role) :
  (handle sameName db now auth (.assign userId roleId)).db = db.assignUserRole now userId roleId auth.userId := by
 have hreply : respond sameName db now auth (.assign userId roleId) =
   .ok { db := db.assignUserRole now userId roleId auth.userId } := by
  have hperm' : auth.requirePermission .users .update = .ok () := requirePermission_eq_ok.mpr hperm
  have huser' : db.getUser userId = .ok () := getUser_eq_ok.mpr huser
  rw [respond, adminAssignUserRole, hperm', huser', getRole_eq_ok.mpr hrole]
  rfl
 rw [handle, hreply]

end Effect

section Held

variable {db : RoleDb} {now : Int} {userId roleId assignedBy : Nat} {u : Nat} {p : Permission}

def Holds (db : RoleDb) (now : Int) (userId roleId : Nat) : Prop :=
 ∃ a ∈ db.assignments, a.userId = userId ∧ a.roleId = roleId ∧ RoleDb.live now a = true

def Grants (db : RoleDb) (roleId : Nat) (p : Permission) : Prop :=
 ∃ row ∈ db.permissions, row.roleId = roleId ∧ decodePermission (row.resource, row.action) = some p

def Linked (db : RoleDb) : Prop := ∀ a ∈ db.assignments, (lookup (·.id) a.roleId db.roles).isSome = true

instance (db : RoleDb) : Decidable (Linked db) :=
 inferInstanceAs (Decidable (∀ a ∈ db.assignments, (lookup (·.id) a.roleId db.roles).isSome = true))

theorem mem_getUserRoles : roleId ∈ db.getUserRoles now u ↔ Holds db now u roleId := by
 simp only [RoleDb.getUserRoles, List.mem_map, List.mem_filter, decide_eq_true_eq, Holds]
 constructor
 · rintro ⟨a, ⟨ha, hu, hlive⟩, hrole⟩
   exact ⟨a, ha, hu, hrole, hlive⟩
 · rintro ⟨a, ha, hu, hrole, hlive⟩
   exact ⟨a, ⟨ha, hu, hlive⟩, hrole⟩

theorem mem_permissionsOf {s : State} :
  p ∈ permissionsOf s u ↔ ∃ roleId, Holds s.db s.now u roleId ∧ Grants s.db roleId p := by
 simp only [permissionsOf, fromNip98Auth, mem_filterMap, RoleDb.getUserPermissions, mem_dedup,
  List.mem_flatMap, List.mem_map, List.mem_filter, decide_eq_true_eq, mem_getUserRoles, Grants]
 constructor
 · rintro ⟨_, ⟨roleId, hholds, row, ⟨hrow, hid⟩, rfl⟩, hp⟩
   exact ⟨roleId, hholds, row, hrow, hid, hp⟩
 · rintro ⟨roleId, hholds, row, hrow, hid, hp⟩
   exact ⟨_, ⟨roleId, hholds, row, ⟨hrow, hid⟩, rfl⟩, hp⟩

theorem anySuperAdmin_eq_true {roleIds : List Nat} (h : ∀ id ∈ roleIds, (lookup (·.id) id db.roles).isSome = true) :
  anySuperAdmin db roleIds = .ok true ↔
   ∃ id ∈ roleIds, ∃ role, lookup (·.id) id db.roles = some role ∧ role.name = "super_admin" := by
 induction roleIds with
 | nil => simp [anySuperAdmin]
 | cons id rest ih =>
  obtain ⟨role, hrole⟩ := isSome_iff_exists.mp (h id mem_cons_self)
  have hrest := ih fun id' hid' => h id' (mem_cons_of_mem _ hid')
  rw [anySuperAdmin, getRole_eq_ok.mpr hrole]
  by_cases hname : role.name = "super_admin"
  · simp [hname, hrole, bind, Except.bind, pure, Except.pure]
  · simp [hname, hrole, bind, Except.bind, hrest]

theorem isSuperAdmin_iff (hlinked : Linked db) : isSuperAdmin db now u = .ok true ↔
  ∃ roleId role, Holds db now u roleId ∧ lookup (·.id) roleId db.roles = some role ∧ role.name = "super_admin" := by
 rw [isSuperAdmin, anySuperAdmin_eq_true]
 · simp only [mem_getUserRoles]
   constructor
   · rintro ⟨roleId, hholds, role, hrole, hname⟩
     exact ⟨roleId, role, hholds, hrole, hname⟩
   · rintro ⟨roleId, role, hholds, hrole, hname⟩
     exact ⟨roleId, hholds, role, hrole, hname⟩
 · intro roleId hid
   obtain ⟨a, ha, -, rfl, -⟩ := mem_getUserRoles.mp hid
   exact hlinked a ha

theorem mem_assignUserRole {a : RoleAssignment}
  (h : a ∈ (db.assignUserRole now userId roleId assignedBy).assignments) :
  a ∈ db.assignments ∨ a.userId = userId ∧ a.roleId = roleId := by
 simp only [RoleDb.assignUserRole] at h
 split at h
 · obtain ⟨a₀, ha₀, rfl⟩ := mem_updateWhere.mp h
   split
   · exact .inr ⟨rfl, rfl⟩
   · exact .inl ha₀
 · rcases mem_snoc.mp h with hold | rfl
   · exact .inl hold
   · exact .inr ⟨rfl, rfl⟩

theorem holds_assigned : Holds (db.assignUserRole now userId roleId assignedBy) now userId roleId := by
 refine ⟨{ userId, roleId, assignedBy := some assignedBy, assignedAt := now }, ?_, rfl, rfl, rfl⟩
 simp only [RoleDb.assignUserRole]
 split
 · rename_i hany
   obtain ⟨a, ha, hkey⟩ := any_eq_true.mp hany
   exact mem_updateWhere_of ha hkey
 · exact mem_append_right _ (mem_singleton.mpr rfl)

theorem holds_of_assign {r : Nat} (h : Holds (db.assignUserRole now userId roleId assignedBy) now u r) :
  Holds db now u r ∨ u = userId ∧ r = roleId := by
 obtain ⟨a, ha, hu, hr, hlive⟩ := h
 rcases mem_assignUserRole ha with hold | ⟨hu', hr'⟩
 · exact .inl ⟨a, hold, hu, hr, hlive⟩
 · exact .inr ⟨hu.symm.trans hu', hr.symm.trans hr'⟩

theorem holds_of_revoke {r : Nat} (h : Holds (db.revokeUserRole userId roleId) now u r) : Holds db now u r := by
 obtain ⟨a, ha, hrest⟩ := h
 exact ⟨a, (mem_filter.mp ha).1, hrest⟩

theorem Holds.earlier {seconds : Nat} (h : Holds db (now + seconds) u roleId) : Holds db now u roleId := by
 obtain ⟨a, ha, hu, hrole, hlive⟩ := h
 refine ⟨a, ha, hu, hrole, ?_⟩
 unfold RoleDb.live at *
 cases hexp : a.expiresAt with
 | none => rfl
 | some e =>
  rw [hexp] at hlive
  simp only [all_some, decide_eq_true_eq] at hlive ⊢
  omega

theorem modest_iff {group : List Nat} {start : State} {role : AdminRole} :
  modest group start db role = true ↔
   role.name ≠ "super_admin" ∧ ∀ p, Grants db role.id p → grouped group start p = true := by
 simp only [modest, decide_eq_true_eq, List.all_eq_true, List.mem_filterMap, List.mem_filter, Grants]
 refine and_congr_right fun _ => ?_
 constructor
 · rintro h p ⟨row, hrow, hid, hp⟩
   exact h p ⟨row, ⟨hrow, hid⟩, hp⟩
 · rintro h p ⟨row, ⟨hrow, hid⟩, hp⟩
   exact h p ⟨row, hrow, hid, hp⟩

end Held

section Group

variable {sameName : String → String → Bool} {group : List Nat} {start s t : State} {l : Label}

theorem grouped_iff {p : Permission} : grouped group s p = true ↔ ∃ u ∈ group, p ∈ permissionsOf s u := by
 simp [grouped]

def GroupLacksRoles (group : List Nat) (s : State) : Prop := ∀ u ∈ group, LacksRoles (permissionsOf s u)

instance (group : List Nat) (s : State) : Decidable (GroupLacksRoles group s) :=
 inferInstanceAs (Decidable (∀ u ∈ group, LacksRoles (permissionsOf s u)))

theorem Secure.lacks (h : Secure group start s) (hstart : GroupLacksRoles group start) : GroupLacksRoles group s := by
 intro u hu action haction hp
 obtain ⟨v, hv, hp'⟩ := grouped_iff.mp ((h u hu).2 _ hp)
 exact hstart v hv action haction hp'

inductive Effect (group : List Nat) (s : State) : Label → State → Prop
 | wait (l : Label) (seconds : Nat) : Effect group s l { s with now := s.now + seconds }
 | assign (caller userId roleId : Nat) (role : AdminRole) (hcaller : caller ∈ group)
   (hperm : ⟨.users, .update⟩ ∈ permissionsOf s caller) (huser : userId ∈ s.db.users)
   (hrole : lookup (·.id) roleId s.db.roles = some role) :
   Effect group s (.request caller (.assign userId roleId))
    { s with db := s.db.assignUserRole s.now userId roleId caller }
 | revoke (l : Label) (userId roleId : Nat) : Effect group s l { s with db := s.db.revokeUserRole userId roleId }

theorem step_effect (hlacks : GroupLacksRoles group s) (hstep : step sameName group s l = some t) :
  Effect group s l t := by
 cases l with
 | tick seconds =>
  cases hstep
  exact .wait _ seconds
 | request caller request =>
  simp only [step] at hstep
  split at hstep
  · rename_i hcaller
    have hcaller : caller ∈ group := by simpa using hcaller
    cases hstep
    rcases handle_effect sameName request (hlacks caller hcaller) with
     hdb | ⟨userId, roleId, role, rfl, hperm, huser, hrole, hdb⟩ | ⟨userId, roleId, hdb⟩
    · rw [hdb]
      have hwait : Effect group s (.request caller request) { s with now := s.now + (0 : Nat) } := .wait _ 0
      simpa using hwait
    · rw [hdb]
      exact .assign caller userId roleId role hcaller hperm huser hrole
    · rw [hdb]
      exact .revoke _ userId roleId
  · cases hstep

theorem Effect.linked (h : Effect group s l t) (hlinked : Linked s.db) : Linked t.db := by
 cases h with
 | wait => exact hlinked
 | assign caller userId roleId role _ _ _ hrole =>
  intro a ha
  rcases mem_assignUserRole ha with hold | ⟨-, hid⟩
  · exact hlinked a hold
  · exact isSome_iff_exists.mpr ⟨role, hid ▸ hrole⟩
 | revoke => exact fun a ha => hlinked a (mem_filter.mp ha).1

theorem Secure.of_holds (hsecure : Secure group start s) (hlinked : Linked s.db) (hlinked' : Linked t.db)
  (hroles : t.db.roles = s.db.roles) (hperms : t.db.permissions = s.db.permissions)
  (hholds : ∀ u ∈ group, ∀ r, Holds t.db t.now u r → Holds s.db s.now u r ∨
   ∃ role, lookup (·.id) r s.db.roles = some role ∧ modest group start s.db role = true) : Secure group start t := by
 intro u hu
 constructor
 · rw [Ne, isSuperAdmin_iff hlinked']
   rintro ⟨roleId, role, hheld, hrole, hname⟩
   rw [hroles] at hrole
   rcases hholds u hu roleId hheld with hold | ⟨role', hrole', hmodest⟩
   · exact (hsecure u hu).1 ((isSuperAdmin_iff hlinked).mpr ⟨roleId, role, hold, hrole, hname⟩)
   · obtain rfl : role' = role := Option.some.inj (hrole'.symm.trans hrole)
     exact (modest_iff.mp hmodest).1 hname
 · intro p hp
   obtain ⟨roleId, hheld, hgrants⟩ := mem_permissionsOf.mp hp
   have hgrants' : Grants s.db roleId p := by
    unfold Grants at *
    rwa [hperms] at hgrants
   rcases hholds u hu roleId hheld with hold | ⟨role, hrole, hmodest⟩
   · exact (hsecure u hu).2 p (mem_permissionsOf.mpr ⟨roleId, hold, hgrants'⟩)
   · refine (modest_iff.mp hmodest).2 p ?_
     rwa [key_of_lookup hrole]

theorem Effect.secure (h : Effect group s l t) (hsecure : Secure group start s) (hlinked : Linked s.db)
  (hok : harmless group start s l = true) : Secure group start t := by
 have hlinked' := h.linked hlinked
 cases h with
 | wait l seconds => exact hsecure.of_holds hlinked hlinked' rfl rfl fun u _ r hheld => .inl hheld.earlier
 | assign caller userId roleId role hcaller hperm huser hrole =>
  refine hsecure.of_holds hlinked hlinked' rfl rfl ?_
  intro u hu r hheld
  rcases holds_of_assign hheld with hold | ⟨rfl, rfl⟩
  · exact .inl hold
  · right
    refine ⟨role, hrole, ?_⟩
    simpa [harmless, hperm, hu, huser, hrole] using hok
 | revoke l userId roleId =>
  exact hsecure.of_holds hlinked hlinked' rfl rfl fun u _ r hheld => .inl (holds_of_revoke hheld)

theorem not_secure_of_holds {u : Nat} {role : AdminRole} (hlinked : Linked s.db) (hu : u ∈ group)
  (hheld : Holds s.db s.now u role.id) (hrole : lookup (·.id) role.id s.db.roles = some role)
  (hbad : modest group start s.db role = false) : ¬ Secure group start s := by
 intro hsecure
 refine absurd (modest_iff.mpr ⟨?_, ?_⟩) (by rw [hbad]; exact Bool.false_ne_true)
 · intro hname
   exact (hsecure u hu).1 ((isSuperAdmin_iff hlinked).mpr ⟨role.id, role, hheld, hrole, hname⟩)
 · intro p hp
   exact (hsecure u hu).2 p (mem_permissionsOf.mpr ⟨role.id, hheld, hp⟩)

theorem harmless_of_secure (hlacks : GroupLacksRoles group s) (hlinked : Linked s.db)
  (hstep : step sameName group s l = some t) (hsecure : Secure group start t) : harmless group start s l = true := by
 cases l with
 | tick => rfl
 | request caller request =>
  cases request with
  | assign userId roleId =>
   by_contra hbad
   have hlinked' := (step_effect hlacks hstep).linked hlinked
   simp only [harmless, Bool.or_eq_true, Bool.not_eq_true', not_or, Bool.not_eq_false, Bool.and_eq_true,
    contains_iff_mem] at hbad
   obtain ⟨⟨⟨hperm, hmember⟩, huser⟩, hrole⟩ := hbad
   cases hlook : lookup (·.id) roleId s.db.roles with
   | none => simp [hlook] at hrole
   | some role =>
    simp only [hlook, all_some, Bool.not_eq_true] at hrole
    obtain rfl := key_of_lookup hlook
    simp only [step] at hstep
    split at hstep
    · cases hstep
      rw [handle_assign hperm huser hlook] at hsecure hlinked'
      exact not_secure_of_holds hlinked' hmember holds_assigned hlook hrole hsecure
    · cases hstep
  | _ => rfl

structure Inv (group : List Nat) (start s : State) : Prop where
 secure : Secure group start s
 linked : Linked s.db

theorem step_inv (hlacks : GroupLacksRoles group start) (h : Inv group start s)
  (hok : harmless group start s l = true) (hstep : step sameName group s l = some t) : Inv group start t := by
 have heffect := step_effect (h.secure.lacks hlacks) hstep
 exact ⟨heffect.secure h.secure h.linked hok, heffect.linked h.linked⟩

theorem secure_start (hsuper : ∀ u ∈ group, isSuperAdmin start.db start.now u ≠ .ok true) :
  Secure group start start := fun u hu => ⟨hsuper u hu, fun _ hp => grouped_iff.mpr ⟨u, hu, hp⟩⟩

/-- The group keeps within what it had at the start in every state of a run, if and only if every role that its members
assign to each other is modest. -/
theorem no_escalation_iff {ls : List Label} (hlinked : Linked start.db)
  (hsuper : ∀ u ∈ group, isSuperAdmin start.db start.now u ≠ .ok true) (hlacks : GroupLacksRoles group start)
  (hrun : Run (step sameName group) start ls t) :
  (∀ ls' t', ls' <+: ls → Run (step sameName group) start ls' t' → Secure group start t') ↔
   RunIf (step sameName group) (fun s l => harmless group start s l = true) start ls t := by
 have hkeep : ∀ {ls' t'}, RunIf (step sameName group) (fun s l => harmless group start s l = true) start ls' t' →
   Inv group start t' := by
  intro ls' t' hrun'
  exact hrun'.invariant (fun _ _ _ => step_inv hlacks) ⟨secure_start hsuper, hlinked⟩
 constructor
 · intro h
   induction hrun with
   | nil => exact .nil
   | snoc hprev _ hstep ih =>
    have hprev' := ih fun ls' t' hpre => h ls' t' (hpre.trans (prefix_append _ _))
    obtain ⟨hsecure, hlinked'⟩ := hkeep hprev'
    have hnext := h _ _ prefix_rfl (RunIf.snoc hprev trivial hstep)
    exact .snoc hprev' (harmless_of_secure (hsecure.lacks hlacks) hlinked' hstep hnext) hstep
 · rintro h ls' t' ⟨rest, rfl⟩ hrun'
   obtain ⟨u, hleft, -⟩ := h.of_append
   obtain rfl := hleft.unique hrun'
   exact (hkeep hleft).secure

end Group

private def rows (roleId : Nat) (resources actions : List Nat) : List RolePermission :=
 resources.flatMap fun resource => actions.map fun action => { roleId, resource, action }

private def migrated : RoleDb where
 users := [1, 2, 3]
 roles := [{ id := 1, name := "super_admin", isSystemRole := true },
  { id := 2, name := "admin", isSystemRole := true },
  { id := 3, name := "user_manager", isSystemRole := true }]
 permissions := rows 1 (List.range 17) [0, 1, 2, 3] ++
  rows 2 [0, 1, 2, 3, 4, 5, 8, 10, 11, 12, 13, 14, 16] [0, 1, 2, 3] ++ rows 2 [6, 7] [1] ++ rows 2 [9, 15] [1, 2] ++
  rows 3 [0] [0, 1, 2, 3] ++ rows 3 [4, 7] [1]
 assignments := [{ userId := 1, roleId := 3 }]
 nextId := 4

/-- User managers make another member one, and give a role of their own choice to a user outside of the group. -/
theorem no_escalation_iff_same_role : ∃ t,
  Run (step (· == ·) [1, 2]) { db := migrated }
   [.request 1 (.assign 2 3), .tick 60, .request 2 (.assign 3 1), .request 1 (.revoke 1 3)] t ∧
  ∀ ls' t', ls' <+: [Label.request 1 (.assign 2 3), .tick 60, .request 2 (.assign 3 1), .request 1 (.revoke 1 3)] →
   Run (step (· == ·) [1, 2]) { db := migrated } ls' t' → Secure [1, 2] { db := migrated } t' := by
 obtain ⟨t, hrun, -⟩ := RunIf.exists_of_execIf (f := step (· == ·) [1, 2]) (s := { db := migrated })
  (c := harmless [1, 2] { db := migrated }) (r := [.request 1 (.assign 2 3), .tick 60, .request 2 (.assign 3 1),
   .request 1 (.revoke 1 3)]) (P := fun _ => True) (by decide +kernel)
 have hplain : Run (step (· == ·) [1, 2]) { db := migrated } _ t := hrun.mono fun _ _ _ => trivial
 refine ⟨t, hplain, (no_escalation_iff ?_ ?_ ?_ hplain).mpr hrun⟩ <;> decide +kernel

/-- A user manager assigns the role of super admins to itself. -/
theorem user_manager_becomes_super_admin : ∃ t,
  Run (step (· == ·) [1]) { db := migrated } [.request 1 (.assign 1 1)] t ∧
   isSuperAdmin migrated 0 1 = .ok false ∧ GroupLacksRoles [1] { db := migrated } ∧
   isSuperAdmin t.db t.now 1 = .ok true ∧ ¬ GroupLacksRoles [1] t := by
 obtain ⟨t, hrun, h⟩ := Run.exists_of_exec (f := step (· == ·) [1]) (s := { db := migrated })
  (r := [.request 1 (.assign 1 1)]) (P := fun t => isSuperAdmin t.db t.now 1 = .ok true ∧ ¬ GroupLacksRoles [1] t)
  (by decide +kernel)
 exact ⟨t, hrun, by decide +kernel, by decide +kernel, h⟩

end Lnvps.Roles
