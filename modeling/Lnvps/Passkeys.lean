import Lnvps.Lib.Calls
import Lnvps.Lib.Run

/-! # Passkeys of an account -/

namespace Lnvps.Passkeys

open Table Steps Calls

inductive AccountType
 | nostr
 | oAuth
 | webauthn
 deriving DecidableEq

structure User where
 id : Nat
 pubkey : String
 accountType : AccountType := .nostr

structure WebauthnCredential where
 (id userId : Nat)
 credId : String
 name : Option String := none

structure Db where
 users : List User := []
 credentials : List WebauthnCredential := []
 (nextUserId nextId : Nat := 1)

namespace Db

variable (db : Db)

def upsertUser (pubkey : String) : Nat × Db :=
 match lookup (·.pubkey) pubkey db.users with
 | some u => (u.id, db)
 | none => (db.nextUserId, { db with
   users := db.users ++ [{ id := db.nextUserId, pubkey }]
   nextUserId := db.nextUserId + 1 })

def getUser (uid : Nat) : Option User := lookup (·.id) uid db.users

def listWebauthnCredentials (uid : Nat) : List WebauthnCredential := db.credentials.filter fun c => c.userId = uid

def getWebauthnCredential (credId : String) : Option WebauthnCredential := lookup (·.credId) credId db.credentials

def insertWebauthnCredential (uid : Nat) (credId : String) (name : Option String) : Option Db :=
 if (db.getWebauthnCredential credId).isSome then none
 else some { db with
  credentials := db.credentials ++ [{ id := db.nextId, userId := uid, credId, name }]
  nextId := db.nextId + 1 }

def deleteWebauthnCredential (id uid : Nat) : Db :=
 { db with credentials := db.credentials.filter fun c => c.id ≠ id ∨ c.userId ≠ uid }

end Db

structure AddRequest where
 (pubkey credId : String)
 name : Option String := none

inductive Phase
 | checkCredential (req : AddRequest)
 | addUpsert (req : AddRequest)
 | insert (uid : Nat) (req : AddRequest)
 | listCreated (uid id : Nat)
 | deleteUpsert (pubkey : String) (id : Nat)
 | getUser (uid id : Nat)
 | list (user : User) (id : Nat)
 | delete (uid id : Nat)
 | done (result : Except String Unit)

def query (db : Db) : Phase → Db × Phase
 | .checkCredential req =>
  if (db.getWebauthnCredential req.credId).isSome then (db, .done (.error "Credential already registered"))
  else (db, .addUpsert req)
 | .addUpsert req => ((db.upsertUser req.pubkey).2, .insert (db.upsertUser req.pubkey).1 req)
 | .insert uid req =>
  match db.insertWebauthnCredential uid req.credId req.name with
  | some db' => (db', .listCreated uid db.nextId)
  | none => (db, .done (.error "duplicate credential"))
 | .listCreated uid id =>
  if (db.listWebauthnCredentials uid).any fun c => c.id = id then (db, .done (.ok ()))
  else (db, .done (.error "Stored credential not found"))
 | .deleteUpsert pubkey id => ((db.upsertUser pubkey).2, .getUser (db.upsertUser pubkey).1 id)
 | .getUser uid id =>
  match db.getUser uid with
  | some user => (db, .list user id)
  | none => (db, .done (.error "no rows returned"))
 | .list user id =>
  let creds := db.listWebauthnCredentials user.id
  if !creds.any fun c => c.id = id then (db, .done (.error "Credential not found"))
  else if user.accountType = .webauthn ∧ creds.length ≤ 1 then
   (db, .done (.error "Cannot remove your only passkey"))
  else (db, .delete user.id id)
 | .delete uid id => (db.deleteWebauthnCredential id uid, .done (.ok ()))
 | .done result => (db, .done result)

inductive Label
 | add (id : Nat) (req : AddRequest)
 | remove (id : Nat) (pubkey : String) (credential : Nat)
 | query (id : Nat) (fails : Bool)

def failed : Phase → Phase
 | .checkCredential req => .addUpsert req
 | _ => .done (.error "database error")

def step (w : World Db Phase) : Label → Option (World Db Phase)
 | .add id req => w.start id (.checkCredential req)
 | .remove id pubkey credential => w.start id (.deleteUpsert pubkey credential)
 | .query id fails =>
  w.advance id fun db phase => if fails then (db, failed phase) else query db phase

def Phase.deletes (uid : Nat) : Phase → Bool
 | .delete uid' _ => uid' = uid
 | _ => false

def inTurn (w : World Db Phase) : Label → Bool
 | .query id _ => (lookup (·.id) id w.calls).all fun call =>
  match call.phase with
  | .delete uid _ => w.alone id (·.deletes uid)
  | _ => true
 | _ => true

section Account

variable {uid uid' id : Nat} {db db' : Db} {p : Phase} {w w' : World Db Phase} {l : Label}

structure Inv (uid : Nat) (db : Db) : Prop where
 webauthn : ∃ user, db.getUser uid = some user ∧ user.accountType = .webauthn
 keyed : Keyed (·.id) db.credentials
 ids : ∀ c ∈ db.credentials, c.id < db.nextId
 passkey : ∃ c ∈ db.credentials, c.userId = uid

def PhaseInv (uid : Nat) (db : Db) : Phase → Prop
 | .list user _ => user.id = uid → user.accountType = .webauthn
 | .delete uid' id => uid' = uid → ∃ c ∈ db.credentials, c.userId = uid ∧ c.id ≠ id
 | _ => True

structure Keeps (uid : Nat) (db : Db) (p : Phase) (x : Db × Phase) : Prop where
 inv : Inv uid x.1
 own : PhaseInv uid x.1 x.2
 others : ∀ q, PhaseInv uid db q → (∀ uid' id, p = .delete uid' id → q.deletes uid' = false) → PhaseInv uid x.1 q

theorem keeps_of_kept {x : Db × Phase} (hinv : Inv uid x.1) (hkept : ∀ c ∈ db.credentials, c ∈ x.1.credentials)
  (hown : PhaseInv uid x.1 x.2) : Keeps uid db p x := by
 refine ⟨hinv, hown, fun q hq _ => ?_⟩
 cases q with
 | delete uid' id =>
  intro heq
  obtain ⟨c, hc, hcred⟩ := hq heq
  exact ⟨c, hkept c hc, hcred⟩
 | _ => exact hq

theorem Inv.keeps (h : Inv uid db) {q : Phase} (hq : PhaseInv uid db q) : Keeps uid db p (db, q) :=
 keeps_of_kept h (fun _ hc => hc) hq

theorem Inv.upsertUser (h : Inv uid db) (pubkey : String) : Inv uid (db.upsertUser pubkey).2 := by
 unfold Db.upsertUser
 split
 · exact h
 refine ⟨?_, h.keyed, h.ids, h.passkey⟩
 obtain ⟨user, huser, htype⟩ := h.webauthn
 refine ⟨user, ?_, htype⟩
 unfold Db.getUser lookup at huser ⊢
 rw [List.find?_append, huser]
 rfl

theorem credentials_upsertUser (pubkey : String) : (db.upsertUser pubkey).2.credentials = db.credentials := by
 unfold Db.upsertUser
 split <;> rfl

theorem Inv.insert {credId : String} {name : Option String} (h : Inv uid db)
  (hinsert : db.insertWebauthnCredential uid' credId name = some db') :
  Inv uid db' ∧ ∀ c ∈ db.credentials, c ∈ db'.credentials := by
 unfold Db.insertWebauthnCredential at hinsert
 split at hinsert
 · cases hinsert
 cases hinsert
 refine ⟨⟨h.webauthn, h.keyed.snoc fun c hc => Nat.ne_of_lt (h.ids c hc), ?_, ?_⟩,
  fun c hc => List.mem_append_left _ hc⟩
 · rw [List.forall_mem_append]
   exact ⟨fun c hc => Nat.lt_succ_of_lt (h.ids c hc), List.forall_mem_singleton.mpr (Nat.lt_succ_self _)⟩
 · obtain ⟨c, hc, hcred⟩ := h.passkey
   exact ⟨c, List.mem_append_left _ hc, hcred⟩

theorem Inv.delete (h : Inv uid db) (hphase : PhaseInv uid db (.delete uid' id)) :
  Keeps uid db (.delete uid' id) (query db (.delete uid' id)) := by
 have hkept : ∀ c ∈ db.credentials, c.id ≠ id ∨ c.userId ≠ uid' →
   c ∈ (db.deleteWebauthnCredential id uid').credentials :=
  fun c hc hne => List.mem_filter.mpr ⟨hc, decide_eq_true hne⟩
 refine ⟨⟨h.webauthn, ?_, fun c hc => h.ids c (List.mem_of_mem_filter hc), ?_⟩, trivial, fun q hq hother => ?_⟩
 · exact h.keyed.sublist (List.filter_sublist.map _)
 · by_cases huid : uid' = uid
   · obtain ⟨c, hc, hcred, hne⟩ := hphase huid
     exact ⟨c, hkept c hc (.inl hne), hcred⟩
   · obtain ⟨c, hc, hcred⟩ := h.passkey
     exact ⟨c, hkept c hc (.inr fun h => huid (h.symm.trans hcred)), hcred⟩
 · cases q with
   | delete uid'' id' =>
    intro huid
    obtain ⟨c, hc, hcred, hne⟩ := hq huid
    have huid' : uid'' ≠ uid' := by simpa [Phase.deletes] using hother uid' id rfl
    exact ⟨c, hkept c hc (.inr fun h => huid' (huid.trans (hcred.symm.trans h))), hcred, hne⟩
   | _ => exact hq

theorem query_keeps (h : Inv uid db) (hphase : PhaseInv uid db p) : Keeps uid db p (query db p) := by
 cases p with
 | checkCredential req | listCreated uid' id =>
  simp only [query]
  split <;> exact h.keeps trivial
 | addUpsert req => exact keeps_of_kept (h.upsertUser _) (by simp [query, credentials_upsertUser]) trivial
 | insert uid' req =>
  simp only [query]
  split
  · exact keeps_of_kept (h.insert ‹_›).1 (h.insert ‹_›).2 trivial
  · exact h.keeps trivial
 | deleteUpsert pubkey id =>
  exact keeps_of_kept (h.upsertUser _) (by simp [query, credentials_upsertUser]) trivial
 | getUser uid' id =>
  simp only [query]
  split
  · rename_i user huser
    refine h.keeps fun hid => ?_
    obtain ⟨user', huser', htype⟩ := h.webauthn
    obtain rfl : uid' = uid := (key_of_lookup huser).symm.trans hid
    rwa [Option.some.inj (huser.symm.trans huser')]
  · exact h.keeps trivial
 | list user id =>
  simp only [query]
  split
  · exact h.keeps trivial
  split
  · exact h.keeps trivial
  rename_i hmany
  refine h.keeps fun hid => ?_
  by_contra hnone
  refine hmany ⟨hphase hid, h.keyed.filter_length_le_one fun c hc c' hc' hcred hcred' => ?_⟩
  simp only [decide_eq_true_eq] at hcred hcred'
  grind
 | delete uid' id => exact h.delete hphase
 | done result => exact h.keeps trivial

theorem step_holds (h : Holds (Inv uid) (PhaseInv uid) w) (hturn : inTurn w l = true) (hstep : step w l = some w') :
  Holds (Inv uid) (PhaseInv uid) w' := by
 cases l with
 | add id req | remove id pubkey credential => exact h.start hstep trivial
 | query id fails =>
  simp only [step] at hstep
  refine h.advance hstep fun call hcall => ?_
  simp only [inTurn, hcall, Option.all_some] at hturn
  cases fails with
  | true => exact ⟨h.db, by cases call.phase <;> trivial, fun c hc _ => h.phases c hc⟩
  | false =>
   obtain ⟨hinv, hown, hothers⟩ := query_keeps h.db (h.of_lookup hcall)
   refine ⟨hinv, hown, fun c hc hne => hothers _ (h.phases c hc) fun uid' cred hp => ?_⟩
   rw [hp] at hturn
   exact World.alone_iff.mp hturn c hc hne

end Account

/-- Every run from an account with a passkey in which deletions are carried out in turn. -/
theorem account_keeps_passkey (db : Db) (uid : Nat) (h : Inv uid db) (ls : List Label) (w : World Db Phase)
  (hrun : RunIf step (fun w l => inTurn w l = true) { db } ls w) : w.db.listWebauthnCredentials uid ≠ [] := by
 have hstart : Holds (Inv uid) (PhaseInv uid) ({ db } : World Db Phase) :=
  ⟨h, List.nodup_nil, fun _ hc => absurd hc List.not_mem_nil⟩
 obtain ⟨c, hc, hcred⟩ := (hrun.invariant (fun _ _ _ => step_holds) hstart).db.passkey
 exact List.ne_nil_of_mem (List.mem_filter.mpr ⟨hc, by simpa using hcred⟩)

def twoPasskeys : Db where
 users := [{ id := 1, pubkey := "alice", accountType := .webauthn }]
 credentials := [{ id := 1, userId := 1, credId := "phone" }, { id := 2, userId := 1, credId := "laptop" }]
 nextUserId := 2
 nextId := 3

def removal (id credential : Nat) : List Label :=
 .remove id "alice" credential :: List.replicate 4 (.query id false)

theorem account_keeps_passkey_in_turn : ∃ w,
  RunIf step (fun w l => inTurn w l = true) { db := twoPasskeys } (removal 1 1 ++ removal 2 2) w ∧
   w.db.listWebauthnCredentials 1 ≠ [] := by
 have hinv : Inv 1 twoPasskeys := ⟨⟨_, rfl, rfl⟩, by decide, by decide, ⟨_, List.mem_cons_self, rfl⟩⟩
 obtain ⟨w, hrun, -⟩ := RunIf.exists_of_execIf (f := step) (c := inTurn) (s := { db := twoPasskeys })
  (r := removal 1 1 ++ removal 2 2) (P := fun _ => True) (by decide +kernel)
 exact ⟨w, hrun, account_keeps_passkey twoPasskeys 1 hinv _ w hrun⟩

/-- Both requests count two credentials before one is deleted. -/
theorem account_locked_out : Inv 1 twoPasskeys ∧ ∃ ls w, Run step { db := twoPasskeys } ls w ∧
  decide (w.db.listWebauthnCredentials 1 = []) = true := by
 refine ⟨⟨⟨_, rfl, rfl⟩, by decide, by decide, ⟨_, List.mem_cons_self, rfl⟩⟩,
  [.remove 1 "alice" 1, .remove 2 "alice" 2, .query 1 false, .query 1 false, .query 1 false, .query 2 false,
   .query 2 false, .query 2 false, .query 1 false, .query 2 false], Run.exists_of_exec (by decide +kernel)⟩

end Lnvps.Passkeys
