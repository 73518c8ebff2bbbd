import Lnvps.IpSpace
import Lnvps.Lib.Run

/-! # Selling IP ranges -/

namespace Lnvps

open Net Table Steps List Option IpRangeDb

open IpRangeDb (Ids mem_update insert_eq_some)

namespace IpSales

inductive Phase
 | readLineItem (lineItemId : Nat)
 | listExisting (item : IpRangeLineItem)
 | listActive (item : IpRangeLineItem) (prev : IpRangeSubscription)
 | activate (prev : IpRangeSubscription)
 | readSpace (prev : IpRangeSubscription)
 | registry (prev : IpRangeSubscription)
 | saveMetadata (prev : IpRangeSubscription)
 | fresh (item : IpRangeLineItem)
 | listTaken (item : IpRangeLineItem) (prefixSize : Nat) (space : AvailableIpSpace) (block : Network)
 | insert (row : IpRangeSubscription)
 | listRows (lineItemId : Nat)
 | deactivate (rows : List IpRangeSubscription)
 | done

structure Answer where
 now : Int := 0
 fails : Bool := false
 created : Option RegistryMetadata := some {}

def Phase.failed : Phase → Phase
 | .deactivate (_ :: rows) => .deactivate rows
 | _ => .done

def query (text : CidrText) (a : Answer) (db : IpRangeDb) : Phase → IpRangeDb × Phase
 | .readLineItem lineItemId =>
  match db.getSubscriptionLineItem lineItemId with
  | some item => (db, .listExisting item)
  | none => (db, .done)
 | .listExisting item =>
  match chooseFulfilment (db.listByLineItem item.id) with
  | .renewal => (db, .done)
  | .reactivate prev => (db, .listActive item prev)
  | .fresh => (db, .fresh item)
 | .listActive item prev =>
  match text.parse prev.cidr with
  | none => (db, .fresh item)
  | some cidr =>
   if clashes text cidr (db.listActive prev.availableIpSpaceId) then (db, .fresh item)
   else (db, .activate { prev with isActive := true, endedAt := none })
 | .activate prev => (db.updateIpRangeSubscription prev, .readSpace prev)
 | .readSpace prev =>
  if (db.getAvailableIpSpace prev.availableIpSpaceId).isSome ∧ prev.originAsn.isSome then (db, .registry prev)
  else (db, .done)
 | .registry prev =>
  match a.created with
  | some metadata => (db, .saveMetadata { prev with metadata := some metadata })
  | none => (db, .done)
 | .saveMetadata prev => (db.updateIpRangeSubscription prev, .done)
 | .fresh item =>
  match item.configuration with
  | none => (db, .done)
  | some cfg =>
   match db.getAvailableIpSpace cfg.availableIpSpaceId with
   | none => (db, .done)
   | some space =>
    match text.parse space.cidr with
    | none => (db, .done)
    | some block => (db, .listTaken item cfg.prefixSize space block)
 | .listTaken item prefixSize space block =>
  match allocateSubnet block prefixSize (networksOf text (db.listActive space.id)) with
  | some cidr => (db, .insert (freshRow text item.id space.id cidr a.now))
  | none => (db, .done)
 | .insert row => ((db.insertIpRangeSubscription a.now row).getD db, .done)
 | .listRows lineItemId => (db, .deactivate ((db.listByLineItem lineItemId).filter (·.isActive)))
 | .deactivate (row :: rows) =>
  (db.updateIpRangeSubscription { row with isActive := false, endedAt := some a.now }, .deactivate rows)
 | .deactivate [] => (db, .done)
 | .done => (db, .done)

def advance (text : CidrText) (a : Answer) (db : IpRangeDb) (phase : Phase) : IpRangeDb × Phase :=
 if a.fails then (db, phase.failed) else query text a db phase

structure Call where
 id : Nat
 phase : Phase

inductive Label
 | allocate (id lineItemId : Nat)
 | deactivate (id lineItemId : Nat)
 | advance (id : Nat) (answer : Answer)
 | crash (id : Nat)

end IpSales

structure IpSales where
 db : IpRangeDb
 calls : List IpSales.Call := []

namespace IpSales

def start (s : IpSales) (call : Call) : Option IpSales :=
 if s.calls.all fun c => c.id ≠ call.id then some { s with calls := s.calls ++ [call] } else none

def step (text : CidrText) (s : IpSales) : Label → Option IpSales
 | .allocate id lineItemId => s.start ⟨id, .readLineItem lineItemId⟩
 | .deactivate id lineItemId => s.start ⟨id, .listRows lineItemId⟩
 | .advance id answer => do
  let call ← lookup (·.id) id s.calls
  let (db, phase) := advance text answer s.db call.phase
  some { db, calls := updateWhere (fun c => c.id = id) (fun c => { c with phase }) s.calls }
 | .crash id => some { s with calls := s.calls.filter fun c => c.id ≠ id }

def InBlock (text : CidrText) (db : IpRangeDb) (row : IpRangeSubscription) : Prop :=
 ∀ n, text.parse row.cidr = some n → ∀ space, db.getAvailableIpSpace row.availableIpSpaceId = some space →
  ∀ block, text.parse space.cidr = some block → Network.Within n block

structure Sound (text : CidrText) (db : IpRangeDb) : Prop where
 disjoint : ∀ r ∈ db.ranges, ∀ r' ∈ db.ranges, r.isActive = true → r'.isActive = true →
  r.availableIpSpaceId = r'.availableIpSpaceId → r.id ≠ r'.id →
   ∀ n n', text.parse r.cidr = some n → text.parse r'.cidr = some n' → Network.Disjoint n n'
 within : ∀ r ∈ db.ranges, r.isActive = true → InBlock text db r

def Phase.decided : Phase → Option Nat
 | .activate row => some row.availableIpSpaceId
 | .insert row => some row.availableIpSpaceId
 | _ => none

def alone (s : IpSales) (id spaceId : Nat) : Bool :=
 s.calls.all fun c => c.id = id ∨ c.phase.decided ≠ some spaceId

def fitsBlock (text : CidrText) (db : IpRangeDb) (row : IpRangeSubscription) : Bool :=
 (text.parse row.cidr).all fun n =>
  ((db.getAvailableIpSpace row.availableIpSpaceId).bind fun space => text.parse space.cidr).all fun block =>
   n.ip.kind = block.ip.kind ∧ block.first ≤ n.first ∧ n.last ≤ block.last

def orderlyQuery (text : CidrText) (s : IpSales) (id : Nat) : Phase → Bool
 | .listActive _ prev => (s.db.activeIn prev.availableIpSpaceId).length ≤ IpRangeDb.listLimit
 | .listTaken _ _ space block => (s.db.activeIn space.id).length ≤ IpRangeDb.listLimit ∧ endsBelowTop block
 | .activate row => s.alone id row.availableIpSpaceId ∧ fitsBlock text s.db row
 | .insert row => s.alone id row.availableIpSpaceId
 | .saveMetadata row => s.db.ranges.any fun r => r.id = row.id ∧ r.isActive
 | _ => true

def orderly (text : CidrText) (s : IpSales) : Label → Bool
 | .advance id _ => (lookup (·.id) id s.calls).all fun call => orderlyQuery text s id call.phase
 | _ => true

variable {text : CidrText} {a : Answer} {db db' : IpRangeDb} {p : Phase} {r r' row row' : IpRangeSubscription}

theorem inBlock_of_fitsBlock (h : fitsBlock text db row = true) : InBlock text db row := by
 intro n hn space hspace block hblock
 simp only [fitsBlock, hn, hspace, hblock, all_some, bind_some, decide_eq_true_eq] at h
 exact Network.within_of_le h.1 h.2.1 h.2.2

def SameRange (r r' : IpRangeSubscription) : Prop :=
 r.id = r'.id ∧ r.cidr = r'.cidr ∧ r.availableIpSpaceId = r'.availableIpSpaceId

def Image (db : IpRangeDb) (row : IpRangeSubscription) : Prop :=
 row.id < db.nextId ∧ ∀ r ∈ db.ranges, r.id = row.id → SameRange r row

def Free (text : CidrText) (db : IpRangeDb) (row : IpRangeSubscription) : Prop :=
 ∀ n, text.parse row.cidr = some n → ∀ r ∈ db.activeIn row.availableIpSpaceId,
  ∀ m, text.parse r.cidr = some m → Network.Disjoint n m

structure Keeps (db db' : IpRangeDb) : Prop where
 spaces : db'.spaces = db.spaces
 next : db.nextId ≤ db'.nextId
 rows : ∀ r' ∈ db'.ranges, r'.id < db.nextId → ∃ r ∈ db.ranges, SameRange r r'
 ids : Ids db'

def WasActive (db : IpRangeDb) (r' : IpRangeSubscription) : Prop := ∃ r ∈ db.ranges, r.isActive = true ∧ SameRange r r'

inductive Effect (db : IpRangeDb) (p : Phase) (db' : IpRangeDb) : Prop
 | none (active : ∀ r' ∈ db'.ranges, r'.isActive = true → WasActive db r')
 | sells (row : IpRangeSubscription) (id : Nat) (phase : p = .activate row ∨ p = .insert row)
   (active : ∀ r' ∈ db'.ranges, r'.isActive = true → WasActive db r' ∨
    (r'.id = id ∧ r'.cidr = row.cidr ∧ r'.availableIpSpaceId = row.availableIpSpaceId))

theorem Keeps.refl (h : Ids db) : Keeps db db :=
 ⟨rfl, Nat.le_refl _, fun r' hr' _ => ⟨r', hr', rfl, rfl, rfl⟩, h⟩

theorem Keeps.image (h : Keeps db db') (himage : Image db row) : Image db' row := by
 refine ⟨Nat.lt_of_lt_of_le himage.1 h.next, fun r' hr' hid => ?_⟩
 obtain ⟨r, hr, hsame⟩ := h.rows r' hr' (hid ▸ himage.1)
 have hrow := himage.2 r hr (hsame.1.trans hid)
 exact ⟨hid, hsame.2.1.symm.trans hrow.2.1, hsame.2.2.symm.trans hrow.2.2⟩

theorem Keeps.inBlock (h : Keeps db db') (hrow : InBlock text db row) : InBlock text db' row := by
 unfold InBlock getAvailableIpSpace at *
 rw [h.spaces]
 exact hrow

theorem image_of_mem (h : Ids db) (hr : r ∈ db.ranges) : Image db r := by
 refine ⟨h.lt r hr, fun r' hr' hid => ?_⟩
 obtain rfl := h.keyed.eq_of_key hr' hr hid
 exact ⟨rfl, rfl, rfl⟩

theorem keeps_update (h : Ids db) (himage : Image db row) : Keeps db (db.updateIpRangeSubscription row) := by
 refine ⟨rfl, Nat.le_refl _, fun r' hr' _ => ?_, h.update⟩
 obtain ⟨r, hr, hid, ⟨rfl, -⟩ | ⟨hrow, rfl⟩⟩ := mem_update hr'
 · exact ⟨r', hr, rfl, rfl, rfl⟩
 · exact ⟨r, hr, rfl, (himage.2 r hr hrow).2⟩

theorem active_update (hr' : r' ∈ (db.updateIpRangeSubscription row).ranges) (hactive : r'.isActive = true) :
  WasActive db r' ∨ (r'.id = row.id ∧ r'.cidr = row.cidr ∧ r'.availableIpSpaceId = row.availableIpSpaceId) := by
 obtain ⟨r, hr, hid, ⟨rfl, -⟩ | ⟨hrow, rfl⟩⟩ := mem_update hr'
 · exact .inl ⟨r', hr, hactive, rfl, rfl, rfl⟩
 · exact .inr ⟨hrow, rfl, rfl⟩

theorem wasActive_update (h : Ids db) (himage : Image db row)
  (hrow : row.isActive = false ∨ ∃ r ∈ db.ranges, r.id = row.id ∧ r.isActive = true)
  (hr' : r' ∈ (db.updateIpRangeSubscription row).ranges) (hactive : r'.isActive = true) : WasActive db r' := by
 obtain ⟨r, hr, hid, ⟨rfl, -⟩ | ⟨hid', rfl⟩⟩ := mem_update hr'
 · exact ⟨r', hr, hactive, rfl, rfl, rfl⟩
 rcases hrow with hoff | ⟨old, hold, holdId, hon⟩
 · rw [hoff] at hactive
   cases hactive
 · obtain rfl := h.keyed.eq_of_key hold hr (holdId.trans hid'.symm)
   exact ⟨old, hold, hon, rfl, (himage.2 old hold holdId).2⟩

theorem keeps_insert {now : Int} (h : Ids db) (hinsert : db.insertIpRangeSubscription now row = some db') :
  Keeps db db' := by
 have hids := h.insert hinsert
 obtain ⟨-, rfl⟩ := insert_eq_some.mp hinsert
 refine ⟨rfl, Nat.le_succ _, fun r' hr' hlt => ?_, hids⟩
 rcases mem_snoc.mp hr' with hold | rfl
 · exact ⟨r', hold, rfl, rfl, rfl⟩
 · exact absurd hlt (Nat.lt_irrefl _)

theorem active_insert {now : Int} (hinsert : db.insertIpRangeSubscription now row = some db') (hr' : r' ∈ db'.ranges)
  (hactive : r'.isActive = true) :
  WasActive db r' ∨ (r'.id = db.nextId ∧ r'.cidr = row.cidr ∧ r'.availableIpSpaceId = row.availableIpSpaceId) := by
 obtain ⟨-, rfl⟩ := insert_eq_some.mp hinsert
 rcases mem_snoc.mp hr' with hold | rfl
 · exact .inl ⟨r', hold, hactive, rfl, rfl, rfl⟩
 · exact .inr ⟨rfl, rfl, rfl⟩

def PhaseInv (text : CidrText) (db : IpRangeDb) : Phase → Prop
 | .listActive _ prev => Image db prev
 | .activate row => Image db row ∧ Free text db row
 | .readSpace row => Image db row
 | .registry row => Image db row
 | .saveMetadata row => Image db row
 | .listTaken _ _ space block => db.getAvailableIpSpace space.id = some space ∧ text.parse space.cidr = some block
 | .insert row => Free text db row ∧ InBlock text db row
 | .deactivate rows => ∀ row ∈ rows, Image db row
 | _ => True

theorem PhaseInv.failed (h : PhaseInv text db p) : PhaseInv text db p.failed := by
 cases p with
 | deactivate rows =>
  cases rows with
  | nil => trivial
  | cons row rows => exact fun r hr => h r (mem_cons_of_mem _ hr)
 | _ => trivial

variable {s s' : IpSales} {id : Nat}

theorem advance_effect (hids : Ids s.db) (hp : PhaseInv text s.db p) (hok : orderlyQuery text s id p = true) :
  Keeps s.db (advance text a s.db p).1 ∧ Effect s.db p (advance text a s.db p).1 := by
 have hsame : Keeps s.db s.db ∧ Effect s.db p s.db :=
  ⟨.refl hids, .none fun r' hr' hactive => ⟨r', hr', hactive, rfl, rfl, rfl⟩⟩
 unfold advance
 split
 · exact hsame
 cases p with
 | activate row =>
  exact ⟨keeps_update hids hp.1, .sells row row.id (.inl rfl) fun r' => active_update⟩
 | saveMetadata row =>
  refine ⟨keeps_update hids hp, .none fun r' => wasActive_update hids hp (.inr ?_)⟩
  simpa [orderlyQuery] using hok
 | insert row =>
  simp only [query]
  rcases hinsert : s.db.insertIpRangeSubscription a.now row with _ | db'
  · exact hsame
  · exact ⟨keeps_insert hids hinsert, .sells row s.db.nextId (.inr rfl) fun r' => active_insert hinsert⟩
 | deactivate rows =>
  cases rows with
  | nil => exact hsame
  | cons row rows =>
   have himage : Image s.db { row with isActive := false, endedAt := some a.now } := hp row mem_cons_self
   exact ⟨keeps_update hids himage, .none fun r' => wasActive_update hids himage (.inl rfl)⟩
 | _ =>
  simp only [query]
  repeat' split
  all_goals exact hsame

variable {n n' : Network}

theorem Sound.disjoint_of_wasActive (h : Sound text db) (hr : WasActive db r) (hr' : WasActive db r')
  (hspace : r.availableIpSpaceId = r'.availableIpSpaceId) (hid : r.id ≠ r'.id) (hn : text.parse r.cidr = some n)
  (hn' : text.parse r'.cidr = some n') : Network.Disjoint n n' := by
 obtain ⟨o, ho, hactive, hoid, hocidr, hospace⟩ := hr
 obtain ⟨o', ho', hactive', hoid', hocidr', hospace'⟩ := hr'
 refine h.disjoint o ho o' ho' hactive hactive' (by rw [hospace, hospace', hspace]) ?_ n n' ?_ ?_
 · rw [hoid, hoid']
   exact hid
 · rw [hocidr, hn]
 · rw [hocidr', hn']

theorem Free.disjoint_of_wasActive (h : Free text db row) (hr : WasActive db r)
  (hspace : r.availableIpSpaceId = row.availableIpSpaceId) (hn : text.parse row.cidr = some n)
  (hn' : text.parse r.cidr = some n') : Network.Disjoint n n' := by
 obtain ⟨o, ho, hactive, -, hocidr, hospace⟩ := hr
 exact h n hn o (mem_activeIn.mpr ⟨ho, hospace.trans hspace, hactive⟩) n' (by rw [hocidr, hn'])

theorem Sound.inBlock_of_wasActive (h : Sound text db) (hr : WasActive db r) : InBlock text db r := by
 obtain ⟨o, ho, hactive, -, hocidr, hospace⟩ := hr
 have hold := h.within o ho hactive
 unfold InBlock at *
 rw [← hocidr, ← hospace]
 exact hold

def Sellable (text : CidrText) (db : IpRangeDb) (p : Phase) : Prop :=
 ∀ row, p = .activate row ∨ p = .insert row → Free text db row ∧ InBlock text db row

theorem Sound.effect (h : Sound text db) (hkeeps : Keeps db db') (heffect : Effect db p db')
  (hsell : Sellable text db p) : Sound text db' := by
 cases heffect with
 | none hold =>
  refine ⟨fun r hr r' hr' hactive hactive' hspace hid n n' hn hn' => ?_, fun r hr hactive => ?_⟩
  · exact h.disjoint_of_wasActive (hold r hr hactive) (hold r' hr' hactive') hspace hid hn hn'
  · exact hkeeps.inBlock (h.inBlock_of_wasActive (hold r hr hactive))
 | sells row id hphase hrows =>
  obtain ⟨hfree, hblock⟩ := hsell row hphase
  refine ⟨fun r hr r' hr' hactive hactive' hspace hid n n' hn hn' => ?_, fun r hr hactive => hkeeps.inBlock ?_⟩
  · rcases hrows r hr hactive with hold | ⟨hnew, hcidr, hin⟩
    · rcases hrows r' hr' hactive' with hold' | ⟨hnew', hcidr', hin'⟩
      · exact h.disjoint_of_wasActive hold hold' hspace hid hn hn'
      · exact (hfree.disjoint_of_wasActive hold (hspace.trans hin') (hcidr' ▸ hn') hn).symm
    · rcases hrows r' hr' hactive' with hold' | ⟨hnew', -⟩
      · exact hfree.disjoint_of_wasActive hold' (hspace.symm.trans hin) (hcidr ▸ hn) hn'
      · exact absurd (hnew.trans hnew'.symm) hid
  · rcases hrows r hr hactive with hold | ⟨-, hcidr, hin⟩
    · exact h.inBlock_of_wasActive hold
    · unfold InBlock at *
      rw [hcidr, hin]
      exact hblock

theorem Free.effect (h : Free text db row) (heffect : Effect db p db')
  (hspace : p.decided ≠ some row.availableIpSpaceId) : Free text db' row := by
 intro n hn r hr m hm
 obtain ⟨hr, hin, hactive⟩ := mem_activeIn.mp hr
 cases heffect with
 | none hold => exact h.disjoint_of_wasActive (hold r hr hactive) hin hn hm
 | sells row' id hphase hrows =>
  rcases hrows r hr hactive with hold | ⟨-, -, hin'⟩
  · exact h.disjoint_of_wasActive hold hin hn hm
  · refine absurd ?_ hspace
    rcases hphase with rfl | rfl <;> exact congrArg some (hin'.symm.trans hin)

theorem PhaseInv.effect {q : Phase} (h : PhaseInv text db q) (hkeeps : Keeps db db') (heffect : Effect db p db')
  (hapart : ∀ spaceId, q.decided = some spaceId → p.decided ≠ some spaceId) : PhaseInv text db' q := by
 cases q with
 | listActive _ prev | readSpace row | registry row | saveMetadata row => exact hkeeps.image h
 | activate row => exact ⟨hkeeps.image h.1, h.2.effect heffect (hapart _ rfl)⟩
 | listTaken _ _ space block =>
  refine ⟨?_, h.2⟩
  unfold getAvailableIpSpace
  rw [hkeeps.spaces]
  exact h.1
 | insert row => exact ⟨h.1.effect heffect (hapart _ rfl), hkeeps.inBlock h.2⟩
 | deactivate rows => exact fun row hrow => hkeeps.image (h row hrow)
 | _ => trivial

theorem free_of_not_clashes (hlimit : (db.activeIn row.availableIpSpaceId).length ≤ listLimit)
  (hn : text.parse row.cidr = some n) (h : clashes text n (db.listActive row.availableIpSpaceId) = false) :
  Free text db row := by
 intro n' hn' r hr m hm
 cases hn.symm.trans hn'
 exact disjoint_of_not_clashes h ((mem_listActive hlimit).mpr hr) hm

theorem freshRow_sellable {lineItemId prefixSize : Nat} {space : AvailableIpSpace} {block : Network} {now : Int}
  (hsound : Sound text db) (hspace : db.getAvailableIpSpace space.id = some space)
  (hblock : text.parse space.cidr = some block) (hlimit : (db.activeIn space.id).length ≤ listLimit)
  (hend : endsBelowTop block = true)
  (h : allocateSubnet block prefixSize (networksOf text (db.listActive space.id)) = some n) :
  Free text db (freshRow text lineItemId space.id n now) ∧
   InBlock text db (freshRow text lineItemId space.id n now) := by
 constructor
 · intro n' hn' r hr m hm
   cases (text.parse_format n).symm.trans hn'
   exact disjoint_of_allocateSubnet h m (mem_networksOf ((mem_listActive hlimit).mpr hr) hm)
 intro n' hn' space' hspace' block' hblock'
 cases (text.parse_format n).symm.trans hn'
 cases hspace.symm.trans hspace'
 cases hblock.symm.trans hblock'
 refine within_of_allocateSubnet hend (fun t ht => ?_) h
 obtain ⟨r, hr, ht⟩ := mem_filterMap.mp ht
 obtain ⟨hr, hin, hactive⟩ := mem_activeIn.mp (mem_activeIn_of_listActive hr)
 exact hsound.within r hr hactive t ht space (by rw [hin]; exact hspace) block hblock

theorem advance_phaseInv (hids : Ids s.db) (hsound : Sound text s.db) (hp : PhaseInv text s.db p)
  (hok : orderlyQuery text s id p = true) : PhaseInv text (advance text a s.db p).1 (advance text a s.db p).2 := by
 have hkeeps := (advance_effect (a := a) hids hp hok).1
 unfold advance at *
 split
 · exact hp.failed
 rename_i hfails
 rw [if_neg hfails] at hkeeps
 cases p with
 | readLineItem lineItemId =>
  simp only [query]
  split <;> trivial
 | listExisting item =>
  simp only [query]
  split
  · trivial
  · rename_i prev hchoice
    exact image_of_mem hids (mem_of_mem_filter (mem_of_chooseFulfilment hchoice).1)
  · trivial
 | listActive item prev =>
  simp only [query]
  split
  · trivial
  rename_i cidr hcidr
  split
  · trivial
  rename_i hclash
  have hfree : Free text s.db prev :=
   free_of_not_clashes (of_decide_eq_true hok) hcidr (Bool.not_eq_true _ ▸ hclash)
  exact ⟨hp, hfree⟩
 | activate row => exact hkeeps.image hp.1
 | readSpace row | registry row =>
  simp only [query]
  split
  · exact hp
  · trivial
 | saveMetadata row => trivial
 | insert row => trivial
 | done => trivial
 | fresh item =>
  simp only [query]
  split
  · trivial
  split
  · trivial
  rename_i space hspace
  split
  · trivial
  rename_i block hblock
  refine ⟨?_, hblock⟩
  have hkey : space.id = _ := key_of_lookup hspace
  rw [hkey]
  exact hspace
 | listTaken item prefixSize space block =>
  simp only [query]
  have hlimit : (s.db.activeIn space.id).length ≤ listLimit ∧ endsBelowTop block = true :=
   of_decide_eq_true hok
  split
  · rename_i cidr hcidr
    exact freshRow_sellable hsound hp.1 hp.2 hlimit.1 hlimit.2 hcidr
  · trivial
 | listRows lineItemId =>
  exact fun row hrow => image_of_mem hids (mem_of_mem_filter (mem_of_mem_filter hrow))
 | deactivate rows =>
  cases rows with
  | nil => trivial
  | cons row rows => exact fun r hr => hkeeps.image (hp r (mem_cons_of_mem _ hr))

structure Inv (text : CidrText) (s : IpSales) : Prop where
 ids : Ids s.db
 sound : Sound text s.db
 keyed : Keyed (·.id) s.calls
 phase : ∀ c ∈ s.calls, PhaseInv text s.db c.phase

theorem sellable_of_orderly (hp : PhaseInv text s.db p) (hok : orderlyQuery text s id p = true) :
  Sellable text s.db p := by
 rintro row (rfl | rfl)
 · have hfits : s.alone id row.availableIpSpaceId = true ∧ fitsBlock text s.db row = true := of_decide_eq_true hok
   exact ⟨hp.2, inBlock_of_fitsBlock hfits.2⟩
 · exact hp

variable {call : Call}

theorem apart_of_orderly (hcall : call ∈ s.calls) (hne : call.id ≠ id)
  (hok : orderlyQuery text s id p = true) (spaceId : Nat) (hdecided : call.phase.decided = some spaceId) :
  p.decided ≠ some spaceId := by
 intro hp
 have halone : s.alone id spaceId = true := by
  cases p with
  | activate row =>
   cases hp
   have hfits : s.alone id row.availableIpSpaceId = true ∧ fitsBlock text s.db row = true := of_decide_eq_true hok
   exact hfits.1
  | insert row =>
   cases hp
   exact hok
  | _ => cases hp
 have hother := all_eq_true.mp halone call hcall
 simp only [hdecided, decide_eq_true_eq] at hother
 exact hother.elim hne fun h => h rfl

theorem Inv.start (h : Inv text s) (hstart : s.start call = some s')
  (hcall : PhaseInv text s.db call.phase) : Inv text s' := by
 unfold IpSales.start at hstart
 split at hstart
 · rename_i hnew
   cases hstart
   refine ⟨h.ids, h.sound, h.keyed.snoc fun c hc => ?_, fun c hc => ?_⟩
   · simpa using all_eq_true.mp hnew c hc
   · rcases mem_snoc.mp hc with hold | rfl
     · exact h.phase c hold
     · exact hcall
 · cases hstart

theorem Inv.advance (h : Inv text s) (hcall : lookup (·.id) id s.calls = some call)
  (hok : orderlyQuery text s id call.phase = true) :
  Inv text ⟨(advance text a s.db call.phase).1,
   updateWhere (fun c => c.id = id) (fun c => { c with phase := (advance text a s.db call.phase).2 }) s.calls⟩ := by
 have hmem := mem_of_lookup hcall
 have hp := h.phase call hmem
 obtain ⟨hkeeps, heffect⟩ := advance_effect (a := a) h.ids hp hok
 refine ⟨hkeeps.ids, h.sound.effect hkeeps heffect (sellable_of_orderly hp hok),
  h.keyed.updateWhere (fun _ _ _ => rfl), fun c hc => ?_⟩
 obtain ⟨old, hold, heq⟩ := mem_updateWhere.mp hc
 split at heq
 · rw [← heq]
   exact advance_phaseInv h.ids h.sound hp hok
 · rename_i hne
   rw [← heq]
   exact (h.phase old hold).effect hkeeps heffect (apart_of_orderly hold (by simpa using hne) hok)

theorem step_inv {l : Label} (h : Inv text s) (hok : orderly text s l = true) (hstep : step text s l = some s') :
  Inv text s' := by
 cases l with
 | allocate id lineItemId | deactivate id lineItemId => exact h.start hstep trivial
 | advance id answer =>
  obtain ⟨call, hcall, hstep⟩ := bind_eq_some_iff.mp hstep
  cases hstep
  simp only [orderly, hcall, all_some] at hok
  exact h.advance hcall hok
 | crash id =>
  cases hstep
  exact ⟨h.ids, h.sound, h.keyed.sublist (filter_sublist.map _),
   fun c hc => h.phase c (mem_of_mem_filter hc)⟩

structure Start (text : CidrText) (s : IpSales) : Prop where
 calls : s.calls = []
 ids : Ids s.db
 sound : Sound text s.db

/-- Along every run of orderly steps the ranges that are sold are disjoint and in their blocks. -/
theorem sold_ranges_disjoint {text : CidrText} {s s' : IpSales} {ls : List Label} (hstart : Start text s)
  (hrun : RunIf (step text) (fun s l => orderly text s l = true) s ls s') : Sound text s'.db := by
 have hinv : Inv text s := ⟨hstart.ids, hstart.sound, by simp [hstart.calls, Keyed], by simp [hstart.calls]⟩
 exact (hrun.invariant (fun _ _ _ => step_inv) hinv).sound

def oversold (text : CidrText) (db : IpRangeDb) : Bool :=
 (db.ranges.any fun r => db.ranges.any fun r' => r.isActive ∧ r'.isActive ∧
   r.availableIpSpaceId = r'.availableIpSpaceId ∧ r.id ≠ r'.id ∧
    (text.parse r.cidr).any fun n => (text.parse r'.cidr).any fun n' => n.contains n'.ip) ∨
  db.ranges.any fun r => r.isActive ∧ (text.parse r.cidr).any fun n =>
   ((db.getAvailableIpSpace r.availableIpSpaceId).bind fun space => text.parse space.cidr).any fun block =>
    block.contains n.ip = false

theorem contains_ip (n : Network) : n.contains n.ip = true := by simp [Network.contains]

theorem not_sound_of_oversold (h : oversold text db = true) : ¬Sound text db := by
 intro hsound
 rcases of_decide_eq_true h with hover | hout
 · obtain ⟨r, hr, hover⟩ := any_eq_true.mp hover
   obtain ⟨r', hr', hover⟩ := any_eq_true.mp hover
   obtain ⟨hactive, hactive', hspace, hid, hover⟩ := of_decide_eq_true hover
   obtain ⟨n, hn, hover⟩ := (any_eq_true _ _).mp hover
   obtain ⟨n', hn', hshared⟩ := (any_eq_true _ _).mp hover
   have hfree := hsound.disjoint r hr r' hr' hactive hactive' hspace hid n n' hn hn' n'.ip hshared
   rw [contains_ip] at hfree
   cases hfree
 · obtain ⟨r, hr, hout⟩ := any_eq_true.mp hout
   obtain ⟨hactive, hout⟩ := of_decide_eq_true hout
   obtain ⟨n, hn, hout⟩ := (any_eq_true _ _).mp hout
   obtain ⟨block, hblock, hout⟩ := (any_eq_true _ _).mp hout
   obtain ⟨space, hspace, hblock⟩ := bind_eq_some_iff.mp hblock
   have hin := hsound.within r hr hactive n hn space hspace block hblock n.ip (contains_ip n)
   rw [of_decide_eq_true hout] at hin
   cases hin

def orders (blockCidr : String) (prefixSizes : List Nat) (ranges : List IpRangeSubscription) : IpSales where
 db := {
  spaces := [{ id := 1, cidr := blockCidr }]
  lineItems := prefixSizes.mapIdx fun i prefixSize => ⟨i + 1, some ⟨1, prefixSize⟩⟩
  ranges
  nextId := ranges.length + 1 }

def twoOrders : IpSales := orders "10.0.0.0/24" [25, 26] []

def lastBlockOrders : IpSales := orders "ffff:ffff:ffff:ffff:ffff:ffff:ffff:fffc/126" [127, 128, 127] []

theorem orders_start (blockCidr : String) (prefixSizes : List Nat) :
  Start CidrText.plain (orders blockCidr prefixSizes []) where
 calls := rfl
 ids := ⟨List.nodup_nil, fun _ hr => absurd hr List.not_mem_nil⟩
 sound := ⟨fun _ hr => absurd hr List.not_mem_nil, fun _ hr => absurd hr List.not_mem_nil⟩

def decideFresh (id : Nat) : List Label :=
 [.allocate id id, .advance id {}, .advance id {}, .advance id {}, .advance id {}]

def sellFresh (id : Nat) : List Label := decideFresh id ++ [.advance id {}]

/-- One call after the other sells two disjoint ranges. -/
theorem sold_ranges_disjoint_two_orders : ∃ s', RunIf (step CidrText.plain)
   (fun s l => orderly CidrText.plain s l = true) twoOrders (sellFresh 1 ++ sellFresh 2) s' ∧
  (s'.db.activeIn 1).length = 2 ∧ Sound CidrText.plain s'.db :=
 RunIf.exists_and_of_execIf (by decide +kernel) fun _ hrun _ => sold_ranges_disjoint (orders_start _ _) hrun

def endedOrder : IpSales := orders "10.0.0.0/24" [25, 26]
  [{ id := 1, subscriptionLineItemId := 1, availableIpSpaceId := 1, created := 0, cidr := "10.0.0.0/25",
     originAsn := some 64512, isActive := false, startedAt := 0 }]

theorem endedOrder_start : Start CidrText.plain endedOrder where
 calls := rfl
 ids := ⟨List.nodup_singleton _, by decide⟩
 sound := by
  have hended : ∀ r ∈ endedOrder.db.ranges, r.isActive = false := by decide
  constructor
  · intro r hr _ _ hactive
    rw [hended r hr] at hactive
    cases hactive
  · intro r hr hactive
    rw [hended r hr] at hactive
    cases hactive

theorem nested_ranges_sold :
  (Start CidrText.plain twoOrders ∧ ∃ s', Run (step CidrText.plain) twoOrders
   (decideFresh 1 ++ decideFresh 2 ++ [.advance 1 {}, .advance 2 {}]) s' ∧ ¬Sound CidrText.plain s'.db) ∧
  (Start CidrText.plain endedOrder ∧ ∃ s', Run (step CidrText.plain) endedOrder
   ([.allocate 1 1, .advance 1 {}, .advance 1 {}, .advance 1 {}, .advance 1 {}, .advance 1 {}, .advance 1 {},
    .deactivate 3 1, .advance 3 {}, .advance 3 {}] ++ sellFresh 2 ++ [.advance 1 {}]) s' ∧
   ¬Sound CidrText.plain s'.db) ∧
  (Start CidrText.plain lastBlockOrders ∧ ∃ s', Run (step CidrText.plain) lastBlockOrders
   (sellFresh 1 ++ sellFresh 2 ++ sellFresh 3) s' ∧ ¬Sound CidrText.plain s'.db) :=
 ⟨⟨orders_start _ _, Run.exists_of_exec_imp (fun _ _ => not_sound_of_oversold) (by decide +kernel)⟩,
  ⟨endedOrder_start, Run.exists_of_exec_imp (fun _ _ => not_sound_of_oversold) (by decide +kernel)⟩,
  ⟨orders_start _ _, Run.exists_of_exec_imp (fun _ _ => not_sound_of_oversold) (by decide +kernel)⟩⟩

end IpSales

end Lnvps
