import Lnvps.Lib.AddrText
import Lnvps.Lib.Table

/-! # IP space for sale -/

namespace Lnvps

open Net Table List Network

structure CidrText where
 parse : String → Option Network
 format : Network → String
 parse_format : ∀ n, parse (format n) = some n

def CidrText.plain : CidrText where
 parse s := ofCidr s.toList
 format n := String.ofList n.cidr
 parse_format n := by simp [ofCidr_cidr]

structure AvailableIpSpace where
 id : Nat
 cidr : String
 maintainer : Option String := none

structure IpRangeLineItemConfig where
 (availableIpSpaceId prefixSize : Nat)

structure IpRangeLineItem where
 id : Nat
 configuration : Option IpRangeLineItemConfig

structure RegistryMetadata where
 (routeObjectRef maintainer : Option String := none)
 roaMaxLength : Option Nat := none

structure IpRangeSubscription where
 (id subscriptionLineItemId availableIpSpaceId : Nat)
 created : Int
 cidr : String
 originAsn : Option Nat := none
 isActive : Bool
 startedAt : Int
 endedAt : Option Int := none
 metadata : Option RegistryMetadata := none

structure IpRangeDb where
 spaces : List AvailableIpSpace
 lineItems : List IpRangeLineItem
 ranges : List IpRangeSubscription
 nextId : Nat

namespace IpRangeDb

variable (db : IpRangeDb)

def getAvailableIpSpace (id : Nat) : Option AvailableIpSpace := lookup (·.id) id db.spaces

def getSubscriptionLineItem (id : Nat) : Option IpRangeLineItem := lookup (·.id) id db.lineItems

def getIpRangeSubscription (id : Nat) : Option IpRangeSubscription := lookup (·.id) id db.ranges

def listByLineItem (lineItemId : Nat) : List IpRangeSubscription :=
 db.ranges.filter fun r => r.subscriptionLineItemId = lineItemId

def activeIn (spaceId : Nat) : List IpRangeSubscription :=
 db.ranges.filter fun r => r.availableIpSpaceId = spaceId ∧ r.isActive

def listLimit : Nat := 100000

def listActive (spaceId : Nat) : List IpRangeSubscription :=
 ((db.activeIn spaceId).insertionSort fun r r' => r'.id ≤ r.id).take listLimit

def insertIpRangeSubscription (now : Int) (row : IpRangeSubscription) : Option IpRangeDb :=
 if db.ranges.any fun r => r.cidr = row.cidr then none
 else some { db with ranges := db.ranges ++ [{ row with id := db.nextId, created := now }], nextId := db.nextId + 1 }

def updateIpRangeSubscription (row : IpRangeSubscription) : IpRangeDb :=
 { db with
   ranges := updateWhere (fun r => r.id = row.id) (fun r => { row with id := r.id, created := r.created }) db.ranges }

variable {db} {spaceId : Nat} {r : IpRangeSubscription}

theorem mem_activeIn :
  r ∈ db.activeIn spaceId ↔ r ∈ db.ranges ∧ r.availableIpSpaceId = spaceId ∧ r.isActive = true := by
 simp [activeIn]

theorem mem_listActive (h : (db.activeIn spaceId).length ≤ listLimit) :
  r ∈ db.listActive spaceId ↔ r ∈ db.activeIn spaceId := by
 unfold listActive
 rw [take_of_length_le (by rw [length_insertionSort]; exact h), mem_insertionSort]

theorem mem_activeIn_of_listActive (h : r ∈ db.listActive spaceId) : r ∈ db.activeIn spaceId :=
 (mem_insertionSort _).mp (mem_of_mem_take h)

structure Ids (db : IpRangeDb) : Prop where
 keyed : Keyed (·.id) db.ranges
 lt : ∀ r ∈ db.ranges, r.id < db.nextId

variable {db' : IpRangeDb} {row r' : IpRangeSubscription} {now : Int}

theorem mem_update (h : r' ∈ (db.updateIpRangeSubscription row).ranges) : ∃ r ∈ db.ranges, r.id = r'.id ∧
  ((r' = r ∧ r.id ≠ row.id) ∨ (r.id = row.id ∧ r' = { row with id := r.id, created := r.created })) := by
 obtain ⟨r, hr, heq⟩ := mem_updateWhere.mp h
 split at heq
 · rename_i hid
   exact ⟨r, hr, by rw [← heq], .inr ⟨of_decide_eq_true hid, heq.symm⟩⟩
 · rename_i hid
   exact ⟨r, hr, by rw [heq], .inl ⟨heq.symm, by simpa using hid⟩⟩

theorem update_update {row' : IpRangeSubscription} (hid : row'.id = row.id) :
  (db.updateIpRangeSubscription row).updateIpRangeSubscription row' = db.updateIpRangeSubscription row' := by
 simp only [updateIpRangeSubscription, hid]
 rw [updateWhere_updateWhere]
 · exact fun _ h => h
 · exact fun _ => rfl

structure Replaces (row r : IpRangeSubscription) : Prop where
 id : row.id = r.id
 created : row.created = r.created
 cidr : row.cidr = r.cidr
 space : row.availableIpSpaceId = r.availableIpSpaceId

theorem mem_update_iff (h : Ids db) (hr : r ∈ db.ranges) (hrow : Replaces row r) :
  r' ∈ (db.updateIpRangeSubscription row).ranges ↔ r' = row ∨ (r' ∈ db.ranges ∧ r'.id ≠ r.id) := by
 have hwritten : { row with id := r.id, created := r.created } = row := by rw [← hrow.id, ← hrow.created]
 constructor
 · intro hmem
   obtain ⟨o, ho, -, ⟨rfl, hne⟩ | ⟨hid, rfl⟩⟩ := mem_update hmem
   · exact .inr ⟨ho, hrow.id ▸ hne⟩
   · obtain rfl := h.keyed.eq_of_key ho hr (hid.trans hrow.id)
     exact .inl hwritten
 · rintro (heq | ⟨hmem, hne⟩)
   · have hnew : { row with id := r.id, created := r.created } ∈ (db.updateIpRangeSubscription row).ranges :=
      mem_updateWhere_of hr (decide_eq_true hrow.id.symm)
     rw [hwritten] at hnew
     rw [heq]
     exact hnew
   · exact mem_updateWhere_of_not hmem (decide_eq_false fun heq => hne (heq.trans hrow.id))

theorem insert_eq_some : db.insertIpRangeSubscription now row = some db' ↔ (∀ r ∈ db.ranges, r.cidr ≠ row.cidr) ∧
  db' = { db with
   ranges := db.ranges ++ [{ row with id := db.nextId, created := now }], nextId := db.nextId + 1 } := by
 unfold insertIpRangeSubscription
 split
 · rename_i hany
   have hno : ¬∀ r ∈ db.ranges, r.cidr ≠ row.cidr := by simpa using hany
   simp [hno]
 rename_i hany
 have hall : ∀ r ∈ db.ranges, r.cidr ≠ row.cidr := by simpa using hany
 rw [Option.some.injEq, eq_comm]
 exact ⟨fun h => ⟨hall, h⟩, fun h => h.2⟩

theorem Ids.update (h : Ids db) : Ids (db.updateIpRangeSubscription row) := by
 refine ⟨h.keyed.updateWhere fun _ _ _ => rfl, fun r' hr' => ?_⟩
 obtain ⟨r, hr, hid, -⟩ := mem_update hr'
 exact hid ▸ h.lt r hr

theorem Ids.insert (h : Ids db) (hinsert : db.insertIpRangeSubscription now row = some db') : Ids db' := by
 obtain ⟨-, rfl⟩ := insert_eq_some.mp hinsert
 refine ⟨h.keyed.snoc fun r hr => Nat.ne_of_lt (h.lt r hr), fun r' hr' => ?_⟩
 rcases mem_snoc.mp hr' with hold | rfl
 · exact Nat.lt_succ_of_lt (h.lt r' hold)
 · exact Nat.lt_succ_self _

end IpRangeDb

def netBounds (n : Network) : Nat × Nat := (n.first, n.last)

def makeNet (start prefixLen : Nat) (kind : Kind) : Option Network :=
 Network.new? ⟨kind, start % 2 ^ kind.bits, Nat.mod_lt _ (Nat.two_pow_pos _)⟩ prefixLen

def boundsOverlap (b b' : Nat × Nat) : Bool := b.1 ≤ b'.2 ∧ b'.1 ≤ b.2

def searchSubnet (size blockEnd : Nat) (taken : List (Nat × Nat)) : (rounds cur : Nat) → Option Nat
 | 0, _ => none
 | rounds + 1, cur =>
  if blockEnd < cur then none
  else if 2 ^ 128 ≤ cur + (size - 1) then none
  else if blockEnd < cur + (size - 1) then none
  else
   match taken.find? (boundsOverlap (cur, cur + (size - 1))) with
   | none => some cur
   | some (_, te) =>
    if 2 ^ 128 ≤ te + 1 then none
    else
     let aligned := (te + size) % 2 ^ 128 / size * size
     searchSubnet size blockEnd taken rounds (if aligned ≤ cur then (cur + size) % 2 ^ 128 else aligned)

def allocateSubnet (block : Network) (targetLen : Nat) (taken : List Network) : Option Network :=
 let maxBits := block.ip.kind.bits
 if targetLen < block.prefixLen ∨ maxBits < targetLen then none
 else if 128 ≤ maxBits - targetLen then none
 else
  let size := 2 ^ (maxBits - targetLen)
  let takenBounds := ((taken.filter fun t => t.ip.kind = block.ip.kind).map netBounds).insertionSort
   fun b b' => b.1 < b'.1 ∨ (b.1 = b'.1 ∧ b.2 ≤ b'.2)
  (searchSubnet size block.last takenBounds (2 * taken.length + 2) block.first).bind fun start =>
   makeNet start targetLen block.ip.kind

def endsBelowTop (block : Network) : Bool := block.last + 1 < 2 ^ 128

variable {size blockEnd rounds cur start targetLen : Nat} {bounds : List (Nat × Nat)} {block n : Network}
 {taken : List Network}

theorem searchSubnet_succ (h : searchSubnet size blockEnd bounds (rounds + 1) cur = some start) :
  (start = cur ∧ cur + (size - 1) ≤ blockEnd ∧ ∀ b ∈ bounds, boundsOverlap (cur, cur + (size - 1)) b = false) ∨
   ∃ b ∈ bounds, cur ≤ b.2 ∧ ∃ next, searchSubnet size blockEnd bounds rounds next = some start ∧
    next = (if (b.2 + size) % 2 ^ 128 / size * size ≤ cur then (cur + size) % 2 ^ 128
     else (b.2 + size) % 2 ^ 128 / size * size) := by
 simp only [searchSubnet] at h
 split at h
 · cases h
 split at h
 · cases h
 split at h
 · cases h
 rename_i hend
 split at h
 · rename_i hfind
   refine .inl ⟨(Option.some.inj h).symm, by omega, fun b hb => ?_⟩
   simpa using find?_eq_none.mp hfind b hb
 rename_i ts te hfind
 split at h
 · cases h
 have hover := find?_some hfind
 simp only [boundsOverlap, decide_eq_true_eq] at hover
 exact .inr ⟨_, mem_of_find?_eq_some hfind, hover.1, _, h, rfl⟩

theorem searchSubnet_free (h : searchSubnet size blockEnd bounds rounds cur = some start) :
  start + (size - 1) ≤ blockEnd ∧ ∀ b ∈ bounds, boundsOverlap (start, start + (size - 1)) b = false := by
 induction rounds generalizing cur with
 | zero => cases h
 | succ rounds ih =>
  rcases searchSubnet_succ h with ⟨rfl, hend, hfree⟩ | ⟨_, _, _, next, hnext, _⟩
  · exact ⟨hend, hfree⟩
  · exact ih hnext

theorem searchSubnet_aligned (hsize : size ∣ 2 ^ 128) (hcur : size ∣ cur)
  (h : searchSubnet size blockEnd bounds rounds cur = some start) : size ∣ start := by
 induction rounds generalizing cur with
 | zero => cases h
 | succ rounds ih =>
  rcases searchSubnet_succ h with ⟨rfl, _⟩ | ⟨b, _, _, next, hnext, rfl⟩
  · exact hcur
  refine ih ?_ hnext
  split
  · exact (Nat.dvd_mod_iff hsize).mpr (Nat.dvd_add_self_right.mpr hcur)
  · exact Nat.dvd_mul_left _ _

theorem le_of_searchSubnet (hpos : 0 < size) (hroom : ∀ b ∈ bounds, b.2 + size < 2 ^ 128)
  (h : searchSubnet size blockEnd bounds rounds cur = some start) : cur ≤ start := by
 induction rounds generalizing cur with
 | zero => cases h
 | succ rounds ih =>
  rcases searchSubnet_succ h with ⟨rfl, _⟩ | ⟨b, hb, hle, next, hnext, hjump⟩
  · exact Nat.le_refl _
  rw [Nat.mod_eq_of_lt (hroom b hb)] at hjump
  have hup : b.2 < (b.2 + size) / size * size := by
   have := Nat.lt_div_mul_add (a := b.2 + size) hpos
   omega
  rw [if_neg (by omega)] at hjump
  have := ih hnext
  omega

theorem makeNet_eq_some {kind : Kind} (hstart : start < 2 ^ kind.bits) (h : makeNet start targetLen kind = some n) :
  n.ip.kind = kind ∧ n.ip.value = start ∧ n.prefixLen = targetLen := by
 unfold makeNet new? at h
 split at h
 · cases h
   exact ⟨rfl, Nat.mod_eq_of_lt hstart, rfl⟩
 · cases h

theorem allocateSubnet_eq_some (h : allocateSubnet block targetLen taken = some n) :
  ∃ bounds : List (Nat × Nat),
   (∀ b, b ∈ bounds ↔ ∃ t ∈ taken, t.ip.kind = block.ip.kind ∧ netBounds t = b) ∧
   searchSubnet n.size block.last bounds (2 * taken.length + 2) block.first = some n.first ∧
   n.ip.kind = block.ip.kind ∧ block.prefixLen ≤ n.prefixLen := by
 simp only [allocateSubnet] at h
 split at h
 · cases h
 rename_i hlen
 split at h
 · cases h
 rename_i hhost
 obtain ⟨start, hsearch, hmake⟩ := Option.bind_eq_some_iff.mp h
 have hend := (searchSubnet_free hsearch).1
 have hlast : block.last < 2 ^ block.ip.kind.bits := last_lt
 obtain ⟨hkind, hvalue, hpre⟩ := makeNet_eq_some (by omega) hmake
 have hsize : n.size = 2 ^ (block.ip.kind.bits - targetLen) := by
  unfold size
  rw [hkind, hpre]
 rw [← hsize] at hsearch
 have hdvd128 : n.size ∣ 2 ^ 128 := by
  rw [hsize]
  exact Nat.pow_dvd_pow 2 (by omega)
 have hdvdBlock : n.size ∣ block.first := by
  have : n.size ∣ block.size := by
   rw [hsize]
   exact Nat.pow_dvd_pow 2 (by omega)
  exact this.trans (Nat.dvd_mul_left _ _)
 have hfirst : n.first = start := by
  unfold first
  rw [hvalue, Nat.div_mul_cancel (searchSubnet_aligned hdvd128 hdvdBlock hsearch)]
 refine ⟨_, fun b => ?_, by rw [hfirst]; exact hsearch, hkind, by omega⟩
 rw [mem_insertionSort, mem_map]
 simp only [mem_filter, decide_eq_true_eq, and_assoc]

theorem boundsOverlap_eq_false {t : Network} (h : boundsOverlap (netBounds n) (netBounds t) = false) :
  Network.Disjoint n t := by
 have hno : ¬(n.first ≤ t.last ∧ t.first ≤ n.last) := of_decide_eq_false h
 exact disjoint_of_lt (by omega)

theorem disjoint_of_allocateSubnet (h : allocateSubnet block targetLen taken = some n) :
  ∀ t ∈ taken, Network.Disjoint n t := by
 intro t ht
 obtain ⟨bounds, hmem, hsearch, hkind, -⟩ := allocateSubnet_eq_some h
 by_cases hk : t.ip.kind = block.ip.kind
 · have hfree := (searchSubnet_free hsearch).2 _ ((hmem _).mpr ⟨t, ht, hk, rfl⟩)
   have hlast : n.last = n.first + (n.size - 1) := by
    have := n.size_pos
    unfold last
    omega
   rw [← hlast] at hfree
   exact boundsOverlap_eq_false hfree
 · exact disjoint_of_kind (by rw [hkind]; exact fun h => hk h.symm)

theorem last_add_size_lt (hend : endsBelowTop block = true) : block.last + block.size < 2 ^ 128 := by
 have hpos := block.size_pos
 have hdvd : block.size ∣ 2 ^ 128 := by
  have hbits : block.ip.kind.bits ≤ 128 := by cases block.ip.kind <;> simp [Kind.bits]
  exact Nat.pow_dvd_pow 2 (by omega)
 have hlt : block.last + 1 < 2 ^ 128 := of_decide_eq_true hend
 obtain ⟨c, hc⟩ := hdvd
 obtain ⟨m, hm⟩ := size_dvd_last_succ (n := block)
 have hmc : m < c := by
  rw [hm, hc] at hlt
  exact Nat.lt_of_mul_lt_mul_left hlt
 have hstep : block.size * (m + 1) ≤ block.size * c := Nat.mul_le_mul_left _ hmc
 rw [Nat.mul_succ, ← hm, ← hc] at hstep
 omega

theorem within_of_allocateSubnet (hend : endsBelowTop block = true) (htaken : ∀ t ∈ taken, Network.Within t block)
  (h : allocateSubnet block targetLen taken = some n) : Network.Within n block := by
 obtain ⟨bounds, hmem, hsearch, hkind, hpre⟩ := allocateSubnet_eq_some h
 have hpos := n.size_pos
 have hle : n.size ≤ block.size := by
  unfold size
  rw [hkind]
  exact Nat.pow_le_pow_right (by omega) (by omega)
 have hroom := last_add_size_lt hend
 refine within_of_le hkind (le_of_searchSubnet hpos ?_ hsearch) ?_
 · intro b hb
   obtain ⟨t, ht, -, rfl⟩ := (hmem b).mp hb
   have := (htaken t ht).bounds.2.2
   simp only [netBounds]
   omega
 · have := (searchSubnet_free hsearch).1
   unfold last at *
   omega

def laterRow (best : Option IpRangeSubscription) (r : IpRangeSubscription) : Option IpRangeSubscription :=
 match best with
 | none => some r
 | some b => if b.created ≤ r.created then some r else some b

def latestRow (rows : List IpRangeSubscription) : Option IpRangeSubscription := rows.foldl laterRow none

inductive Fulfilment
 | renewal
 | reactivate (prev : IpRangeSubscription)
 | fresh

def chooseFulfilment (existing : List IpRangeSubscription) : Fulfilment :=
 if existing.any (·.isActive) then .renewal
 else
  match latestRow existing with
  | some prev => .reactivate prev
  | none => .fresh

variable (text : CidrText)

def networksOf (rows : List IpRangeSubscription) : List Network := rows.filterMap fun r => text.parse r.cidr

def clashes (cidr : Network) (active : List IpRangeSubscription) : Bool :=
 (networksOf text active).any fun t =>
  t.ip.kind = cidr.ip.kind ∧ boundsOverlap (netBounds cidr) (netBounds t) = true

def freshRow (lineItemId spaceId : Nat) (cidr : Network) (now : Int) : IpRangeSubscription where
 id := 0
 subscriptionLineItemId := lineItemId
 availableIpSpaceId := spaceId
 created := now
 cidr := text.format cidr
 isActive := true
 startedAt := now

variable {text} {existing rows : List IpRangeSubscription} {prev r : IpRangeSubscription} {cidr m : Network}

theorem laterRow_cases (best : Option IpRangeSubscription) (row : IpRangeSubscription) :
  laterRow best row = some row ∨ laterRow best row = best := by
 unfold laterRow
 split
 · exact .inl rfl
 · split
   · exact .inl rfl
   · exact .inr rfl

theorem mem_of_foldl_laterRow {best : Option IpRangeSubscription} (h : rows.foldl laterRow best = some r) :
  best = some r ∨ r ∈ rows := by
 induction rows generalizing best with
 | nil => exact .inl h
 | cons row rows ih =>
  rcases ih h with hbest | hmem
  · rcases laterRow_cases best row with heq | heq <;> rw [heq] at hbest
    · exact .inr (Option.some.inj hbest ▸ mem_cons_self)
    · exact .inl hbest
  · exact .inr (mem_cons_of_mem _ hmem)

theorem mem_of_latestRow (h : latestRow rows = some r) : r ∈ rows :=
 (mem_of_foldl_laterRow h).resolve_left nofun

theorem mem_of_chooseFulfilment (h : chooseFulfilment existing = .reactivate prev) :
  prev ∈ existing ∧ prev.isActive = false := by
 unfold chooseFulfilment at h
 split at h
 · cases h
 rename_i hno
 split at h
 · rename_i latest hlatest
   obtain rfl := Fulfilment.reactivate.inj h
   have hmem := mem_of_latestRow hlatest
   refine ⟨hmem, ?_⟩
   by_contra hactive
   exact hno (any_eq_true.mpr ⟨latest, hmem, by simpa using hactive⟩)
 · cases h

theorem mem_networksOf (hr : r ∈ rows) (hm : text.parse r.cidr = some m) : m ∈ networksOf text rows :=
 mem_filterMap.mpr ⟨r, hr, hm⟩

theorem disjoint_of_not_clashes (h : clashes text cidr rows = false) (hr : r ∈ rows) (hm : text.parse r.cidr = some m) :
  Network.Disjoint cidr m := by
 have hno := any_eq_false.mp h m (mem_networksOf hr hm)
 simp only [decide_eq_true_eq, not_and] at hno
 by_cases hkind : m.ip.kind = cidr.ip.kind
 · exact boundsOverlap_eq_false (by simpa using hno hkind)
 · exact disjoint_of_kind fun heq => hkind heq.symm

end Lnvps
