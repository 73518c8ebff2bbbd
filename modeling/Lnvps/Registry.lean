import Lnvps.IpSpace

/-! # Registry objects of IP ranges -/

namespace Lnvps

open Net List Option

structure RouteObject where
 cidr : Network
 originAsn : Nat
 (description maintainer : String)
 deriving DecidableEq

def RouteObject.primaryKey (text : CidrText) (o : RouteObject) : String :=
 text.format o.cidr ++ "AS" ++ toString o.originAsn

structure RoaDefinition where
 originAsn : Nat
 cidr : Network
 maxLength : Option Nat := none
 deriving DecidableEq

def RoaDefinition.effectiveMaxLength (d : RoaDefinition) : Nat := d.maxLength.getD d.cidr.prefixLen

inductive RegistryObject
 | route (o : RouteObject)
 | roa (d : RoaDefinition)
 deriving DecidableEq

namespace RegistryObject

def cidr : RegistryObject → Network
 | .route o => o.cidr
 | .roa d => d.cidr

def key : RegistryObject → Network × Nat × Option Nat
 | .route o => (o.cidr, o.originAsn, none)
 | .roa d => (d.cidr, d.originAsn, some d.effectiveMaxLength)

theorem cidr_of_key {o o' : RegistryObject} (h : o.key = o'.key) : o.cidr = o'.cidr := by
 have hkey : ∀ o : RegistryObject, o.cidr = o.key.1 := by
  intro o
  cases o <;> rfl
 rw [hkey, hkey, h]

end RegistryObject

inductive Reply
 | done
 | failed
 | lost
 deriving DecidableEq

def Reply.takesEffect : Reply → Bool
 | .failed => false
 | _ => true

structure Replies where
 (createRoute addRoa deleteRoute removeRoa : Reply := .done)

def Replies.create (replies : Replies) : RegistryObject → Reply
 | .route _ => replies.createRoute
 | .roa _ => replies.addRoa

def Replies.delete (replies : Replies) : RegistryObject → Reply
 | .route _ => replies.deleteRoute
 | .roa _ => replies.removeRoa

structure RegistryProviders where
 (registry rpki : Bool := true)

def RegistryProviders.handles (cfg : RegistryProviders) : RegistryObject → Bool
 | .route _ => cfg.registry
 | .roa _ => cfg.rpki

theorem RegistryProviders.handles_of_key {cfg : RegistryProviders} {o o' : RegistryObject} (h : o.key = o'.key) :
  cfg.handles o = cfg.handles o' := by
 cases o <;> cases o' <;> first | rfl | simp [RegistryObject.key] at h

inductive IpRangeError
 | notFound
 | noConfiguration
 | invalidCidr
 | createRouteObject
 | addRoa
 | noFreeSubnet
 | duplicateCidr
 deriving DecidableEq

structure RegistryWorld where
 db : IpRangeDb
 objects : List RegistryObject := []

namespace RegistryWorld

def addObject (objects : List RegistryObject) (o : RegistryObject) : List RegistryObject :=
 objects.filter (fun o' => o'.key ≠ o.key) ++ [o]

def removeObject (objects : List RegistryObject) (o : RegistryObject) : List RegistryObject :=
 objects.filter fun o' => o'.key ≠ o.key

variable (w : RegistryWorld)

def create (reply : Reply) (o : RegistryObject) : RegistryWorld :=
 if reply.takesEffect then { w with objects := addObject w.objects o } else w

def delete (reply : Reply) (o : RegistryObject) : RegistryWorld :=
 if reply.takesEffect then { w with objects := removeObject w.objects o } else w

def update (row : IpRangeSubscription) : RegistryWorld :=
 { w with db := w.db.updateIpRangeSubscription row }

end RegistryWorld

def createAll (replies : Replies) : List RegistryObject → RegistryWorld → Except IpRangeError Unit × RegistryWorld
 | [], w => (.ok (), w)
 | o :: os, w =>
  let w := w.create (replies.create o) o
  if replies.create o = .done then createAll replies os w
  else
   match o with
   | .route _ => (.error .createRouteObject, w)
   | .roa _ => (.error .addRoa, w)

def objectsFor (cfg : RegistryProviders) (space : AvailableIpSpace) (lineItemId asn : Nat) (cidr : Network) :
  List RegistryObject :=
 List.filter cfg.handles
  ((space.maintainer.map fun maintainer => RegistryObject.route {
    cidr
    originAsn := asn
    description := "LNVPS subscription line item " ++ toString lineItemId
    maintainer }).toList ++ [.roa { originAsn := asn, cidr }])

def metadataOf (text : CidrText) (objects : List RegistryObject) : RegistryMetadata where
 routeObjectRef := objects.findSome? fun
  | .route o => some (o.primaryKey text)
  | .roa _ => none
 maintainer := objects.findSome? fun
  | .route o => some o.maintainer
  | .roa _ => none
 roaMaxLength := objects.findSome? fun
  | .route _ => none
  | .roa d => some d.effectiveMaxLength

def fulfilRegistry (cfg : RegistryProviders) (text : CidrText) (replies : Replies) (space : AvailableIpSpace)
  (ips : IpRangeSubscription) (w : RegistryWorld) : Except IpRangeError Unit × RegistryWorld :=
 match ips.originAsn, text.parse ips.cidr with
 | none, _ => (.ok (), w)
 | some _, none => (.error .invalidCidr, w)
 | some asn, some cidr =>
  let objects := objectsFor cfg space ips.subscriptionLineItemId asn cidr
  match createAll replies objects w with
  | (.error e, w) => (.error e, w)
  | (.ok (), w) => (.ok (), w.update { ips with metadata := some (metadataOf text objects) })

def recordedObjects (text : CidrText) (ips : IpRangeSubscription) : List RegistryObject :=
 match ips.metadata, ips.originAsn, text.parse ips.cidr with
 | some metadata, some asn, some cidr =>
  ((if metadata.routeObjectRef.isSome then metadata.maintainer else none).map fun maintainer =>
    RegistryObject.route { cidr, originAsn := asn, description := "", maintainer }).toList ++
   (metadata.roaMaxLength.map fun maxLength =>
    RegistryObject.roa { originAsn := asn, cidr, maxLength := some (maxLength % 256) }).toList
 | _, _, _ => []

def deletions (cfg : RegistryProviders) (text : CidrText) (ips : IpRangeSubscription) : List RegistryObject :=
 (recordedObjects text ips).filter cfg.handles

def teardownRegistry (cfg : RegistryProviders) (text : CidrText) (replies : Replies) (ips : IpRangeSubscription)
  (w : RegistryWorld) : RegistryWorld :=
 (deletions cfg text ips).foldl (fun w o => w.delete (replies.delete o) o) w

def configureOriginAsn (cfg : RegistryProviders) (text : CidrText) (replies : Replies) (id : Nat) (newAsn : Option Nat)
  (w : RegistryWorld) : Except IpRangeError Unit × RegistryWorld :=
 match w.db.getIpRangeSubscription id with
 | none => (.error .notFound, w)
 | some ips =>
  if ips.originAsn = newAsn then (.ok (), w)
  else
   let w := teardownRegistry cfg text replies ips w
   match w.db.getAvailableIpSpace ips.availableIpSpaceId with
   | none => (.error .notFound, w)
   | some space =>
    let ips := { ips with originAsn := newAsn, metadata := none }
    fulfilRegistry cfg text replies space ips (w.update ips)

def deactivateRow (cfg : RegistryProviders) (text : CidrText) (replies : Nat → Replies) (now : Int) (w : RegistryWorld)
  (ips : IpRangeSubscription) : RegistryWorld :=
 if ips.isActive then
  (teardownRegistry cfg text (replies ips.id) ips w).update { ips with isActive := false, endedAt := some now }
 else w

def deactivateLineItem (cfg : RegistryProviders) (text : CidrText) (replies : Nat → Replies) (now : Int)
  (lineItemId : Nat) (w : RegistryWorld) : Except IpRangeError Unit × RegistryWorld :=
 (.ok (), (w.db.listByLineItem lineItemId).foldl (deactivateRow cfg text replies now) w)

def tryReactivate (cfg : RegistryProviders) (text : CidrText) (replies : Replies) (prev : IpRangeSubscription)
  (w : RegistryWorld) : Except IpRangeError Bool × RegistryWorld :=
 match text.parse prev.cidr with
 | none => (.ok false, w)
 | some cidr =>
  if clashes text cidr (w.db.listActive prev.availableIpSpaceId) then (.ok false, w)
  else
   let prev := { prev with isActive := true, endedAt := none }
   let w := w.update prev
   match w.db.getAvailableIpSpace prev.availableIpSpaceId with
   | none => (.error .notFound, w)
   | some space =>
    match fulfilRegistry cfg text replies space prev w with
    | (.error e, w) => (.error e, w)
    | (.ok (), w) => (.ok true, w)

def allocateFresh (text : CidrText) (now : Int) (item : IpRangeLineItem) (w : RegistryWorld) :
  Except IpRangeError Unit × RegistryWorld :=
 match item.configuration with
 | none => (.error .noConfiguration, w)
 | some config =>
  match w.db.getAvailableIpSpace config.availableIpSpaceId with
  | none => (.error .notFound, w)
  | some space =>
   match text.parse space.cidr with
   | none => (.error .invalidCidr, w)
   | some block =>
    match allocateSubnet block config.prefixSize (networksOf text (w.db.listActive space.id)) with
    | none => (.error .noFreeSubnet, w)
    | some cidr =>
     match w.db.insertIpRangeSubscription now (freshRow text item.id space.id cidr now) with
     | none => (.error .duplicateCidr, w)
     | some db => (.ok (), { w with db })

def allocateOnPayment (cfg : RegistryProviders) (text : CidrText) (replies : Replies) (now : Int) (lineItemId : Nat)
  (w : RegistryWorld) : Except IpRangeError Unit × RegistryWorld :=
 match w.db.getSubscriptionLineItem lineItemId with
 | none => (.error .notFound, w)
 | some item =>
  match chooseFulfilment (w.db.listByLineItem item.id) with
  | .renewal => (.ok (), w)
  | .fresh => allocateFresh text now item w
  | .reactivate prev =>
   match tryReactivate cfg text replies prev w with
   | (.error e, w) => (.error e, w)
   | (.ok true, w) => (.ok (), w)
   | (.ok false, w) => allocateFresh text now item w

variable {cfg : RegistryProviders} {text : CidrText} {replies : Replies} {o o' : RegistryObject}
 {os objects : List RegistryObject} {w : RegistryWorld} {ips : IpRangeSubscription} {space : AvailableIpSpace}

open RegistryWorld (addObject removeObject)

def expectedObjects (cfg : RegistryProviders) (text : CidrText) (space : AvailableIpSpace) (ips : IpRangeSubscription) :
  List RegistryObject :=
 match ips.originAsn, text.parse ips.cidr with
 | some asn, some cidr => objectsFor cfg space ips.subscriptionLineItemId asn cidr
 | _, _ => []

variable {lineItemId asn : Nat} {cidr : Network}

theorem objectsFor_cases (h : o ∈ objectsFor cfg space lineItemId asn cidr) :
  cfg.handles o = true ∧ ((∃ description maintainer, o = .route ⟨cidr, asn, description, maintainer⟩) ∨
   o = .roa { originAsn := asn, cidr }) := by
 obtain ⟨hmem, hhandles⟩ := mem_filter.mp h
 refine ⟨hhandles, ?_⟩
 rcases mem_append.mp hmem with hroute | hroa
 · obtain ⟨maintainer, -, rfl⟩ := map_eq_some_iff.mp (mem_toList.mp hroute)
   exact .inl ⟨_, _, rfl⟩
 · exact .inr (mem_singleton.mp hroa)

theorem mem_objectsFor (h : o ∈ objectsFor cfg space lineItemId asn cidr) :
  o.cidr = cidr ∧ cfg.handles o = true := by
 obtain ⟨hhandles, ⟨_, _, rfl⟩ | rfl⟩ := objectsFor_cases h
 · exact ⟨rfl, hhandles⟩
 · exact ⟨rfl, hhandles⟩

theorem objectsFor_pairwise : (objectsFor cfg space lineItemId asn cidr).Pairwise fun o o' => o.key ≠ o'.key := by
 refine .filter _ ?_
 cases space.maintainer <;> simp [RegistryObject.key]

theorem mem_expectedObjects (h : o ∈ expectedObjects cfg text space ips) :
  text.parse ips.cidr = some o.cidr ∧ cfg.handles o = true := by
 unfold expectedObjects at h
 split at h
 · rename_i asn cidr _ hcidr
   have hmem := mem_objectsFor h
   rw [hmem.1]
   exact ⟨hcidr, hmem.2⟩
 · cases h

theorem expectedObjects_of_none (h : ips.originAsn = none) : expectedObjects cfg text space ips = [] := by
 unfold expectedObjects
 rw [h]

theorem mem_addObject : o ∈ addObject objects o' ↔ o = o' ∨ (o ∈ objects ∧ o.key ≠ o'.key) := by
 simp [addObject, or_comm]

theorem mem_foldl_addObject (hkeys : os.Pairwise fun o o' => o.key ≠ o'.key) :
  o ∈ os.foldl addObject objects ↔ o ∈ os ∨ (o ∈ objects ∧ ∀ o' ∈ os, o.key ≠ o'.key) := by
 induction os generalizing objects with
 | nil => simp
 | cons first os ih =>
  obtain ⟨hfirst, hrest⟩ := pairwise_cons.mp hkeys
  rw [foldl_cons, ih hrest, mem_addObject, mem_cons, forall_mem_cons]
  constructor
  · rintro (hmem | ⟨rfl | hold, hne⟩)
    · exact .inl (.inr hmem)
    · exact .inl (.inl rfl)
    · exact .inr ⟨hold.1, hold.2, hne⟩
  rintro ((rfl | hmem) | ⟨hold, hne, hnes⟩)
  · exact .inr ⟨.inl rfl, hfirst⟩
  · exact .inl hmem
  · exact .inr ⟨.inr ⟨hold, hne⟩, hnes⟩

theorem createAll_done (h : ∀ o ∈ os, replies.create o = .done) :
  createAll replies os w = (.ok (), { w with objects := os.foldl addObject w.objects }) := by
 induction os generalizing w with
 | nil => rfl
 | cons o os ih =>
  have hdone := h o mem_cons_self
  simp only [createAll, hdone, ↓reduceIte, foldl_cons]
  rw [ih fun o ho => h o (mem_cons_of_mem _ ho)]
  rfl

theorem createAll_failed (h : os.head?.any (fun o => replies.create o = .failed) = true) :
  ∃ e, createAll replies os w = (.error e, w) := by
 cases os with
 | nil => cases h
 | cons o os =>
  have hfailed : replies.create o = .failed := of_decide_eq_true h
  simp only [createAll, hfailed, reduceCtorEq, ↓reduceIte, RegistryWorld.create, Reply.takesEffect,
   Bool.false_eq_true]
  cases o with
  | route _ => exact ⟨_, rfl⟩
  | roa _ => exact ⟨_, rfl⟩

def Elsewhere (text : CidrText) (cidr : String) (objects objects' : List RegistryObject) : Prop :=
 ∀ o, text.parse cidr ≠ some o.cidr → (o ∈ objects' ↔ o ∈ objects)

theorem Elsewhere.trans {cidr : String} {objects' objects'' : List RegistryObject}
  (h : Elsewhere text cidr objects objects') (h' : Elsewhere text cidr objects' objects'') :
  Elsewhere text cidr objects objects'' :=
 fun o ho => (h' o ho).trans (h o ho)

theorem fulfilRegistry_none (h : ips.originAsn = none) : fulfilRegistry cfg text replies space ips w = (.ok (), w) := by
 unfold fulfilRegistry
 rw [h]

theorem fulfilRegistry_done (hasn : ips.originAsn = some asn) (hcidr : text.parse ips.cidr = some cidr)
  (hdone : ∀ o ∈ expectedObjects cfg text space ips, replies.create o = .done)
  (hclear : ∀ o ∈ w.objects, text.parse ips.cidr ≠ some o.cidr) :
  ∃ objects', fulfilRegistry cfg text replies space ips w = (.ok (), RegistryWorld.update ⟨w.db, objects'⟩
    { ips with metadata := some (metadataOf text (expectedObjects cfg text space ips)) }) ∧
   Elsewhere text ips.cidr w.objects objects' ∧
   ∀ o, text.parse ips.cidr = some o.cidr → (o ∈ objects' ↔ o ∈ expectedObjects cfg text space ips) := by
 have hexpected : expectedObjects cfg text space ips = objectsFor cfg space ips.subscriptionLineItemId asn cidr := by
  unfold expectedObjects
  rw [hasn, hcidr]
 rw [hexpected] at hdone ⊢
 refine ⟨(objectsFor cfg space ips.subscriptionLineItemId asn cidr).foldl addObject w.objects, ?_, ?_, ?_⟩
 · simp only [fulfilRegistry, hasn, hcidr, createAll_done hdone]
 · intro o hne
   rw [mem_foldl_addObject objectsFor_pairwise]
   have hother : ∀ o' ∈ objectsFor cfg space ips.subscriptionLineItemId asn cidr, o.key ≠ o'.key := by
    intro o' ho' hkey
    have heq := RegistryObject.cidr_of_key hkey
    rw [(mem_objectsFor ho').1] at heq
    exact hne (by rw [hcidr, heq])
   constructor
   · rintro (hmem | hold)
     · exact absurd rfl (hother o hmem)
     · exact hold.1
   · exact fun hold => .inr ⟨hold, hother⟩
 · intro o ho
   rw [mem_foldl_addObject objectsFor_pairwise]
   exact ⟨fun h => h.elim id fun hold => absurd ho (hclear o hold.1), .inl⟩

theorem fulfilRegistry_failed
  (h : (expectedObjects cfg text space ips).head?.any (fun o => replies.create o = .failed) = true) :
  ∃ e, fulfilRegistry cfg text replies space ips w = (.error e, w) := by
 unfold expectedObjects at h
 split at h
 · rename_i asn cidr hasn' hcidr
   obtain ⟨e, he⟩ := createAll_failed (w := w) h
   exact ⟨e, by simp only [fulfilRegistry, hasn', hcidr, he]⟩
 · cases h

theorem fulfilRegistry_invalid (hasn : ips.originAsn = some asn) (hcidr : text.parse ips.cidr = none) :
  ∃ e, fulfilRegistry cfg text replies space ips w = (.error e, w) := by
 unfold fulfilRegistry
 rw [hasn, hcidr]
 exact ⟨_, rfl⟩

theorem isSome_findSome? {α : Type} {f : RegistryObject → Option α} (ho : o ∈ os) (hf : (f o).isSome = true) :
  (os.findSome? f).isSome = true :=
 List.findSome?_isSome_iff.mpr ⟨o, ho, hf⟩

theorem recorded_metadataOf (h : o ∈ expectedObjects cfg text space ips) : ∃ o' ∈ recordedObjects text
  { ips with metadata := some (metadataOf text (expectedObjects cfg text space ips)) }, o'.key = o.key := by
 cases hasn : ips.originAsn with
 | none =>
  rw [expectedObjects_of_none hasn] at h
  cases h
 | some asn =>
  obtain ⟨cidr, hcidr⟩ : ∃ cidr, text.parse ips.cidr = some cidr := ⟨_, (mem_expectedObjects h).1⟩
  simp only [expectedObjects, recordedObjects, hasn, hcidr, mem_append, mem_toList] at h ⊢
  obtain ⟨-, ⟨_, _, rfl⟩ | rfl⟩ := objectsFor_cases h
  · have href :
      (metadataOf text (objectsFor cfg space ips.subscriptionLineItemId asn cidr)).routeObjectRef.isSome := by
     exact isSome_findSome? h rfl
    obtain ⟨maintainer, hmaintainer⟩ := isSome_iff_exists.mp
     (show (metadataOf text (objectsFor cfg space ips.subscriptionLineItemId asn cidr)).maintainer.isSome from
      isSome_findSome? h rfl)
    rw [if_pos href, hmaintainer]
    exact ⟨_, .inl rfl, rfl⟩
  · obtain ⟨maxLength, hmax⟩ := isSome_iff_exists.mp
     (show (metadataOf text (objectsFor cfg space ips.subscriptionLineItemId asn cidr)).roaMaxLength.isSome from
      isSome_findSome? h rfl)
    rw [hmax]
    refine ⟨_, .inr rfl, ?_⟩
    obtain ⟨o', ho', hlen⟩ := exists_of_findSome?_eq_some hmax
    obtain ⟨-, ⟨_, _, rfl⟩ | rfl⟩ := objectsFor_cases ho'
    · cases hlen
    have hle := cidr.le
    have hbits : cidr.ip.kind.bits ≤ 128 := by cases cidr.ip.kind <;> simp [Kind.bits]
    have hlen : cidr.prefixLen = maxLength := Option.some.inj hlen
    have hbyte : maxLength % 256 = maxLength := Nat.mod_eq_of_lt (by omega)
    simp [RegistryObject.key, RoaDefinition.effectiveMaxLength, hbyte, hlen]

theorem mem_recordedObjects (h : o ∈ recordedObjects text ips) :
  text.parse ips.cidr = some o.cidr ∧ ips.metadata.isSome = true := by
 unfold recordedObjects at h
 split at h
 · rename_i hmetadata _ hcidr
   rw [hmetadata, hcidr]
   refine ⟨?_, rfl⟩
   rcases mem_append.mp h with hroute | hroa
   · obtain ⟨_, -, rfl⟩ := map_eq_some_iff.mp (mem_toList.mp hroute)
     rfl
   · obtain ⟨_, -, rfl⟩ := map_eq_some_iff.mp (mem_toList.mp hroa)
     rfl
 · cases h

theorem mem_foldl_delete (h : ∀ o ∈ os, (replies.delete o).takesEffect = true) :
  (os.foldl (fun w o => w.delete (replies.delete o) o) w).db = w.db ∧
  ∀ o, o ∈ (os.foldl (fun w o => w.delete (replies.delete o) o) w).objects ↔
   o ∈ w.objects ∧ ∀ o' ∈ os, o.key ≠ o'.key := by
 induction os generalizing w with
 | nil => simp
 | cons first os ih =>
  have heffect := h first mem_cons_self
  obtain ⟨hdb, hmem⟩ := ih (w := w.delete (replies.delete first) first) fun o ho => h o (mem_cons_of_mem _ ho)
  rw [foldl_cons]
  refine ⟨hdb.trans ?_, fun o => (hmem o).trans ?_⟩
  · simp [RegistryWorld.delete, heffect]
  · simp [RegistryWorld.delete, heffect, removeObject, and_assoc]

end Lnvps
