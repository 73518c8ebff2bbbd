import Lnvps.Registry
import Lnvps.Lib.Run

/-! # The registry follows the allocations -/

namespace Lnvps

open Net Table Steps List Option

open IpRangeDb (Ids Replaces mem_update_iff insert_eq_some)

variable {cfg : RegistryProviders} {text : CidrText} {replies : Replies} {o : RegistryObject}
 {objects : List RegistryObject} {w w' : RegistryWorld} {ips r r' : IpRangeSubscription} {space : AvailableIpSpace}

namespace RegistryWorld

def Exact (cfg : RegistryProviders) (text : CidrText) (w : RegistryWorld) (r : IpRangeSubscription) : Prop :=
 ∀ space, w.db.getAvailableIpSpace r.availableIpSpaceId = some space → ∀ o, text.parse r.cidr = some o.cidr →
  (o ∈ w.objects ↔ o ∈ expectedObjects cfg text space r)

def Recorded (text : CidrText) (w : RegistryWorld) (r : IpRangeSubscription) : Prop :=
 ∀ o ∈ w.objects, text.parse r.cidr = some o.cidr → ∃ o' ∈ recordedObjects text r, o'.key = o.key

def Ended (text : CidrText) (w : RegistryWorld) (r : IpRangeSubscription) : Prop :=
 r.isActive = false → ∀ o ∈ w.objects, text.parse r.cidr ≠ some o.cidr

structure Follows (cfg : RegistryProviders) (text : CidrText) (w : RegistryWorld) (r : IpRangeSubscription) : Prop where
 recorded : Recorded text w r
 ended : Ended text w r
 exact : r.isActive = true → r.metadata.isSome = true ∨ r.originAsn = none → Exact cfg text w r

structure Tidy (cfg : RegistryProviders) (text : CidrText) (w : RegistryWorld) : Prop where
 ids : Ids w.db
 distinct : ∀ r ∈ w.db.ranges, ∀ r' ∈ w.db.ranges, r.cidr = r'.cidr → r.id = r'.id
 written : ∀ r ∈ w.db.ranges, ∀ n, text.parse r.cidr = some n → r.cidr = text.format n
 space : ∀ r ∈ w.db.ranges, (w.db.getAvailableIpSpace r.availableIpSpaceId).isSome = true
 owned : ∀ o ∈ w.objects, ∃ r ∈ w.db.ranges, text.parse r.cidr = some o.cidr
 follows : ∀ r ∈ w.db.ranges, Follows cfg text w r

theorem Follows.congr (h : Follows cfg text w r) (hspaces : w'.db.spaces = w.db.spaces)
  (hobjects : ∀ o, text.parse r.cidr = some o.cidr → (o ∈ w'.objects ↔ o ∈ w.objects)) : Follows cfg text w' r := by
 refine ⟨fun o ho hcidr => h.recorded o ((hobjects o hcidr).mp ho) hcidr, fun hoff o ho hcidr => ?_,
  fun hactive hnoted space hspace o hcidr => ?_⟩
 · exact h.ended hoff o ((hobjects o hcidr).mp ho) hcidr
 · unfold IpRangeDb.getAvailableIpSpace at hspace
   rw [hspaces] at hspace
   exact (hobjects o hcidr).trans (h.exact hactive hnoted space hspace o hcidr)

theorem Follows.of_clear (hclear : ∀ o ∈ w.objects, text.parse r.cidr ≠ some o.cidr)
  (h : r.isActive = true → r.metadata.isSome = true → r.originAsn = none) : Follows cfg text w r := by
 refine ⟨fun o ho hcidr => absurd hcidr (hclear o ho), fun _ => hclear, fun hactive hnoted space _ o hcidr => ?_⟩
 have hnone : r.originAsn = none := hnoted.elim (h hactive) id
 rw [expectedObjects_of_none hnone]
 exact ⟨fun ho => absurd hcidr (hclear o ho), fun ho => absurd ho not_mem_nil⟩

theorem Tidy.id_of_parse (h : Tidy cfg text w) (hr : r ∈ w.db.ranges) (hr' : r' ∈ w.db.ranges) {n : Network}
  (hn : text.parse r.cidr = some n) (hn' : text.parse r'.cidr = some n) : r.id = r'.id :=
 h.distinct r hr r' hr' ((h.written r hr n hn).trans (h.written r' hr' n hn').symm)

theorem Tidy.update (h : Tidy cfg text w) (hr : r ∈ w.db.ranges) (hrow : Replaces r' r)
  (hdb : w'.db = w.db.updateIpRangeSubscription r') (helse : Elsewhere text r.cidr w.objects w'.objects)
  (hfollows : Follows cfg text w' r') : Tidy cfg text w' := by
 have hspaces : w'.db.spaces = w.db.spaces := by rw [hdb]; rfl
 have hrows : ∀ x, x ∈ w'.db.ranges ↔ x = r' ∨ (x ∈ w.db.ranges ∧ x.id ≠ r.id) := by
  intro x
  rw [hdb]
  exact mem_update_iff h.ids hr hrow
 have hold : ∀ x ∈ w'.db.ranges, ∃ y ∈ w.db.ranges,
   y.id = x.id ∧ y.cidr = x.cidr ∧ y.availableIpSpaceId = x.availableIpSpaceId := by
  intro x hx
  rcases (hrows x).mp hx with rfl | ⟨hx, -⟩
  · exact ⟨r, hr, hrow.id.symm, hrow.cidr.symm, hrow.space.symm⟩
  · exact ⟨x, hx, rfl, rfl, rfl⟩
 refine ⟨?_, fun x hx y hy heq => ?_, fun x hx n hn => ?_, fun x hx => ?_, fun o ho => ?_, fun x hx => ?_⟩
 · rw [hdb]
   exact h.ids.update
 · obtain ⟨x', hx', hxid, hxcidr, -⟩ := hold x hx
   obtain ⟨y', hy', hyid, hycidr, -⟩ := hold y hy
   rw [← hxid, ← hyid]
   exact h.distinct x' hx' y' hy' (by rw [hxcidr, hycidr, heq])
 · obtain ⟨x', hx', -, hxcidr, -⟩ := hold x hx
   rw [← hxcidr] at hn ⊢
   exact h.written x' hx' n hn
 · obtain ⟨x', hx', -, -, hxspace⟩ := hold x hx
   unfold IpRangeDb.getAvailableIpSpace
   rw [hspaces, ← hxspace]
   exact h.space x' hx'
 · by_cases hmine : text.parse r.cidr = some o.cidr
   · exact ⟨r', (hrows r').mpr (.inl rfl), hrow.cidr ▸ hmine⟩
   obtain ⟨x, hx, hxo⟩ := h.owned o ((helse o hmine).mp ho)
   refine ⟨x, (hrows x).mpr (.inr ⟨hx, fun heq => hmine ?_⟩), hxo⟩
   rw [← h.ids.keyed.eq_of_key hx hr heq]
   exact hxo
 · rcases (hrows x).mp hx with rfl | ⟨hx, hne⟩
   · exact hfollows
   · exact (h.follows x hx).congr hspaces fun o hxo => helse o fun hmine => hne (h.id_of_parse hx hr hxo hmine)

theorem Tidy.insert {now : Int} {lineItemId : Nat} {cidr : Network} {db : IpRangeDb} (h : Tidy cfg text w)
  (hspace : (w.db.getAvailableIpSpace space.id).isSome = true)
  (hinsert : w.db.insertIpRangeSubscription now (freshRow text lineItemId space.id cidr now) = some db) :
  Tidy cfg text { w with db } := by
 have hids := h.ids.insert hinsert
 obtain ⟨hunique, rfl⟩ := insert_eq_some.mp hinsert
 have hunique : ∀ r ∈ w.db.ranges, r.cidr ≠ text.format cidr := hunique
 refine ⟨hids, fun x hx y hy heq => ?_, fun x hx n hn => ?_, fun x hx => ?_, fun o ho => ?_, fun x hx => ?_⟩
 · rcases mem_snoc.mp hx with hx | rfl
   · rcases mem_snoc.mp hy with hy | rfl
     · exact h.distinct x hx y hy heq
     · exact absurd heq (hunique x hx)
   · rcases mem_snoc.mp hy with hy | rfl
     · exact absurd heq.symm (hunique y hy)
     · rfl
 · rcases mem_snoc.mp hx with hx | rfl
   · exact h.written x hx n hn
   · cases (text.parse_format cidr).symm.trans hn
     rfl
 · rcases mem_snoc.mp hx with hx | rfl
   · exact h.space x hx
   · exact hspace
 · obtain ⟨r, hr, hro⟩ := h.owned o ho
   exact ⟨r, mem_append_left _ hr, hro⟩
 · rcases mem_snoc.mp hx with hx | rfl
   · exact (h.follows x hx).congr rfl fun _ _ => .rfl
   refine .of_clear (fun o ho hparse => ?_) fun _ _ => rfl
   obtain ⟨r, hr, hro⟩ := h.owned o ho
   obtain hcidr := Option.some.inj ((text.parse_format cidr).symm.trans hparse)
   rw [← hcidr] at hro
   exact hunique r hr (h.written r hr cidr hro)

end RegistryWorld

open RegistryWorld

theorem teardownRegistry_clears (h : Follows cfg text w r)
  (hspace : (w.db.getAvailableIpSpace r.availableIpSpaceId).isSome = true)
  (hdelete : ∀ o ∈ deletions cfg text r, (replies.delete o).takesEffect = true) :
  (teardownRegistry cfg text replies r w).db = w.db ∧
   Elsewhere text r.cidr w.objects (teardownRegistry cfg text replies r w).objects ∧
   ∀ o ∈ (teardownRegistry cfg text replies r w).objects, text.parse r.cidr ≠ some o.cidr := by
 obtain ⟨hdb, hmem⟩ := mem_foldl_delete (w := w) hdelete
 refine ⟨hdb, fun o hother => (hmem o).trans ⟨fun ho => ho.1, fun ho => ⟨ho, fun o' ho' hkey => hother ?_⟩⟩,
  fun o ho hmine => ?_⟩
 · rw [RegistryObject.cidr_of_key hkey]
   exact (mem_recordedObjects (mem_of_mem_filter ho')).1
 obtain ⟨hold, hkept⟩ := (hmem o).mp ho
 obtain ⟨o', ho', hkey⟩ := h.recorded o hold hmine
 have hactive : r.isActive = true := by
  by_contra hoff
  exact h.ended (Bool.not_eq_true _ ▸ hoff) o hold hmine
 obtain ⟨space, hspace⟩ := isSome_iff_exists.mp hspace
 have hexpected := (h.exact hactive (.inl (mem_recordedObjects ho').2) space hspace o hmine).mp hold
 have hhandles : cfg.handles o' = true := by
  rw [RegistryProviders.handles_of_key hkey]
  exact (mem_expectedObjects hexpected).2
 exact hkept o' (mem_filter.mpr ⟨ho', hhandles⟩) hkey.symm

theorem RegistryWorld.Exact.of_clear (hclear : ∀ o ∈ w.objects, text.parse r.cidr ≠ some o.cidr)
  (hasn : r.originAsn = none) : Exact cfg text w r := by
 intro space _ o hcidr
 rw [expectedObjects_of_none hasn]
 exact ⟨fun ho => absurd hcidr (hclear o ho), fun ho => absurd ho not_mem_nil⟩

theorem RegistryWorld.Follows.of_invalid (h : text.parse r.cidr = none) : Follows cfg text w r := by
 refine ⟨fun o _ hcidr => ?_, fun _ o _ hcidr => ?_, fun _ _ space _ o hcidr => ?_⟩ <;>
 · rw [h] at hcidr
   cases hcidr

theorem RegistryWorld.Follows.of_expected (hactive : r.isActive = true)
  (hspace : w.db.getAvailableIpSpace r.availableIpSpaceId = some space)
  (hmetadata : r.metadata = some (metadataOf text (expectedObjects cfg text space r)))
  (hobjects : ∀ o, text.parse r.cidr = some o.cidr → (o ∈ w.objects ↔ o ∈ expectedObjects cfg text space r)) :
  Follows cfg text w r := by
 have hrow : { r with metadata := some (metadataOf text (expectedObjects cfg text space r)) } = r := by
  rw [← hmetadata]
 refine ⟨fun o ho hcidr => ?_, fun hoff => ?_, fun _ _ space' hspace' o hcidr => ?_⟩
 · have hnoted := recorded_metadataOf ((hobjects o hcidr).mp ho)
   rw [hrow] at hnoted
   exact hnoted
 · rw [hactive] at hoff
   cases hoff
 · cases hspace.symm.trans hspace'
   exact hobjects o hcidr

def Configured (cfg : RegistryProviders) (text : CidrText) (id : Nat) (asn : Option Nat) (w : RegistryWorld) : Prop :=
 ∃ r, w.db.getIpRangeSubscription id = some r ∧ r.originAsn = asn ∧ Exact cfg text w r

theorem RegistryWorld.Tidy.fulfil (h : Tidy cfg text w) (hr : r ∈ w.db.ranges) (hrow : Replaces ips r)
  (hdb : w'.db = w.db.updateIpRangeSubscription ips) (helse : Elsewhere text r.cidr w.objects w'.objects)
  (hclear : ∀ o ∈ w'.objects, text.parse r.cidr ≠ some o.cidr)
  (hspace : w.db.getAvailableIpSpace r.availableIpSpaceId = some space)
  (hactive : ips.isActive = true ∨ ips.originAsn = none)
  (hreplies : (∀ o ∈ expectedObjects cfg text space ips, replies.create o = .done) ∨ (ips.metadata = none ∧
   (expectedObjects cfg text space ips).head?.any (fun o => replies.create o = .failed) = true)) :
  Tidy cfg text (fulfilRegistry cfg text replies space ips w').2 ∧
   ((fulfilRegistry cfg text replies space ips w').1 = .ok () →
    Configured cfg text r.id ips.originAsn (fulfilRegistry cfg text replies space ips w').2) := by
 have hread : ∀ {w'' : RegistryWorld} {row : IpRangeSubscription}, Replaces row r →
   w''.db = w.db.updateIpRangeSubscription row → w''.db.getIpRangeSubscription r.id = some row := by
  intro w'' row hrow hdb
  have hmem : row ∈ w''.db.ranges := by
   rw [hdb]
   exact (mem_update_iff h.ids hr hrow).mpr (.inl rfl)
  have hids : Ids w''.db := by
   rw [hdb]
   exact h.ids.update
  rw [← hrow.id]
  exact hids.keyed.lookup_of_mem hmem
 rw [← hrow.cidr] at hclear
 cases hasn : ips.originAsn with
 | none =>
  rw [fulfilRegistry_none hasn]
  refine ⟨h.update hr hrow hdb helse (.of_clear hclear fun _ _ => hasn), fun _ => ?_⟩
  exact ⟨ips, hread hrow hdb, hasn, .of_clear hclear hasn⟩
 | some asn =>
  have hon : ips.isActive = true := hactive.resolve_right (by simp [hasn])
  cases hcidr : text.parse ips.cidr with
  | none =>
   obtain ⟨e, he⟩ : ∃ e, fulfilRegistry cfg text replies space ips w' = (.error e, w') :=
    fulfilRegistry_invalid hasn hcidr
   rw [he]
   exact ⟨h.update hr hrow hdb helse (.of_invalid hcidr), fun hok => by cases hok⟩
  | some cidr =>
   rcases hreplies with hdone | ⟨hnone, hfailed⟩
   · obtain ⟨objects', hout, helse', hobjects⟩ := fulfilRegistry_done hasn hcidr hdone hclear
     rw [hout]
     set row := { ips with metadata := some (metadataOf text (expectedObjects cfg text space ips)) }
     have hrow' : Replaces row r := ⟨hrow.id, hrow.created, hrow.cidr, hrow.space⟩
     have hdb' : (RegistryWorld.update ⟨w'.db, objects'⟩ row).db = w.db.updateIpRangeSubscription row := by
      simp only [RegistryWorld.update, hdb]
      exact IpRangeDb.update_update rfl
     have hfollows : Follows cfg text (.update ⟨w'.db, objects'⟩ row) row := by
      refine .of_expected hon ?_ rfl hobjects
      rw [hdb', hrow'.space]
      exact hspace
     refine ⟨h.update hr hrow' hdb' (helse.trans (hrow.cidr ▸ helse')) hfollows, fun _ => ?_⟩
     exact ⟨row, hread hrow' hdb', hasn, hfollows.exact hon (.inl rfl)⟩
   · obtain ⟨e, he⟩ := fulfilRegistry_failed (w := w') hfailed
     rw [he]
     refine ⟨h.update hr hrow hdb helse (.of_clear hclear fun _ hsome => ?_), fun hok => by cases hok⟩
     rw [hnone] at hsome
     cases hsome

namespace RegistryWorld

inductive Call
 | allocate (lineItemId : Nat) (now : Int) (replies : Replies)
 | configure (id : Nat) (asn : Option Nat) (replies : Replies)
 | deactivate (lineItemId : Nat) (now : Int) (replies : Nat → Replies)

def call (cfg : RegistryProviders) (text : CidrText) (w : RegistryWorld) :
  Call → Except IpRangeError Unit × RegistryWorld
 | .allocate lineItemId now replies => allocateOnPayment cfg text replies now lineItemId w
 | .configure id asn replies => configureOriginAsn cfg text replies id asn w
 | .deactivate lineItemId now replies => deactivateLineItem cfg text replies now lineItemId w

def step (cfg : RegistryProviders) (text : CidrText) (w : RegistryWorld) (c : Call) : Option RegistryWorld :=
 some (call cfg text w c).2

def deletesAll (cfg : RegistryProviders) (text : CidrText) (replies : Replies) (r : IpRangeSubscription) : Bool :=
 (deletions cfg text r).all fun o => (replies.delete o).takesEffect

def createsAll (cfg : RegistryProviders) (text : CidrText) (w : RegistryWorld) (replies : Replies)
  (r : IpRangeSubscription) : Bool :=
 (w.db.getAvailableIpSpace r.availableIpSpaceId).all fun space =>
  (expectedObjects cfg text space r).all fun o => replies.create o = .done

def createsNone (cfg : RegistryProviders) (text : CidrText) (w : RegistryWorld) (replies : Replies)
  (r : IpRangeSubscription) : Bool :=
 (w.db.getAvailableIpSpace r.availableIpSpaceId).all fun space =>
  (expectedObjects cfg text space r).head?.any fun o => replies.create o = .failed

def calm (cfg : RegistryProviders) (text : CidrText) (w : RegistryWorld) : Call → Bool
 | .allocate lineItemId _ replies => (w.db.listByLineItem lineItemId).all (createsAll cfg text w replies)
 | .configure id asn replies =>
  (w.db.getIpRangeSubscription id).all fun r =>
   if r.originAsn = asn then asn = none ∨ (r.isActive ∧ r.metadata.isSome)
   else
    (r.isActive ∨ asn = none) ∧ deletesAll cfg text replies r ∧
     (createsAll cfg text w replies { r with originAsn := asn, metadata := none } ∨
      createsNone cfg text w replies { r with originAsn := asn, metadata := none })
 | .deactivate lineItemId _ replies =>
  (w.db.listByLineItem lineItemId).all fun r => r.isActive = false ∨ deletesAll cfg text (replies r.id) r

theorem createsAll_iff (hspace : w.db.getAvailableIpSpace r.availableIpSpaceId = some space) :
  createsAll cfg text w replies r = true ↔ ∀ o ∈ expectedObjects cfg text space r, replies.create o = .done := by
 unfold createsAll
 rw [hspace, Option.all_some, List.all_eq_true]
 simp only [decide_eq_true_eq]

theorem createsNone_iff (hspace : w.db.getAvailableIpSpace r.availableIpSpaceId = some space) :
  createsNone cfg text w replies r = true ↔
   (expectedObjects cfg text space r).head?.any (fun o => replies.create o = .failed) = true := by
 unfold createsNone
 rw [hspace, all_some]

theorem Tidy.configure {id : Nat} {asn : Option Nat} (h : Tidy cfg text w)
  (hcalm : calm cfg text w (.configure id asn replies) = true) :
  Tidy cfg text (configureOriginAsn cfg text replies id asn w).2 ∧
   ((configureOriginAsn cfg text replies id asn w).1 = .ok () →
    Configured cfg text id asn (configureOriginAsn cfg text replies id asn w).2) := by
 unfold configureOriginAsn
 cases hget : w.db.getIpRangeSubscription id with
 | none => exact ⟨h, fun hok => by cases hok⟩
 | some r =>
  have hr : r ∈ w.db.ranges := mem_of_lookup hget
  obtain rfl : r.id = id := key_of_lookup hget
  simp only [calm, hget, all_some] at hcalm
  by_cases hasn : r.originAsn = asn
  · simp only [hasn, ↓reduceIte, decide_eq_true_eq] at hcalm ⊢
    refine ⟨h, fun _ => ⟨r, hget, hasn, ?_⟩⟩
    have hfollows := h.follows r hr
    by_cases hactive : r.isActive = true
    · exact hfollows.exact hactive (hcalm.elim (fun hnone => .inr (hasn.trans hnone)) fun hon => .inl hon.2)
    · have hnone : asn = none := hcalm.resolve_right fun hon => hactive hon.1
      exact .of_clear (hfollows.ended (Bool.not_eq_true _ ▸ hactive)) (hasn.trans hnone)
  · simp only [hasn, ↓reduceIte, decide_eq_true_eq] at hcalm ⊢
    obtain ⟨hactive, hdelete, hcreate⟩ := hcalm
    have hexists := h.space r hr
    obtain ⟨hdb, helse, hclear⟩ := teardownRegistry_clears (h.follows r hr) hexists (all_eq_true.mp hdelete)
    obtain ⟨space, hspace⟩ := isSome_iff_exists.mp hexists
    rw [hdb, hspace]
    set row := { r with originAsn := asn, metadata := none }
    have hrow : Replaces row r := ⟨rfl, rfl, rfl, rfl⟩
    have hspace' : w.db.getAvailableIpSpace row.availableIpSpaceId = some space := hspace
    refine h.fulfil hr hrow (by rw [RegistryWorld.update, hdb]) helse hclear hspace hactive ?_
    rcases hcreate with hall | hnone
    · exact .inl ((createsAll_iff hspace').mp hall)
    · exact .inr ⟨rfl, (createsNone_iff hspace').mp hnone⟩

variable {now : Int}

theorem Tidy.deactivateRow {replies : Nat → Replies} (h : Tidy cfg text w) (hr : r ∈ w.db.ranges)
  (hcalm : r.isActive = false ∨ deletesAll cfg text (replies r.id) r = true) :
  Tidy cfg text (deactivateRow cfg text replies now w r) ∧
   ∀ x ∈ w.db.ranges, x.id ≠ r.id → x ∈ (deactivateRow cfg text replies now w r).db.ranges := by
 unfold Lnvps.deactivateRow
 split
 · rename_i hactive
   have hdelete := hcalm.resolve_left (by simp [hactive])
   obtain ⟨hdb, helse, hclear⟩ := teardownRegistry_clears (h.follows r hr) (h.space r hr) (all_eq_true.mp hdelete)
   have hrow : Replaces { r with isActive := false, endedAt := some now } r := ⟨rfl, rfl, rfl, rfl⟩
   refine ⟨h.update hr hrow (by rw [RegistryWorld.update, hdb]) helse
    (.of_clear hclear fun hon => by cases hon), fun x hx hne => ?_⟩
   simp only [RegistryWorld.update, hdb]
   exact (mem_update_iff h.ids hr hrow).mpr (.inr ⟨hx, hne⟩)
 · exact ⟨h, fun x hx _ => hx⟩

theorem Tidy.deactivateRows {replies : Nat → Replies} {rows : List IpRangeSubscription}
  (h : Tidy cfg text w) (hrows : ∀ r ∈ rows, r ∈ w.db.ranges) (hkeyed : Keyed (·.id) rows)
  (hcalm : ∀ r ∈ rows, r.isActive = false ∨ deletesAll cfg text (replies r.id) r = true) :
  Tidy cfg text (rows.foldl (Lnvps.deactivateRow cfg text replies now) w) := by
 induction rows generalizing w with
 | nil => exact h
 | cons r rows ih =>
  obtain ⟨htidy, hkeep⟩ := h.deactivateRow (hrows r mem_cons_self) (hcalm r mem_cons_self)
  obtain ⟨hnew, hrest⟩ := nodup_cons.mp hkeyed
  refine ih htidy (fun x hx => hkeep x (hrows x (mem_cons_of_mem _ hx)) fun heq => hnew ?_) hrest
   fun x hx => hcalm x (mem_cons_of_mem _ hx)
  exact mem_map.mpr ⟨x, hx, heq⟩

theorem Tidy.allocateFresh {item : IpRangeLineItem} (h : Tidy cfg text w) :
  Tidy cfg text (allocateFresh text now item w).2 := by
 unfold Lnvps.allocateFresh
 split
 · exact h
 split
 · exact h
 rename_i space hspace
 split
 · exact h
 split
 · exact h
 split
 · exact h
 rename_i hinsert
 have hkey : space.id = _ := key_of_lookup hspace
 refine h.insert ?_ hinsert
 rw [hkey, hspace]
 rfl

theorem Tidy.tryReactivate (h : Tidy cfg text w) (hr : r ∈ w.db.ranges) (hoff : r.isActive = false)
  (hcalm : createsAll cfg text w replies r = true) : Tidy cfg text (tryReactivate cfg text replies r w).2 := by
 unfold Lnvps.tryReactivate
 split
 · exact h
 split
 · exact h
 obtain ⟨space, hspace⟩ := isSome_iff_exists.mp (h.space r hr)
 set row := { r with isActive := true, endedAt := none }
 have hrow : Replaces row r := ⟨rfl, rfl, rfl, rfl⟩
 have hdb : (w.update row).db = w.db.updateIpRangeSubscription row := rfl
 have helse : Elsewhere text r.cidr w.objects (w.update row).objects := fun _ _ => .rfl
 have hspace' : (w.update row).db.getAvailableIpSpace row.availableIpSpaceId = some space := hspace
 have htidy := (h.fulfil hr hrow hdb helse ((h.follows r hr).ended hoff) hspace (.inl rfl)
  (.inl ((createsAll_iff hspace).mp hcalm))).1
 simp only [hspace']
 split
 · rename_i hout
   rw [hout] at htidy
   exact htidy
 · rename_i hout
   rw [hout] at htidy
   exact htidy

theorem Tidy.allocate {lineItemId : Nat} {now : Int} (h : Tidy cfg text w)
  (hcalm : calm cfg text w (.allocate lineItemId now replies) = true) :
  Tidy cfg text (allocateOnPayment cfg text replies now lineItemId w).2 := by
 unfold allocateOnPayment
 split
 · exact h
 rename_i item hitem
 obtain rfl : item.id = lineItemId := key_of_lookup hitem
 split
 · exact h
 · exact h.allocateFresh
 rename_i prev hchoice
 obtain ⟨hmem, hoff⟩ := mem_of_chooseFulfilment hchoice
 have htidy := h.tryReactivate (mem_of_mem_filter hmem) hoff (all_eq_true.mp hcalm prev hmem)
 split
 all_goals
  rename_i hout
  rw [hout] at htidy
 · exact htidy
 · exact htidy
 · exact htidy.allocateFresh

theorem step_tidy {c : Call} (h : Tidy cfg text w) (hcalm : calm cfg text w c = true)
  (hstep : step cfg text w c = some w') : Tidy cfg text w' := by
 cases hstep
 cases c with
 | allocate lineItemId now replies => exact h.allocate hcalm
 | configure id asn replies => exact (h.configure hcalm).1
 | deactivate lineItemId now replies =>
  refine h.deactivateRows (fun r hr => mem_of_mem_filter hr) (h.ids.keyed.sublist (filter_sublist.map _))
   fun r hr => ?_
  simpa using all_eq_true.mp hcalm r hr

theorem registry_follows {cfg : RegistryProviders} {text : CidrText} {w w' : RegistryWorld} {calls : List Call}
  (hstart : Tidy cfg text w) (hrun : RunIf (step cfg text) (fun w c => calm cfg text w c = true) w calls w') :
  (∀ r ∈ w'.db.ranges, Recorded text w' r ∧ Ended text w' r) ∧
   ∀ id asn replies, calm cfg text w' (.configure id asn replies) = true →
    (call cfg text w' (.configure id asn replies)).1 = .ok () →
     Configured cfg text id asn (call cfg text w' (.configure id asn replies)).2 := by
 have htidy : Tidy cfg text w' := hrun.invariant (fun _ _ _ => step_tidy) hstart
 constructor
 · intro r hr
   exact ⟨(htidy.follows r hr).recorded, (htidy.follows r hr).ended⟩
 · intro id asn replies hcalm
   exact (htidy.configure hcalm).2

def misconfigured (cfg : RegistryProviders) (text : CidrText) (id : Nat) (w : RegistryWorld) : Bool :=
 (w.db.getIpRangeSubscription id).any fun r => (w.db.getAvailableIpSpace r.availableIpSpaceId).any fun space =>
  (w.objects.any fun o => text.parse r.cidr = some o.cidr ∧ o ∉ expectedObjects cfg text space r) ∨
   (expectedObjects cfg text space r).any fun o => o ∉ w.objects

theorem not_configured {id : Nat} {asn : Option Nat} (h : misconfigured cfg text id w = true) :
  ¬Configured cfg text id asn w := by
 rintro ⟨r, hget, -, hexact⟩
 obtain ⟨r', hget', h⟩ := (any_eq_true _ _).mp h
 cases hget.symm.trans hget'
 obtain ⟨space, hspace, h⟩ := (any_eq_true _ _).mp h
 rcases of_decide_eq_true h with hstray | hmissing
 · obtain ⟨o, ho, hstray⟩ := any_eq_true.mp hstray
   obtain ⟨hcidr, hno⟩ := of_decide_eq_true hstray
   exact hno ((hexact space hspace o hcidr).mp ho)
 · obtain ⟨o, ho, hno⟩ := any_eq_true.mp hmissing
   exact of_decide_eq_true hno ((hexact space hspace o (mem_expectedObjects ho).1).mpr ho)

def unrecorded (text : CidrText) (w : RegistryWorld) : Bool :=
 w.db.ranges.any fun r => w.objects.any fun o =>
  text.parse r.cidr = some o.cidr ∧ ∀ o' ∈ recordedObjects text r, o'.key ≠ o.key

theorem exists_not_recorded (h : unrecorded text w = true) : ∃ r ∈ w.db.ranges, ¬Recorded text w r := by
 obtain ⟨r, hr, h⟩ := any_eq_true.mp h
 obtain ⟨o, ho, h⟩ := any_eq_true.mp h
 obtain ⟨hcidr, hno⟩ := of_decide_eq_true h
 refine ⟨r, hr, fun hrecorded => ?_⟩
 obtain ⟨o', ho', hkey⟩ := hrecorded o ho hcidr
 exact hno o' ho' hkey

def leftBehind (text : CidrText) (w : RegistryWorld) : Bool :=
 w.db.ranges.any fun r => r.isActive = false ∧ w.objects.any fun o => text.parse r.cidr = some o.cidr

theorem exists_not_ended (h : leftBehind text w = true) : ∃ r ∈ w.db.ranges, ¬Ended text w r := by
 obtain ⟨r, hr, h⟩ := any_eq_true.mp h
 obtain ⟨hoff, h⟩ := of_decide_eq_true h
 obtain ⟨o, ho, hcidr⟩ := any_eq_true.mp h
 exact ⟨r, hr, fun hended => hended hoff o ho (of_decide_eq_true hcidr)⟩

def oneOrder : RegistryWorld where
 db := {
  spaces := [{
   id := 1
   cidr := "10.0.0.0/24"
   maintainer := some "LNVPS-MNT" }]
  lineItems := [⟨1, some ⟨1, 25⟩⟩]
  ranges := []
  nextId := 1 }

theorem oneOrder_tidy : Tidy {} CidrText.plain oneOrder where
 ids := ⟨List.nodup_nil, fun _ hr => absurd hr List.not_mem_nil⟩
 distinct _ hr := absurd hr List.not_mem_nil
 written _ hr := absurd hr List.not_mem_nil
 space _ hr := absurd hr List.not_mem_nil
 owned _ ho := absurd ho List.not_mem_nil
 follows _ hr := absurd hr List.not_mem_nil

def calmCalls : List Call :=
 [.allocate 1 0 {}, .configure 1 (some 64512) { addRoa := .done, createRoute := .failed }, .configure 1 none {},
  .configure 1 (some 64512) {}, .configure 1 (some 64513) { deleteRoute := .lost }, .deactivate 1 1 fun _ => {},
  .allocate 1 2 {}]

theorem registry_follows_one_order : ∃ w', RunIf (step {} CidrText.plain) (fun w c => calm {} CidrText.plain w c = true)
   oneOrder calmCalls w' ∧ w'.objects.length = 2 ∧
  (∀ r ∈ w'.db.ranges, Recorded CidrText.plain w' r ∧ Ended CidrText.plain w' r) ∧
  Configured {} CidrText.plain 1 none (call {} CidrText.plain w' (.configure 1 none {})).2 := by
 obtain ⟨w', hrun, htwo, hcalm, hok⟩ := RunIf.exists_of_execIf (f := step {} CidrText.plain)
  (c := calm {} CidrText.plain) (s := oneOrder) (r := calmCalls) (P := fun w' => w'.objects.length = 2 ∧
   calm {} CidrText.plain w' (.configure 1 none {}) = true ∧
    (call {} CidrText.plain w' (.configure 1 none {})).1 = .ok ()) (by decide +kernel)
 obtain ⟨hrows, hconfigured⟩ := registry_follows oneOrder_tidy hrun
 exact ⟨w', hrun, htwo, hrows, hconfigured 1 none {} hcalm hok⟩

theorem registry_left_behind :
  (∃ w, Run (step {} CidrText.plain) oneOrder [.allocate 1 0 {}, .configure 1 (some 64512) {}] w ∧
   (call {} CidrText.plain w (.configure 1 (some 64513) { deleteRoute := .failed })).1 = .ok () ∧
   ¬Configured {} CidrText.plain 1 (some 64513)
    (call {} CidrText.plain w (.configure 1 (some 64513) { deleteRoute := .failed })).2 ∧
   ∃ r ∈ (call {} CidrText.plain w (.configure 1 (some 64513) { deleteRoute := .failed })).2.db.ranges,
    ¬Recorded CidrText.plain
     (call {} CidrText.plain w (.configure 1 (some 64513) { deleteRoute := .failed })).2 r) ∧
  (∃ w, Run (step {} CidrText.plain) oneOrder [.allocate 1 0 {}, .configure 1 (some 64512) { addRoa := .failed }] w ∧
   (∃ r ∈ w.db.ranges, ¬Recorded CidrText.plain w r) ∧
   (call {} CidrText.plain w (.configure 1 (some 64512) {})).1 = .ok () ∧
   ¬Configured {} CidrText.plain 1 (some 64512) (call {} CidrText.plain w (.configure 1 (some 64512) {})).2) ∧
  (∃ w, Run (step {} CidrText.plain) oneOrder
    [.allocate 1 0 {}, .configure 1 (some 64512) {}, .deactivate 1 1 fun _ => { removeRoa := .failed }] w ∧
   ∃ r ∈ w.db.ranges, ¬Ended CidrText.plain w r) ∧
  ∃ w, Run (step {} CidrText.plain) oneOrder
    [.allocate 1 0 {}, .deactivate 1 1 fun _ => {}, .configure 1 (some 64512) {}] w ∧
   ∃ r ∈ w.db.ranges, ¬Ended CidrText.plain w r := by
 refine ⟨?_, ?_, Run.exists_of_exec_imp (fun _ _ => exists_not_ended) (by decide +kernel),
  Run.exists_of_exec_imp (fun _ _ => exists_not_ended) (by decide +kernel)⟩
 · refine Run.exists_of_exec_imp (P := fun w =>
    let out := call {} CidrText.plain w (.configure 1 (some 64513) { deleteRoute := .failed })
    out.1 = .ok () ∧ misconfigured {} CidrText.plain 1 out.2 = true ∧ unrecorded CidrText.plain out.2 = true)
    (fun w _ h => ?_) (by decide +kernel)
   exact ⟨h.1, not_configured h.2.1, exists_not_recorded h.2.2⟩
 · refine Run.exists_of_exec_imp (P := fun w =>
    let out := call {} CidrText.plain w (.configure 1 (some 64512) {})
    unrecorded CidrText.plain w = true ∧ out.1 = .ok () ∧ misconfigured {} CidrText.plain 1 out.2 = true)
    (fun w _ h => ?_) (by decide +kernel)
   exact ⟨exists_not_recorded h.1, h.2.1, not_configured h.2.2⟩

end RegistryWorld

end Lnvps
