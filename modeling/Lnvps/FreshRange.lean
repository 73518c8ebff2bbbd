import Lnvps.Carving
import Lnvps.IpSales

/-! # A paid range is delivered -/

namespace Lnvps.IpSales

open Net Steps Carving

inductive FreshError
 | noConfiguration (lineItemId : Nat)
 | noSpace (spaceId : Nat)
 | invalidCidr (spaceId : Nat) (cidr : String)
 | noFreeSubnet (prefixSize : Nat) (cidr : String)
 | duplicate (cidr : String)
 deriving DecidableEq

def allocateFresh (text : CidrText) (now : Int) (db : IpRangeDb) (item : IpRangeLineItem) :
  Except FreshError IpRangeDb :=
 match item.configuration with
 | none => .error (.noConfiguration item.id)
 | some cfg =>
  match db.getAvailableIpSpace cfg.availableIpSpaceId with
  | none => .error (.noSpace cfg.availableIpSpaceId)
  | some space =>
   match text.parse space.cidr with
   | none => .error (.invalidCidr space.id space.cidr)
   | some block =>
    match Lnvps.allocateSubnet block cfg.prefixSize (networksOf text (db.listActive space.id)) with
    | none => .error (.noFreeSubnet cfg.prefixSize space.cidr)
    | some cidr =>
     match db.insertIpRangeSubscription now (freshRow text item.id space.id cidr now) with
     | none => .error (.duplicate (text.format cidr))
     | some db' => .ok db'

def queries (text : CidrText) (a : Answer) : (count : Nat) → IpRangeDb × Phase → IpRangeDb × Phase
 | 0, s => s
 | count + 1, (db, p) => queries text a count (query text a db p)

section Calls

variable {text : CidrText} {db : IpRangeDb}

theorem queries_done (a : Answer) (count : Nat) : queries text a count (db, .done) = (db, .done) := by
 induction count with
 | zero => rfl
 | succ count ih => exact ih

theorem queries_fresh (a : Answer) (item : IpRangeLineItem) :
  queries text a 3 (db, .fresh item) =
   match allocateFresh text a.now db item with
   | .ok db' => (db', .done)
   | .error _ => (db, .done) := by
 unfold allocateFresh
 rw [queries, query]
 cases hcfg : item.configuration with
 | none => exact queries_done a 2
 | some cfg =>
  cases hspace : db.getAvailableIpSpace cfg.availableIpSpaceId with
  | none =>
   simp only [hspace]
   exact queries_done a 2
  | some space =>
   cases hblock : text.parse space.cidr with
   | none =>
    simp only [hspace, hblock]
    exact queries_done a 2
   | some block =>
    simp only [hspace, hblock, queries, query]
    cases hcidr : Lnvps.allocateSubnet block cfg.prefixSize (networksOf text (db.listActive space.id)) with
    | none => rfl
    | some cidr =>
     simp only
     cases db.insertIpRangeSubscription a.now (freshRow text item.id space.id cidr a.now) <;> rfl

end Calls

def Lowest (block : Network) (targetLen : Nat) (taken : List Network) (n : Network) : Prop :=
 Fits block targetLen taken n ∧ ∀ m, Fits block targetLen taken m → n.first ≤ m.first

section Free

variable {text : CidrText} {db : IpRangeDb} {block n m : Network} {targetLen : Nat} {taken taken' : List Network}

theorem fits_of_subset (h : Fits block targetLen taken n) (hsub : ∀ t ∈ taken', t ∈ taken) :
  Fits block targetLen taken' n :=
 ⟨h.prefixLen, h.aligned, h.within, fun t ht => h.disjoint t (hsub t ht)⟩

theorem Lowest.unique (hn : Lowest block targetLen taken n) (hm : Lowest block targetLen taken m) : n = m := by
 have hfirst : n.first = m.first := Nat.le_antisymm (hn.2 m hm.1) (hm.2 n hn.1)
 have hkind : n.ip.kind = m.ip.kind := hn.1.within.bounds.1.trans hm.1.within.bounds.1.symm
 have hvalue : n.ip.value = m.ip.value := by rw [hn.1.aligned, hm.1.aligned, hfirst]
 have hlen : n.prefixLen = m.prefixLen := by rw [hn.1.prefixLen, hm.1.prefixLen]
 obtain ⟨⟨kind, value, hlt⟩, len, hle⟩ := n
 obtain ⟨⟨kind', value', hlt'⟩, len', hle'⟩ := m
 simp only at hkind hvalue hlen
 subst hkind hvalue hlen
 rfl

theorem fits_listed {spaceId : Nat} (h : Fits block targetLen (networksOf text (db.activeIn spaceId)) n) :
  Fits block targetLen (networksOf text (db.listActive spaceId)) n := by
 refine fits_of_subset h fun t ht => ?_
 obtain ⟨r, hr, ht⟩ := List.mem_filterMap.mp ht
 exact mem_networksOf (IpRangeDb.mem_activeIn_of_listActive hr) ht

end Free

section Delivery

variable {text : CidrText} {now : Int} {db : IpRangeDb} {item : IpRangeLineItem} {cfg : IpRangeLineItemConfig}
 {space : AvailableIpSpace} {block : Network}

theorem allocateFresh_fails_iff (hcfg : item.configuration = some cfg)
  (hspace : db.getAvailableIpSpace cfg.availableIpSpaceId = some space)
  (hblock : text.parse space.cidr = some block) :
  (∃ e, allocateFresh text now db item = .error e) ↔
   ∀ m, Lnvps.allocateSubnet block cfg.prefixSize (networksOf text (db.listActive space.id)) = some m →
    ∃ r ∈ db.ranges, r.cidr = text.format m := by
 unfold allocateFresh
 simp only [hcfg, hspace, hblock]
 cases Lnvps.allocateSubnet block cfg.prefixSize (networksOf text (db.listActive space.id)) with
 | none => simp
 | some cidr =>
  simp only [Option.some.injEq, forall_eq']
  cases hinsert : db.insertIpRangeSubscription now (freshRow text item.id space.id cidr now) with
  | none =>
   simp only [Except.error.injEq, exists_eq', true_iff]
   by_contra hno
   have hall : ∀ r ∈ db.ranges, r.cidr ≠ text.format cidr := fun r hr heq => hno ⟨r, hr, heq⟩
   rw [IpRangeDb.insert_eq_some.mpr ⟨hall, rfl⟩] at hinsert
   cases hinsert
  | some db' =>
   have hall := (IpRangeDb.insert_eq_some.mp hinsert).1
   simp only [reduceCtorEq, exists_false, false_iff]
   rintro ⟨r, hr, heq⟩
   exact hall r hr heq

/-- A call fails only if nothing is free, exactly if the lowest free range is in no row of the table, not even in one
that has ended. -/
theorem fails_only_when_full_iff (hcfg : item.configuration = some cfg)
  (hspace : db.getAvailableIpSpace cfg.availableIpSpaceId = some space)
  (hblock : text.parse space.cidr = some block) :
  ((∃ e, allocateFresh text now db item = .error e) →
    ∀ n, ¬Fits block cfg.prefixSize (networksOf text (db.activeIn space.id)) n) ↔
   ((∃ n, Fits block cfg.prefixSize (networksOf text (db.activeIn space.id)) n) →
    block.ip.kind.bits - cfg.prefixSize < 128 ∧
     ∀ m, Lowest block cfg.prefixSize (networksOf text (db.listActive space.id)) m →
      ∀ r ∈ db.ranges, r.cidr ≠ text.format m) := by
 rw [allocateFresh_fails_iff hcfg hspace hblock]
 constructor
 · rintro hfull ⟨n, hn⟩
   have hsize : block.ip.kind.bits - cfg.prefixSize < 128 := by
    by_contra hge
    refine hfull (fun m hm => ?_) n hn
    simp only [Lnvps.allocateSubnet, if_pos (Nat.le_of_not_lt hge)] at hm
    split at hm <;> cases hm
   refine ⟨hsize, fun m hm r hr heq => hfull (fun m' hm' => ?_) n hn⟩
   obtain ⟨low, hlow, hlowest⟩ := allocateSubnet_of_fits (fits_listed hn) hsize
   rw [hlow, Option.some.injEq] at hm'
   rw [← hm', Lowest.unique hlowest hm]
   exact ⟨r, hr, heq⟩
 · intro hfresh hall n hn
   obtain ⟨hsize, hnew⟩ := hfresh ⟨n, hn⟩
   obtain ⟨low, hlow, hlowest⟩ := allocateSubnet_of_fits (fits_listed hn) hsize
   obtain ⟨r, hr, heq⟩ := hall low hlow
   exact hnew low hlowest r hr heq

/-- Nothing was sold yet, so the `/25` of the first line item is delivered. -/
theorem fails_only_when_full_first : ∃ item cfg space block,
  item.configuration = some cfg ∧ twoOrders.db.getAvailableIpSpace cfg.availableIpSpaceId = some space ∧
   CidrText.plain.parse space.cidr = some block ∧
    ((∃ e, allocateFresh CidrText.plain 0 twoOrders.db item = .error e) →
     ∀ n, ¬Fits block cfg.prefixSize (networksOf CidrText.plain (twoOrders.db.activeIn space.id)) n) := by
 have hblock : CidrText.plain.parse "10.0.0.0/24" =
   some ⟨⟨.v4, 0x0a000000, by decide⟩, 24, by decide⟩ := by decide +kernel
 have hcfg : (⟨1, some ⟨1, 25⟩⟩ : IpRangeLineItem).configuration = some ⟨1, 25⟩ := rfl
 have hspace : twoOrders.db.getAvailableIpSpace 1 = some { id := 1, cidr := "10.0.0.0/24" } := rfl
 exact ⟨_, _, _, _, hcfg, hspace, hblock, (fails_only_when_full_iff hcfg hspace hblock).mpr fun _ =>
  ⟨by decide, fun _ _ _ hr => absurd hr List.not_mem_nil⟩⟩

def equalOrders : IpSales := orders "10.0.0.0/24" [25, 25] []

/-- The first line item gets `10.0.0.0/25` and expires. Then no range of the block is in use, but the second one gets
nothing. -/
theorem ended_range_blocks_orders : ∃ s', Run (step CidrText.plain) equalOrders
   (sellFresh 1 ++ [.deactivate 2 1, .advance 2 {}, .advance 2 {}, .advance 2 {}]) s' ∧
  s'.db.activeIn 1 = [] ∧
  allocateFresh CidrText.plain 0 s'.db ⟨2, some ⟨1, 25⟩⟩ = .error (.duplicate "10.0.0.0/25") ∧
  ∃ n, Fits ⟨⟨.v4, 0x0a000000, by decide⟩, 24, by decide⟩ 25 (networksOf CidrText.plain (s'.db.activeIn 1)) n := by
 obtain ⟨s', hrun, hactive, hfails⟩ := Run.exists_of_exec (f := step CidrText.plain) (s := equalOrders)
  (r := sellFresh 1 ++ [.deactivate 2 1, .advance 2 {}, .advance 2 {}, .advance 2 {}])
  (P := fun s' => s'.db.activeIn 1 = [] ∧ (match allocateFresh CidrText.plain 0 s'.db ⟨2, some ⟨1, 25⟩⟩ with
   | .ok _ => false
   | .error e => e = .duplicate "10.0.0.0/25") = true) (by decide +kernel)
 refine ⟨s', hrun, hactive, ?_, ⟨⟨.v4, 0x0a000000, by decide⟩, 25, by decide⟩, rfl, by decide,
  Network.within_of_le rfl (by decide) (by decide), ?_⟩
 · cases hfresh : allocateFresh CidrText.plain 0 s'.db ⟨2, some ⟨1, 25⟩⟩ with
   | ok db' => simp [hfresh] at hfails
   | error e =>
    simp only [hfresh, decide_eq_true_eq] at hfails
    rw [hfails]
 · rw [hactive]
   exact fun t ht => absurd ht List.not_mem_nil

end Delivery

end Lnvps.IpSales
