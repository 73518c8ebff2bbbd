import Lnvps.Referral

/-! # Payouts and earnings -/

namespace Lnvps

open Table Steps List Option ReferralDb

namespace Phase

def todo : Phase → List Referral
 | next todo | earned _ _ todo | reserve _ _ todo | pay _ _ todo | record _ todo | release _ todo | select todo _
 | selectEarned _ _ todo _ => todo
 | _ => []

def read : Phase → Option (Nat × Nat)
 | earned r earnedMsat _ | selectEarned r earnedMsat _ _ => some (r.id, earnedMsat)
 | _ => none

def decided : Phase → List (Nat × Nat)
 | reserve r payMsat _ => [(r.id, payMsat)]
 | select _ eligible | selectEarned _ _ _ eligible | feeRate eligible | reserveBatch eligible _ =>
  eligible.map fun e => (e.referral.id, e.payMsat)
 | _ => []

def inserting : Phase → Option (Nat × Nat)
 | reserve r payMsat _ => some (r.id, payMsat)
 | reserveBatch (e :: _) _ => some (e.referral.id, e.payMsat)
 | _ => none

def batch : Phase → List Nat
 | select todo eligible => todo.map (·.id) ++ eligible.map (·.referral.id)
 | selectEarned r _ todo eligible => r.id :: todo.map (·.id) ++ eligible.map (·.referral.id)
 | feeRate eligible | reserveBatch eligible _ => eligible.map (·.referral.id)
 | _ => []

def unsent : Phase → List Nat
 | pay _ payout _ => [payout.id]
 | release payoutId _ => [payoutId]
 | reserveBatch _ reserved | send reserved => reserved.map (·.payoutId)
 | releaseBatch payoutIds => payoutIds
 | _ => []

def toSend : Phase → List SentPayout
 | pay _ payout _ => [⟨payout.id, payout.referralId, payout.amount⟩]
 | reserveBatch _ reserved | send reserved => reserved.map fun r => ⟨r.payoutId, r.referral.id, r.payMsat⟩
 | _ => []

def invoiceFits (a : Answer) : Phase → Bool
 | pay _ payout _ => a.paid.all fun paid => paid.amount ≤ payout.amount
 | _ => true

end Phase

def ReferralDb.reserved (t : ReferralDb) (referralId : Nat) : Nat :=
 total (fun p => p.referralId = referralId ∧ p.currency = .btc) (·.amount) t.payouts

namespace ReferralPayouts

def fair (cfg : PayoutConfig) (s : ReferralPayouts) : Label → Bool
 | .advance id answer =>
  (lookup (·.id) id s.runs).all fun run =>
   (run.phase.inserting.all fun (referralId, _) =>
    s.runs.all fun other => other.id = id || other.phase.decided.all fun x => x.1 ≠ referralId) &&
   run.phase.invoiceFits answer
 | .world db referrals => s.t.referrals.all fun r =>
   earnings cfg s.t r.id ≤ earnings cfg { s.t with db, referrals } r.id &&
    (s.runs.isEmpty || referrals.any fun r' => r'.id = r.id && r'.code = r.code)
 | _ => true

variable {cfg : PayoutConfig} {t t' : ReferralDb} {sent new : List SentPayout} {a : Answer} {refs : List Referral}
 {phase phase' : Phase}

def HasRow (t : ReferralDb) (e : SentPayout) : Prop :=
 ∃ p ∈ t.payouts, p.id = e.payoutId ∧ decide (p.referralId = e.referralId ∧ p.currency = .btc) = true ∧
  e.amount ≤ p.amount

structure Snapshot (t : ReferralDb) (refs : List Referral) : Prop where
 code : ∀ r ∈ refs, ∃ r', lookup (·.id) r.id t.referrals = some r' ∧ r'.code = r.code
 keyed : Keyed (·.id) refs

structure PhaseInv (cfg : PayoutConfig) (t : ReferralDb) (sent : List SentPayout) (refs : List Referral)
  (phase : Phase) : Prop where
 todo : ∀ r ∈ phase.todo, r ∈ refs
 read : ∀ x ∈ phase.read, x.2 ≤ earnings cfg t x.1
 decided : ∀ x ∈ phase.decided, x.2 + t.reserved x.1 ≤ earnings cfg t x.1
 batch : phase.batch.Nodup
 unsent : ∀ id ∈ phase.unsent, id < t.nextId ∧ id ∉ sent.map (·.payoutId)
 unsentNodup : phase.unsent.Nodup
 rows : ∀ e ∈ phase.toSend, HasRow t e

structure Keys (t : ReferralDb) : Prop where
 keyed : Keyed (·.id) t.payouts
 next : ∀ p ∈ t.payouts, p.id < t.nextId

structure Books (cfg : PayoutConfig) (t : ReferralDb) (sent : List SentPayout) : Prop where
 keys : Keys t
 referrals : Keyed (·.id) t.referrals
 rows : ∀ e ∈ sent, HasRow t e
 sentNodup : (sent.map (·.payoutId)).Nodup
 within : ∀ referralId, t.reserved referralId ≤ earnings cfg t referralId

structure Inv (cfg : PayoutConfig) (s : ReferralPayouts) : Prop where
 books : Books cfg s.t s.sent
 runs : Keyed (·.id) s.runs
 snapshot : ∀ run ∈ s.runs, Snapshot s.t run.referrals
 phase : ∀ run ∈ s.runs, PhaseInv cfg s.t s.sent run.referrals run.phase
 apart : ∀ run ∈ s.runs, ∀ other ∈ s.runs, other.id ≠ run.id → ∀ id ∈ run.phase.unsent, id ∉ other.phase.unsent

theorem earnings_congr (hdb : t'.db = t.db) (href : t'.referrals = t.referrals) (referralId : Nat) :
  earnings cfg t' referralId = earnings cfg t referralId := by
 unfold earnings earnedMsat listReferralUsage firstPayment
 rw [hdb, href]

theorem earnings_of_snapshot {r : Referral} (h : Snapshot t refs) (hr : r ∈ refs) :
  earnings cfg t r.id = t.earnedMsat cfg r.code := by
 obtain ⟨r', hget, hcode⟩ := h.code r hr
 simp [earnings, hget, hcode]

theorem reserved_le_existing (referralId : Nat) : t.reserved referralId ≤ t.existingMsat referralId := by
 unfold existingMsat listReferralPayouts
 rw [total_filter]
 have hsame : t.reserved referralId = total (fun p => decide (p.referralId = referralId) && decide (p.currency = .btc))
   (·.amount) t.payouts := by simp [reserved]
 rw [hsame]
 exact total_mono fun p _ => Nat.le_add_right _ _

theorem payableReferralMsat_spec {earned existing minMsat payMsat : Nat}
  (h : payableReferralMsat earned existing minMsat = some payMsat) : payMsat + existing ≤ earned := by
 unfold payableReferralMsat at h
 dsimp only at h
 split at h
 · cases h
 split at h
 · cases h
 · have := Option.some.inj h
   omega

theorem reserved_insert (payout : ReferralPayout) (referralId : Nat) :
  (t.insertReferralPayout payout).1.reserved referralId = t.reserved referralId +
   if decide (payout.referralId = referralId ∧ payout.currency = .btc) then payout.amount else 0 :=
 total_snoc

structure Effect (a : Answer) (phase : Phase) (t t' : ReferralDb) (new : List SentPayout) (phase' : Phase) : Prop where
 db : t'.db = t.db
 referrals : t'.referrals = t.referrals
 keys : Keys t → Keys t'
 nextId : t.nextId ≤ t'.nextId
 rows : ∀ p ∈ t.payouts, p.id ∉ phase.unsent → ∃ p' ∈ t'.payouts,
  p'.id = p.id ∧ p'.referralId = p.referralId ∧ p'.currency = p.currency ∧ p'.amount = p.amount
 reserved : ∀ referralId, t'.reserved referralId ≤ t.reserved referralId ∨
  ∃ amount, phase.inserting = some (referralId, amount) ∧ t'.reserved referralId ≤ t.reserved referralId + amount
 unsent : ∀ id ∈ phase'.unsent, id ∈ phase.unsent ∨ id = t.nextId
 new : new = [] ∨ t' = t ∧ new.map (·.payoutId) = phase.unsent ∧ ∀ e ∈ new, phase.invoiceFits a = true →
  ∃ e' ∈ phase.toSend, e'.payoutId = e.payoutId ∧ e'.referralId = e.referralId ∧ e.amount ≤ e'.amount

theorem effect_same (hunsent : ∀ id ∈ phase'.unsent, id ∈ phase.unsent ∨ id = t.nextId)
  (hnew : new = [] ∨ new.map (·.payoutId) = phase.unsent ∧ ∀ e ∈ new, phase.invoiceFits a = true →
   ∃ e' ∈ phase.toSend, e'.payoutId = e.payoutId ∧ e'.referralId = e.referralId ∧ e.amount ≤ e'.amount) :
  Effect a phase t t new phase' where
 db := rfl
 referrals := rfl
 keys := id
 nextId := Nat.le_refl _
 rows p hp _ := ⟨p, hp, rfl, rfl, rfl, rfl⟩
 reserved _ := .inl (Nat.le_refl _)
 unsent := hunsent
 new := hnew.imp_right fun h => ⟨rfl, h⟩

theorem effect_read (hunsent : phase'.unsent ⊆ phase.unsent) : Effect a phase t t [] phase' :=
 effect_same (fun _ hid => .inl (hunsent hid)) (.inl rfl)

variable {payout : ReferralPayout} {e : SentPayout}

theorem effect_insert (h : phase.inserting = some (payout.referralId, payout.amount))
  (hunsent : ∀ id ∈ phase'.unsent, id ∈ phase.unsent ∨ id = t.nextId) :
  Effect a phase t (t.insertReferralPayout payout).1 [] phase' where
 db := rfl
 referrals := rfl
 keys hk := by
  constructor
  · refine hk.keyed.snoc ?_
    intro p hp
    exact Nat.ne_of_lt (hk.next p hp)
  intro p hp
  rcases mem_snoc.mp hp with hp | rfl
  · exact Nat.lt_succ_of_lt (hk.next p hp)
  · exact Nat.lt_succ_self _
 nextId := Nat.le_succ _
 rows p hp _ := ⟨p, mem_append_left _ hp, rfl, rfl, rfl, rfl⟩
 reserved referralId := by
  rw [reserved_insert]
  by_cases hid : payout.referralId = referralId
  · right
    refine ⟨payout.amount, by rw [h, hid], ?_⟩
    split <;> omega
  · left
    rw [if_neg (by simp [hid])]
    exact Nat.le_refl _
 unsent := hunsent
 new := .inl rfl

theorem effect_update (payout : ReferralPayout)
  (hunsent : ∀ id ∈ phase'.unsent, id ∈ phase.unsent ∨ id = t.nextId) :
  Effect a phase t (t.updateReferralPayout payout) [] phase' where
 db := rfl
 referrals := rfl
 keys hk := by
  refine ⟨hk.keyed.updateWhere fun _ _ _ => rfl, ?_⟩
  intro p hp
  obtain ⟨p₀, hp₀, rfl⟩ := mem_updateWhere.mp hp
  have := hk.next p₀ hp₀
  split <;> exact this
 nextId := Nat.le_refl _
 rows p hp _ := by
  refine ⟨_, mem_updateWhere.mpr ⟨p, hp, rfl⟩, ?_⟩
  split <;> exact ⟨rfl, rfl, rfl, rfl⟩
 reserved referralId := .inl (Nat.le_of_eq (total_updateWhere (fun _ _ => rfl) fun _ _ => rfl))
 unsent := hunsent
 new := .inl rfl

theorem effect_delete {payoutId : Nat} (h : payoutId ∈ phase.unsent)
  (hunsent : ∀ id ∈ phase'.unsent, id ∈ phase.unsent ∨ id = t.nextId) :
  Effect a phase t (t.deleteReferralPayout payoutId) [] phase' where
 db := rfl
 referrals := rfl
 keys hk := ⟨hk.keyed.sublist (filter_sublist.map _), fun p hp => hk.next p (mem_filter.mp hp).1⟩
 nextId := Nat.le_refl _
 rows p hp hid := by
  have hne : p.id ≠ payoutId := by
   rintro rfl
   exact hid h
  exact ⟨p, mem_filter.mpr ⟨hp, by simpa using hne⟩, rfl, rfl, rfl, rfl⟩
 reserved referralId := .inl total_filter_le
 unsent := hunsent
 new := .inl rfl

theorem onchainPass_unsent : (onchainPass cfg refs).unsent = [] := by
 unfold onchainPass
 split <;> rfl

theorem advance_effect (cfg : PayoutConfig) (t : ReferralDb) (a : Answer) (refs : List Referral) (phase : Phase) :
  Effect a phase t (advance cfg t a refs phase).1 (advance cfg t a refs phase).2.1
   (advance cfg t a refs phase).2.2 := by
 cases phase with
 | next todo =>
  rcases todo with _ | ⟨r, todo⟩
  · exact effect_read (by simp [advance, onchainPass_unsent])
  · simp only [advance]
    split <;> exact effect_read nofun
 | select todo eligible => rcases todo with _ | ⟨r, todo⟩ <;> simp only [advance] <;> split <;> exact effect_read nofun
 | reserve r payMsat todo =>
  simp only [advance]
  split
  · exact effect_read nofun
  · exact effect_insert rfl fun id hid => .inr (mem_singleton.mp hid)
 | pay r payout todo =>
  simp only [advance]
  split
  · rename_i paid hpaid
    have hanswer : a.paid = some paid := by
     split at hpaid
     · exact hpaid
     · cases hpaid
    refine effect_same nofun (.inr ⟨rfl, ?_⟩)
    intro e he hfits
    rw [mem_singleton.mp he]
    refine ⟨_, mem_singleton.mpr rfl, rfl, rfl, ?_⟩
    simpa [Phase.invoiceFits, hanswer] using hfits
  · exact effect_read fun id hid => hid
 | record payout todo =>
  simp only [advance]
  split
  · exact effect_read nofun
  · exact effect_update payout nofun
 | release payoutId todo =>
  simp only [advance]
  split
  · exact effect_read nofun
  · exact effect_delete mem_cons_self nofun
 | reserveBatch todo reserved =>
  rcases todo with _ | ⟨e, todo⟩
  · exact effect_read fun id hid => hid
  simp only [advance]
  split
  · exact effect_read nofun
  refine effect_insert rfl ?_
  intro id hid
  simp only [Phase.unsent, map_append, mem_append] at hid
  exact hid.imp_right mem_singleton.mp
 | send reserved =>
  simp only [advance]
  split
  · refine effect_same nofun (.inr ⟨by simp [Phase.unsent], ?_⟩)
    intro e he _
    exact ⟨e, he, rfl, rfl, Nat.le_refl _⟩
  · exact effect_read fun id hid => hid
 | recordBatch payouts =>
  rcases payouts with _ | ⟨payout, rest⟩
  · exact effect_read nofun
  simp only [advance]
  split
  · exact effect_read nofun
  · exact effect_update payout nofun
 | releaseBatch payoutIds =>
  rcases payoutIds with _ | ⟨payoutId, rest⟩
  · exact effect_read nofun
  simp only [advance]
  split
  · exact effect_read fun id hid => mem_cons_of_mem _ hid
  · exact effect_delete mem_cons_self fun id hid => .inl (mem_cons_of_mem _ hid)
 | _ =>
  simp only [advance]
  repeat' split
  all_goals exact effect_read nofun

theorem Effect.new_unsent (h : Effect a phase t t' new phase') (he : e ∈ new) : e.payoutId ∈ phase.unsent := by
 rcases h.new with rfl | ⟨-, hids, -⟩
 · cases he
 · rw [← hids]
   exact mem_map_of_mem he

theorem HasRow.effect (h : HasRow t e) (heff : Effect a phase t t' new phase')
  (hid : e.payoutId ∉ phase.unsent) : HasRow t' e := by
 obtain ⟨p, hp, hpid, hbtc, hamount⟩ := h
 obtain ⟨p', hp', hid', href, hcur, hamt⟩ := heff.rows p hp (by rw [hpid]; exact hid)
 exact ⟨p', hp', hid'.trans hpid, by rw [href, hcur]; exact hbtc, by rw [hamt]; exact hamount⟩

theorem Snapshot.congr (h : Snapshot t refs) (href : t'.referrals = t.referrals) : Snapshot t' refs := by
 refine ⟨?_, h.keyed⟩
 rw [href]
 exact h.code

theorem mem_unsent_of_toSend (he : e ∈ phase.toSend) : e.payoutId ∈ phase.unsent := by
 cases phase with
 | pay r payout todo => simp_all [Phase.toSend, Phase.unsent]
 | reserveBatch todo reserved | send reserved =>
  obtain ⟨r, hr, rfl⟩ := mem_map.mp he
  exact mem_map_of_mem hr
 | _ => cases he

theorem PhaseInv.frame {other : Phase} (h : PhaseInv cfg t sent refs other) (heff : Effect a phase t t' new phase')
  (hapart : ∀ id ∈ other.unsent, id ∉ phase.unsent)
  (hdecided : ∀ x ∈ phase.inserting, ∀ y ∈ other.decided, y.1 ≠ x.1) : PhaseInv cfg t' (sent ++ new) refs other where
 todo := h.todo
 read x hx := by
  rw [earnings_congr heff.db heff.referrals]
  exact h.read x hx
 decided x hx := by
  rw [earnings_congr heff.db heff.referrals]
  have hfits := h.decided x hx
  rcases heff.reserved x.1 with hle | ⟨amount, hins, -⟩
  · omega
  · exact absurd rfl (hdecided _ hins x hx)
 batch := h.batch
 unsent id hid := by
  obtain ⟨hlt, hnot⟩ := h.unsent id hid
  refine ⟨Nat.lt_of_lt_of_le hlt heff.nextId, ?_⟩
  rw [map_append, mem_append]
  rintro (hold | hnewid)
  · exact hnot hold
  · obtain ⟨e, he, rfl⟩ := mem_map.mp hnewid
    exact hapart _ hid (heff.new_unsent he)
 unsentNodup := h.unsentNodup
 rows e he := (h.rows e he).effect heff (hapart _ (mem_unsent_of_toSend he))

theorem PhaseInv.quiet (htodo : ∀ r ∈ phase.todo, r ∈ refs) (hread : phase.read = none) (hdecided : phase.decided = [])
  (hbatch : phase.batch = []) (hunsent : phase.unsent = []) (htoSend : phase.toSend = []) :
  PhaseInv cfg t sent refs phase where
 todo := htodo
 read := by simp [hread]
 decided := by simp [hdecided]
 batch := by simp [hbatch]
 unsent := by simp [hunsent]
 unsentNodup := by simp [hunsent]
 rows := by simp [htoSend]

theorem PhaseInv.next {todo : List Referral} (htodo : ∀ r ∈ todo, r ∈ refs) : PhaseInv cfg t sent refs (.next todo) :=
 .quiet htodo rfl rfl rfl rfl rfl

theorem PhaseInv.done : PhaseInv cfg t sent refs .done := .quiet (by simp [Phase.todo]) rfl rfl rfl rfl rfl

theorem PhaseInv.onchainPass (hsnap : Snapshot t refs) : PhaseInv cfg t sent refs (onchainPass cfg refs) := by
 unfold Lnvps.onchainPass
 split
 · constructor <;> simp [Phase.todo, Phase.read, Phase.decided, Phase.batch, Phase.unsent, Phase.toSend]
   exact hsnap.keyed
 · exact .done

theorem PhaseInv.firstPhase (hsnap : Snapshot t refs) : PhaseInv cfg t sent refs (firstPhase cfg refs) := by
 unfold Lnvps.firstPhase
 split
 · exact .next fun _ hr => hr
 · exact .onchainPass hsnap

theorem decided_of_read {referralId earned minMsat payMsat : Nat} (hread : earned ≤ earnings cfg t referralId)
  (h : payableReferralMsat earned (t.existingMsat referralId) minMsat = some payMsat) :
  payMsat + t.reserved referralId ≤ earnings cfg t referralId := by
 have hspec := payableReferralMsat_spec h
 have hreserved : t.reserved referralId ≤ t.existingMsat referralId := reserved_le_existing referralId
 omega

theorem hasRow_insert (hbtc : payout.currency = .btc) :
  HasRow (t.insertReferralPayout payout).1 ⟨t.nextId, payout.referralId, payout.amount⟩ := by
 refine ⟨{ payout with id := t.nextId }, by simp [insertReferralPayout], rfl, ?_, Nat.le_refl _⟩
 simp [hbtc]

theorem HasRow.insert (h : HasRow t e) (payout : ReferralPayout) : HasRow (t.insertReferralPayout payout).1 e := by
 obtain ⟨p, hp, hrow⟩ := h
 exact ⟨p, mem_append_left _ hp, hrow⟩

theorem reserved_insert_of_ne {referralId : Nat} (hne : payout.referralId ≠ referralId) :
  (t.insertReferralPayout payout).1.reserved referralId = t.reserved referralId := by
 rw [reserved_insert, if_neg (by simp [hne])]
 rfl

section Moves

variable {r : Referral} {todo : List Referral} {eligible : List EligiblePayout} {reserved : List ReservedPayout}
 {payMsat earned : Nat}

theorem PhaseInv.select_skip (h : PhaseInv cfg t sent refs (.select (r :: todo) eligible)) :
  PhaseInv cfg t sent refs (.select todo eligible) where
 todo r' hr' := h.todo r' (mem_cons_of_mem _ hr')
 read := nofun
 decided := h.decided
 batch := (nodup_cons.mp h.batch).2
 unsent := nofun
 unsentNodup := nodup_nil
 rows := nofun

theorem PhaseInv.select_read (hsnap : Snapshot t refs) (h : PhaseInv cfg t sent refs (.select (r :: todo) eligible)) :
  PhaseInv cfg t sent refs (.selectEarned r (t.earnedMsat cfg r.code) todo eligible) where
 todo r' hr' := h.todo r' (mem_cons_of_mem _ hr')
 read x hx := by
  cases hx
  exact Nat.le_of_eq (earnings_of_snapshot hsnap (h.todo r mem_cons_self)).symm
 decided := h.decided
 batch := h.batch
 unsent := nofun
 unsentNodup := nodup_nil
 rows := nofun

theorem PhaseInv.selectEarned_skip (h : PhaseInv cfg t sent refs (.selectEarned r earned todo eligible)) :
  PhaseInv cfg t sent refs (.select todo eligible) where
 todo := h.todo
 read := nofun
 decided := h.decided
 batch := (nodup_cons.mp h.batch).2
 unsent := nofun
 unsentNodup := nodup_nil
 rows := nofun

theorem PhaseInv.selectEarned_push (h : PhaseInv cfg t sent refs (.selectEarned r earned todo eligible))
  (hfits : payMsat + t.reserved r.id ≤ earnings cfg t r.id) :
  PhaseInv cfg t sent refs (.select todo (eligible ++ [⟨r, payMsat⟩])) where
 todo := h.todo
 read := nofun
 decided x hx := by
  simp only [Phase.decided, map_append, mem_append] at hx
  rcases hx with hold | hnew
  · exact h.decided x hold
  · rw [mem_singleton.mp hnew]
    exact hfits
 batch := by
  have hperm : (Phase.select todo (eligible ++ [⟨r, payMsat⟩])).batch.Perm
    (Phase.selectEarned r earned todo eligible).batch := by
   simp only [Phase.batch, map_append, ← append_assoc]
   exact perm_append_singleton _ _
  exact hperm.nodup_iff.mpr h.batch
 unsent := nofun
 unsentNodup := nodup_nil
 rows := nofun

theorem PhaseInv.reserve_one (hsent : ∀ id ∈ sent.map (·.payoutId), id < t.nextId)
  (h : PhaseInv cfg t sent refs (.reserve r payMsat todo)) :
  PhaseInv cfg (t.insertReferralPayout (reservation r payMsat)).1 sent refs
   (.pay r { reservation r payMsat with id := t.nextId } todo) where
 todo := h.todo
 read := nofun
 decided := nofun
 batch := nodup_nil
 unsent id hid := by
  rw [mem_singleton.mp hid]
  exact ⟨Nat.lt_succ_self _, fun hmem => Nat.lt_irrefl _ (hsent _ hmem)⟩
 unsentNodup := nodup_singleton _
 rows e he := by
  rw [mem_singleton.mp he]
  exact hasRow_insert rfl

theorem PhaseInv.reserve_batch {e : EligiblePayout} {rest : List EligiblePayout}
  (hsent : ∀ id ∈ sent.map (·.payoutId), id < t.nextId)
  (h : PhaseInv cfg t sent refs (.reserveBatch (e :: rest) reserved)) :
  PhaseInv cfg (t.insertReferralPayout { reservation e.referral e.payMsat with mode := .onChain }).1 sent refs
   (.reserveBatch rest (reserved ++ [⟨t.nextId, e.referral, e.payMsat⟩])) where
 todo := nofun
 read := nofun
 decided x hx := by
  obtain ⟨e', he', rfl⟩ := mem_map.mp hx
  have hother : e.referral.id ≠ e'.referral.id := by
   intro heq
   apply (nodup_cons.mp h.batch).1
   exact mem_map.mpr ⟨e', he', heq.symm⟩
  have hsame := reserved_insert_of_ne (t := t)
   (show ({ reservation e.referral e.payMsat with mode := .onChain } : ReferralPayout).referralId ≠ e'.referral.id
    from hother)
  rw [hsame]
  exact h.decided _ (mem_cons_of_mem _ hx)
 batch := (nodup_cons.mp h.batch).2
 unsent id hid := by
  simp only [Phase.unsent, map_append, mem_append] at hid
  rcases hid with hold | hnew
  · obtain ⟨hlt, hnot⟩ := h.unsent id hold
    exact ⟨Nat.lt_succ_of_lt hlt, hnot⟩
  · rw [mem_singleton.mp hnew]
    exact ⟨Nat.lt_succ_self _, fun hmem => Nat.lt_irrefl _ (hsent _ hmem)⟩
 unsentNodup := by
  simp only [Phase.unsent, map_append]
  refine .append h.unsentNodup (nodup_singleton _) ?_
  intro id hold hnew
  rw [mem_singleton.mp hnew] at hold
  exact Nat.lt_irrefl _ (h.unsent _ hold).1
 rows e' he' := by
  simp only [Phase.toSend, map_append, mem_append] at he'
  rcases he' with hold | hnew
  · exact (h.rows e' hold).insert _
  · rw [mem_singleton.mp hnew]
    exact hasRow_insert rfl

end Moves

theorem advance_phaseInv (hsnap : Snapshot t refs) (hsent : ∀ id ∈ sent.map (·.payoutId), id < t.nextId)
  (h : PhaseInv cfg t sent refs phase) :
  PhaseInv cfg (advance cfg t a refs phase).1 (sent ++ (advance cfg t a refs phase).2.1) refs
   (advance cfg t a refs phase).2.2 := by
 cases phase with
 | next todo =>
  rcases todo with _ | ⟨r, todo⟩
  · exact .onchainPass hsnap
  have htodo : ∀ r' ∈ todo, r' ∈ refs := fun r' hr' => h.todo r' (mem_cons_of_mem _ hr')
  simp only [advance]
  split
  · exact .next htodo
  have hread : earnings cfg t r.id = t.earnedMsat cfg r.code :=
   earnings_of_snapshot hsnap (h.todo r mem_cons_self)
  refine ⟨htodo, ?_, nofun, nodup_nil, nofun, nodup_nil, nofun⟩
  intro x hx
  cases hx
  exact Nat.le_of_eq hread.symm
 | earned r earned todo =>
  have hread := h.read _ rfl
  simp only [advance]
  split
  · exact .next h.todo
  split
  · exact .next h.todo
  rename_i payMsat hpay
  refine ⟨h.todo, nofun, ?_, nodup_nil, nofun, nodup_nil, nofun⟩
  intro x hx
  rw [mem_singleton.mp hx]
  exact decided_of_read hread hpay
 | reserve r payMsat todo =>
  simp only [advance]
  split
  · exact .next h.todo
  · rw [append_nil]
    exact h.reserve_one hsent
 | pay r payout todo =>
  simp only [advance]
  split
  · exact .quiet h.todo rfl rfl rfl rfl rfl
  · rw [append_nil]
    exact ⟨h.todo, nofun, nofun, nodup_nil, h.unsent, h.unsentNodup, nofun⟩
 | record payout todo | release payoutId todo => exact .next h.todo
 | select todo eligible =>
  rcases todo with _ | ⟨r, todo⟩
  · simp only [advance, append_nil]
    split
    · exact .done
    · exact ⟨nofun, nofun, h.decided, h.batch, nofun, nodup_nil, nofun⟩
  simp only [advance]
  split
  · rw [append_nil]
    exact h.select_skip
  · rw [append_nil]
    exact h.select_read hsnap
 | selectEarned r earned todo eligible =>
  have hread := h.read _ rfl
  simp only [advance]
  split
  · rw [append_nil]
    exact h.selectEarned_skip
  split
  · rw [append_nil]
    exact h.selectEarned_skip
  · rename_i payMsat hpay
    rw [append_nil]
    exact h.selectEarned_push (decided_of_read hread hpay)
 | feeRate eligible =>
  simp only [advance]
  split
  · exact .done
  split
  · exact .done
  · rw [append_nil]
    exact ⟨nofun, nofun, h.decided, h.batch, nofun, nodup_nil, nofun⟩
 | reserveBatch todo reserved =>
  rcases todo with _ | ⟨e, todo⟩
  · rw [show (advance cfg t a refs (.reserveBatch [] reserved)).2.1 = [] from rfl, append_nil]
    exact ⟨nofun, nofun, nofun, nodup_nil, h.unsent, h.unsentNodup, h.rows⟩
  simp only [advance]
  split
  · exact .done
  · rw [append_nil]
    exact h.reserve_batch hsent
 | send reserved =>
  simp only [advance]
  split
  · exact .quiet nofun rfl rfl rfl rfl rfl
  · rw [append_nil]
    exact ⟨nofun, nofun, nofun, nodup_nil, h.unsent, h.unsentNodup, nofun⟩
 | recordBatch payouts =>
  rcases payouts with _ | ⟨payout, rest⟩
  · exact .done
  · exact .quiet nofun rfl rfl rfl rfl rfl
 | releaseBatch payoutIds =>
  rcases payoutIds with _ | ⟨payoutId, rest⟩
  · exact .done
  have hnext := (advance_effect cfg t a refs (.releaseBatch (payoutId :: rest))).nextId
  refine ⟨nofun, nofun, nofun, nodup_nil, ?_, (nodup_cons.mp h.unsentNodup).2, nofun⟩
  intro id hid
  obtain ⟨hlt, hnot⟩ := h.unsent id (mem_cons_of_mem _ hid)
  refine ⟨Nat.lt_of_lt_of_le hlt hnext, ?_⟩
  rw [show (advance cfg t a refs (.releaseBatch (payoutId :: rest))).2.1 = [] from rfl, append_nil]
  exact hnot
 | done => exact .done

theorem mem_decided_of_inserting {x : Nat × Nat} (h : phase.inserting = some x) : x ∈ phase.decided := by
 cases phase with
 | reserve r payMsat todo =>
  cases h
  exact mem_cons_self
 | reserveBatch todo reserved =>
  rcases todo with _ | ⟨e, todo⟩
  · cases h
  · cases h
    exact mem_cons_self
 | _ => cases h

theorem Books.sent_lt (h : Books cfg t sent) : ∀ id ∈ sent.map (·.payoutId), id < t.nextId := by
 intro id hid
 obtain ⟨e, he, rfl⟩ := mem_map.mp hid
 obtain ⟨p, hp, hpid, -⟩ := h.rows e he
 rw [← hpid]
 exact h.keys.next p hp

theorem Books.effect (h : Books cfg t sent) (hphase : PhaseInv cfg t sent refs phase)
  (hfits : phase.invoiceFits a = true) (heff : Effect a phase t t' new phase') : Books cfg t' (sent ++ new) where
 keys := heff.keys h.keys
 referrals := by
  rw [heff.referrals]
  exact h.referrals
 rows e he := by
  rcases mem_append.mp he with hold | hnew
  · apply (h.rows e hold).effect heff
    intro hid
    exact (hphase.unsent _ hid).2 (mem_map_of_mem hold)
  rcases heff.new with rfl | ⟨rfl, -, hsend⟩
  · cases hnew
  · obtain ⟨e', he', hid, href, hamount⟩ := hsend e hnew hfits
    obtain ⟨p, hp, hpid, hbtc, hle⟩ := hphase.rows e' he'
    exact ⟨p, hp, hpid.trans hid, by rw [← href]; exact hbtc, hamount.trans hle⟩
 sentNodup := by
  rcases heff.new with rfl | ⟨rfl, hids, -⟩
  · rw [append_nil]
    exact h.sentNodup
  rw [map_append, hids]
  refine .append h.sentNodup hphase.unsentNodup ?_
  intro id hold hnew
  exact (hphase.unsent id hnew).2 hold
 within referralId := by
  rw [earnings_congr heff.db heff.referrals]
  have hwithin := h.within referralId
  rcases heff.reserved referralId with hle | ⟨amount, hins, hle⟩
  · omega
  · have hdecided := hphase.decided _ (mem_decided_of_inserting hins)
    dsimp only at hdecided
    omega

section Steps

variable {s s' : ReferralPayouts} {id : Nat}

theorem mem_moved {run r : PayoutRun} (hkeyed : Keyed (·.id) s.runs) (hrun : run ∈ s.runs) (phase : Phase)
  (hr : r ∈ updateWhere (fun x => x.id = run.id) (fun x => { x with phase }) s.runs) :
  r = { run with phase } ∨ r ∈ s.runs ∧ r.id ≠ run.id := by
 obtain ⟨r₀, hr₀, rfl⟩ := mem_updateWhere.mp hr
 by_cases hid : r₀.id = run.id
 · left
   rw [hkeyed.eq_of_key hr₀ hrun hid]
   simp
 · right
   simp [hid, hr₀]

theorem step_advance {answer : Answer} (hi : Inv cfg s) (hfair : fair cfg s (.advance id answer) = true)
  (hstep : step cfg s (.advance id answer) = some s') : Inv cfg s' := by
 obtain ⟨run, hget, hstep⟩ := bind_eq_some_iff.mp hstep
 cases hstep
 have hrun : run ∈ s.runs := mem_of_lookup hget
 obtain rfl : run.id = id := key_of_lookup hget
 simp only [fair, hget, all_some, Bool.and_eq_true] at hfair
 obtain ⟨halone, hfits⟩ := hfair
 have heff := advance_effect cfg s.t answer run.referrals run.phase
 have hphase := hi.phase run hrun
 have hother : ∀ r ∈ s.runs, r.id ≠ run.id → ∀ x ∈ run.phase.inserting, ∀ y ∈ r.phase.decided, y.1 ≠ x.1 := by
  intro r hr hne x hx y hy
  rw [mem_def.mp hx] at halone
  simp only [Option.all_some, List.all_eq_true, Bool.or_eq_true, decide_eq_true_eq] at halone
  exact (halone r hr).resolve_left hne y hy
 refine ⟨hi.books.effect hphase hfits heff, hi.runs.updateWhere fun _ _ _ => rfl, ?_, ?_, ?_⟩
 · intro r hr
   rcases mem_moved hi.runs hrun _ hr with rfl | ⟨hr, -⟩
   · exact (hi.snapshot run hrun).congr heff.referrals
   · exact (hi.snapshot r hr).congr heff.referrals
 · intro r hr
   rcases mem_moved hi.runs hrun _ hr with rfl | ⟨hr, hne⟩
   · exact advance_phaseInv (hi.snapshot run hrun) hi.books.sent_lt hphase
   · exact (hi.phase r hr).frame heff (hi.apart r hr run hrun hne.symm) (hother r hr hne)
 have hfresh : ∀ r ∈ s.runs, s.t.nextId ∉ r.phase.unsent := by
  intro r hr hmem
  exact Nat.lt_irrefl _ ((hi.phase r hr).unsent _ hmem).1
 intro r₁ hr₁ r₂ hr₂ hne payoutId h₁ h₂
 rcases mem_moved hi.runs hrun _ hr₁ with rfl | ⟨hr₁, hne₁⟩ <;>
  rcases mem_moved hi.runs hrun _ hr₂ with rfl | ⟨hr₂, hne₂⟩
 · exact hne rfl
 · rcases heff.unsent _ h₁ with hold | rfl
   · exact hi.apart run hrun r₂ hr₂ hne₂ _ hold h₂
   · exact hfresh r₂ hr₂ h₂
 · rcases heff.unsent _ h₂ with hold | rfl
   · exact hi.apart r₁ hr₁ run hrun hne₁.symm _ h₁ hold
   · exact hfresh r₁ hr₁ h₁
 · exact hi.apart r₁ hr₁ r₂ hr₂ hne _ h₁ h₂

theorem firstPhase_unsent : (firstPhase cfg refs).unsent = [] := by
 unfold firstPhase
 split
 · rfl
 · exact onchainPass_unsent

theorem step_start (hi : Inv cfg s) (hstep : step cfg s (.start id) = some s') : Inv cfg s' := by
 simp only [step] at hstep
 split at hstep
 case isFalse => cases hstep
 rename_i hfresh
 cases hstep
 have hsnap : Snapshot s.t s.t.referrals := by
  refine ⟨?_, hi.books.referrals⟩
  intro r hr
  exact ⟨r, hi.books.referrals.lookup_of_mem hr, rfl⟩
 have hmem : ∀ r ∈ s.runs ++ [⟨id, s.t.referrals, firstPhase cfg s.t.referrals⟩],
   r ∈ s.runs ∨ r = ⟨id, s.t.referrals, firstPhase cfg s.t.referrals⟩ := by simp
 refine ⟨hi.books, ?_, ?_, ?_, ?_⟩
 · refine hi.runs.snoc ?_
   simpa using hfresh
 · intro r hr
   rcases hmem r hr with hr | rfl
   · exact hi.snapshot r hr
   · exact hsnap
 · intro r hr
   rcases hmem r hr with hr | rfl
   · exact hi.phase r hr
   · exact .firstPhase hsnap
 · intro r₁ hr₁ r₂ hr₂ hne payoutId h₁ h₂
   rcases hmem r₁ hr₁ with hr₁ | rfl
   · rcases hmem r₂ hr₂ with hr₂ | rfl
     · exact hi.apart r₁ hr₁ r₂ hr₂ hne payoutId h₁ h₂
     · simp [firstPhase_unsent] at h₂
   · simp [firstPhase_unsent] at h₁

theorem step_crash (hi : Inv cfg s) (hstep : step cfg s (.crash id) = some s') : Inv cfg s' := by
 cases hstep
 have hsub : ∀ r ∈ s.runs.filter (fun r => r.id ≠ id), r ∈ s.runs := fun r hr => (mem_filter.mp hr).1
 refine ⟨hi.books, hi.runs.sublist (filter_sublist.map _), fun r hr => hi.snapshot r (hsub r hr),
  fun r hr => hi.phase r (hsub r hr), ?_⟩
 intro r₁ hr₁ r₂ hr₂
 exact hi.apart r₁ (hsub r₁ hr₁) r₂ (hsub r₂ hr₂)

variable {referrals : List Referral}

theorem PhaseInv.grow {db : Db} (h : PhaseInv cfg t sent refs phase)
  (hgrow : ∀ referralId, earnings cfg t referralId ≤ earnings cfg { t with db, referrals } referralId) :
  PhaseInv cfg { t with db, referrals } sent refs phase where
 todo := h.todo
 read x hx := (h.read x hx).trans (hgrow x.1)
 decided x hx := (h.decided x hx).trans (hgrow x.1)
 batch := h.batch
 unsent := h.unsent
 unsentNodup := h.unsentNodup
 rows := h.rows

theorem step_world {db : Db} (hi : Inv cfg s)
  (hfair : fair cfg s (.world db referrals) = true) (hstep : step cfg s (.world db referrals) = some s') :
  Inv cfg s' := by
 simp only [step] at hstep
 split at hstep
 case isFalse => cases hstep
 rename_i hguard
 cases hstep
 simp only [fair, List.all_eq_true, Bool.and_eq_true, decide_eq_true_eq] at hfair
 have hgrow : ∀ referralId, earnings cfg s.t referralId ≤ earnings cfg { s.t with db, referrals } referralId := by
  intro referralId
  rcases hget : lookup (·.id) referralId s.t.referrals with _ | r
  · simp [earnings, hget]
  · obtain rfl : r.id = referralId := key_of_lookup hget
    exact (hfair r (mem_of_lookup hget)).1
 refine ⟨⟨⟨hi.books.keys.keyed, hi.books.keys.next⟩, hguard.1, hi.books.rows, hi.books.sentNodup, ?_⟩, hi.runs,
  ?_, ?_, hi.apart⟩
 · intro referralId
   exact (hi.books.within referralId).trans (hgrow referralId)
 · intro run hrun
   refine ⟨?_, (hi.snapshot run hrun).keyed⟩
   intro r hr
   obtain ⟨r', hget, hcode⟩ := (hi.snapshot run hrun).code r hr
   have hkept := (hfair r' (mem_of_lookup hget)).2
   have hbusy : s.runs.isEmpty = false := by
    rw [isEmpty_eq_false_iff]
    exact ne_nil_of_mem hrun
   rw [hbusy, Bool.false_or, List.any_eq_true] at hkept
   obtain ⟨r'', hr'', hsame⟩ := hkept
   simp only [Bool.and_eq_true, decide_eq_true_eq] at hsame
   have hid : r''.id = r.id := hsame.1.trans (key_of_lookup hget)
   refine ⟨r'', ?_, hsame.2.trans hcode⟩
   rw [← hid]
   exact hguard.1.lookup_of_mem hr''
 · intro run hrun
   exact (hi.phase run hrun).grow hgrow

theorem step_inv {l : Label} (hi : Inv cfg s) (hfair : fair cfg s l = true) (hstep : step cfg s l = some s') :
  Inv cfg s' := by
 cases l with
 | start id => exact step_start hi hstep
 | advance id answer => exact step_advance hi hfair hstep
 | crash id => exact step_crash hi hstep
 | world db referrals => exact step_world hi hfair hstep

end Steps

theorem Books.sent_le (h : Books cfg t sent) (referralId : Nat) :
  total (fun e => e.referralId = referralId) (·.amount) sent ≤ t.reserved referralId := by
 have hrow : ∀ e ∈ sent.filter (fun e => e.referralId = referralId), ∃ p ∈ t.payouts, p.id = e.payoutId ∧
   decide (p.referralId = referralId ∧ p.currency = .btc) = true ∧ e.amount ≤ p.amount := by
  intro e he
  obtain ⟨he, href⟩ := mem_filter.mp he
  rw [← of_decide_eq_true href]
  exact h.rows e he
 exact sum_le_total (h.sentNodup.sublist (filter_sublist.map _)) hrow

structure Start (cfg : PayoutConfig) (s : ReferralPayouts) : Prop where
 runs : s.runs = []
 books : Books cfg s.t s.sent

theorem Start.inv {s : ReferralPayouts} (h : Start cfg s) : Inv cfg s where
 books := h.books
 runs := by simp [h.runs, Keyed]
 snapshot := by simp [h.runs]
 phase := by simp [h.runs]
 apart := by simp [h.runs]

/-- In every run of fair steps no referrer is sent more than the earnings. -/
theorem payouts_within_earnings {cfg : PayoutConfig} {s s' : ReferralPayouts} {ls : List Label} (hstart : Start cfg s)
  (hrun : RunIf (step cfg) (fun s l => fair cfg s l = true) s ls s') (referralId : Nat) :
  s'.sentTo referralId ≤ earnings cfg s'.t referralId := by
 have hinv : Inv cfg s' := hrun.invariant (fun _ _ _ => step_inv) hstart.inv
 exact (hinv.books.sent_le referralId).trans (hinv.books.within referralId)

theorem reservation_sent_once {cfg : PayoutConfig} {s s' : ReferralPayouts} {ls : List Label} (hstart : Start cfg s)
  (hrun : RunIf (step cfg) (fun s l => fair cfg s l = true) s ls s') :
  (s'.sent.map (·.payoutId)).Nodup ∧ ∀ e ∈ s'.sent, HasRow s'.t e := by
 have hinv : Inv cfg s' := hrun.invariant (fun _ _ _ => step_inv) hstart.inv
 exact ⟨hinv.books.sentNodup, hinv.books.rows⟩

def tenPercent : PayoutConfig where
 minPayoutMsat := some 0
 commission amount rate := (amount * rate / 100).floor.toNat

def referredVm : ReferralPayouts where
 t := {
  db := {
   subscriptions := [{ id := 1 }]
   lineItems := [{ id := 1, subscriptionId := 1, subscriptionType := .vps }]
   payments := [{ id := 1, subscriptionId := 1, amount := 100000, isPaid := true }]
   vms := [{ id := 1, hostId := 1, subscriptionLineItemId := 1, refCode := some "friend" }]
   hosts := [{ id := 1 }]
   companies := [{ id := 0, referralRate := 10 }] }
  referrals := [{ id := 1, code := "friend", mode := .nwc }] }

theorem referredVm_start : Start tenPercent referredVm where
 runs := rfl
 books := ⟨⟨nodup_nil, nofun⟩, nodup_singleton _, nofun, nodup_nil, fun _ => Nat.zero_le _⟩

def payingRun (id amount : Nat) : List Label :=
 [.start id, .advance id {}, .advance id {}, .advance id {}, .advance id { paid := some ⟨amount, 3⟩ }, .advance id {}]

/-- The first run pays ten satoshi, and the second finds nothing that is owed. -/
theorem payouts_within_earnings_two_runs :
  ∃ s', RunIf (step tenPercent) (fun s l => fair tenPercent s l = true) referredVm
   (payingRun 1 10000 ++ payingRun 2 10000) s' ∧ s'.sentTo 1 = 10000 ∧
   ∀ referralId, s'.sentTo referralId ≤ earnings tenPercent s'.t referralId :=
 RunIf.exists_and_of_execIf (by decide +kernel) fun _ hrun _ => payouts_within_earnings referredVm_start hrun

theorem reservation_sent_once_two_runs :
  ∃ s', RunIf (step tenPercent) (fun s l => fair tenPercent s l = true) referredVm
   (payingRun 1 10000 ++ payingRun 2 10000) s' ∧
    (s'.sent.map (·.payoutId)).Nodup ∧ ∀ e ∈ s'.sent, HasRow s'.t e := by
 obtain ⟨s', hrun, -⟩ := RunIf.exists_of_execIf (f := step tenPercent) (c := fair tenPercent) (s := referredVm)
  (r := payingRun 1 10000 ++ payingRun 2 10000) (P := fun _ => True) (by decide +kernel)
 exact ⟨s', hrun, reservation_sent_once referredVm_start hrun⟩

/-- Two runs that take turns pay the ten satoshi twice, and a wallet that asks for fifty satoshi gets them. -/
theorem earnings_paid_twice :
  (∃ s', Run (step tenPercent) referredVm [.start 1, .start 2, .advance 1 {}, .advance 1 {}, .advance 2 {},
    .advance 2 {}, .advance 1 {}, .advance 2 {}, .advance 1 { paid := some ⟨10000, 0⟩ },
    .advance 2 { paid := some ⟨10000, 0⟩ }] s' ∧ s'.sentTo 1 = 20000 ∧ earnings tenPercent s'.t 1 = 10000) ∧
  ∃ s', Run (step tenPercent) referredVm (payingRun 1 50000) s' ∧ s'.sentTo 1 = 50000 ∧
   earnings tenPercent s'.t 1 = 10000 :=
 ⟨Run.exists_of_exec (by decide +kernel), Run.exists_of_exec (by decide +kernel)⟩

end ReferralPayouts

end Lnvps
