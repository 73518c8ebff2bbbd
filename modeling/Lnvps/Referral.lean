import Lnvps.Database
import Lnvps.Lib.Run
import Lnvps.Lib.Total

/-! # Referral payouts -/

namespace Lnvps

open Table List

inductive ReferralPayoutMode
 | lightningAddress
 | nwc
 | accountCredit
 | onChain
 deriving DecidableEq

structure Referral where
 id : Nat
 code : String
 address : Option String := none
 mode : ReferralPayoutMode := .lightningAddress
 referralRate : Option Rat := none
 payoutThreshold : Option Nat := none

structure ReferralPayout where
 (id referralId amount : Nat)
 fee : Nat := 0
 currency : Currency := .btc
 isPaid : Bool := false
 mode : ReferralPayoutMode := .lightningAddress

structure ReferralCostUsage where
 (vmId amount : Nat)
 currency : Currency
 effectiveRate : Rat

structure ReferralDb where
 db : Db := {}
 referrals : List Referral := []
 payouts : List ReferralPayout := []
 nextId : Nat := 1

namespace ReferralDb

variable (t : ReferralDb)

def firstPayment (vm : Vm) : Option SubscriptionPayment := do
 let sli ← t.db.getSubscriptionLineItem vm.subscriptionLineItemId
 if sli.subscriptionType = .vps then
  ((t.db.payments.filter fun sp => sp.subscriptionId = sli.subscriptionId ∧ sp.isPaid).insertionSort
   fun p q => p.created ≤ q.created).head?
 else none

def listReferralUsage (code : String) : List ReferralCostUsage :=
 (t.db.vms.filter fun vm => vm.refCode = some code).filterMap fun vm => do
  let sp ← t.firstPayment vm
  let host ← t.db.getHost vm.hostId
  let company ← t.db.getCompany host.companyId
  let referral := lookup (·.code) code t.referrals
  some {
   vmId := vm.id
   amount := sp.amount
   currency := sp.currency
   effectiveRate := (referral.bind (·.referralRate)).getD company.referralRate }

def listReferralPayouts (referralId : Nat) : List ReferralPayout :=
 t.payouts.filter fun p => p.referralId = referralId

def insertReferralPayout (payout : ReferralPayout) : ReferralDb × Nat :=
 ({ t with payouts := t.payouts ++ [{ payout with id := t.nextId }], nextId := t.nextId + 1 }, t.nextId)

def updateReferralPayout (payout : ReferralPayout) : ReferralDb := { t with
 payouts := updateWhere (fun p => p.id = payout.id)
  (fun p => { p with isPaid := payout.isPaid, mode := payout.mode, fee := payout.fee }) t.payouts }

def deleteReferralPayout (payoutId : Nat) : ReferralDb := { t with
 payouts := t.payouts.filter fun p => p.id ≠ payoutId }

end ReferralDb

structure PayoutConfig where
 (minPayoutMsat minOnchainPayoutMsat : Option Nat := none)
 maxOnchainFeePerVbyte : Nat := 0
 commission : (amount : Nat) → (rate : Rat) → Nat

def effectiveMinMsat (referral : Referral) (systemMinMsat : Nat) : Nat :=
 match referral.payoutThreshold with
 | some sats => max (sats * 1000) systemMinMsat
 | none => systemMinMsat

def payableReferralMsat (earnedMsat existingMsat minMsat : Nat) : Option Nat :=
 let owed := earnedMsat - existingMsat
 if owed < minMsat then none
 else
  let payMsat := owed / 1000 * 1000
  if payMsat = 0 then none else some payMsat

def splitFeeProportional (amounts : List Nat) (totalFee : Nat) : List Nat :=
 if amounts.sum = 0 ∨ totalFee = 0 then amounts.map fun _ => 0
 else
  let shares := amounts.map fun a => a * totalFee / amounts.sum
  let largest := amounts.foldl max 0
  let idx := amounts.length - 1 - amounts.reverse.idxOf largest
  shares.modify idx (· + (totalFee - shares.sum))

section Fee

variable {amounts : List Nat} {totalFee : Nat}

private theorem sum_shares_mul_le (d : Nat) :
  (amounts.map fun a => a * totalFee / d).sum * d ≤ amounts.sum * totalFee := by
 induction amounts with
 | nil => simp
 | cons a amounts ih =>
  have hhead : a * totalFee / d * d ≤ a * totalFee := Nat.div_mul_le_self _ _
  simp only [map_cons, sum_cons, Nat.add_mul]
  omega

private theorem sum_modify_add {l : List Nat} {i c : Nat} (h : i < l.length) :
  (l.modify i (· + c)).sum = l.sum + c := by
 induction l generalizing i with
 | nil => cases h
 | cons a l ih =>
  cases i with
  | zero =>
   simp only [modify_zero_cons, sum_cons]
   omega
  | succ i =>
   have hrest := ih (Nat.lt_of_succ_lt_succ h)
   simp only [modify_succ_cons, sum_cons, hrest]
   omega

theorem splitFeeProportional_sum (h : amounts.sum ≠ 0) : (splitFeeProportional amounts totalFee).sum = totalFee := by
 unfold splitFeeProportional
 by_cases hfee : totalFee = 0
 · simp [hfee]
 rw [if_neg (by simp [h, hfee])]
 have hlen : 0 < amounts.length := by
  rcases amounts with _ | ⟨a, amounts⟩
  · simp at h
  · simp
 have hfloor : (amounts.map fun a => a * totalFee / amounts.sum).sum ≤ totalFee := by
  have hmul : (amounts.map fun a => a * totalFee / amounts.sum).sum * amounts.sum ≤ amounts.sum * totalFee :=
   sum_shares_mul_le _
  rw [Nat.mul_comm amounts.sum] at hmul
  exact Nat.le_of_mul_le_mul_right hmul (Nat.pos_of_ne_zero h)
 rw [sum_modify_add (by rw [length_map]; omega)]
 omega

end Fee

namespace ReferralDb

def earnedMsat (cfg : PayoutConfig) (t : ReferralDb) (code : String) : Nat :=
 total (fun u => u.currency = .btc) (fun u => cfg.commission u.amount u.effectiveRate) (t.listReferralUsage code)

def existingMsat (t : ReferralDb) (referralId : Nat) : Nat :=
 total (fun p => p.currency = .btc) (fun p => p.amount + p.fee) (t.listReferralPayouts referralId)

end ReferralDb

def Referral.payoutAddress (r : Referral) : Option String := r.address.filter fun a => !a.toList.all Char.isWhitespace

def Referral.canInvoice (r : Referral) : Bool :=
 match r.mode with
 | .lightningAddress => r.payoutAddress.isSome
 | .nwc => true
 | .accountCredit | .onChain => false

structure EligiblePayout where
 referral : Referral
 payMsat : Nat

structure ReservedPayout where
 payoutId : Nat
 referral : Referral
 payMsat : Nat

inductive Phase
 | next (todo : List Referral)
 | earned (referral : Referral) (earnedMsat : Nat) (todo : List Referral)
 | reserve (referral : Referral) (payMsat : Nat) (todo : List Referral)
 | pay (referral : Referral) (payout : ReferralPayout) (todo : List Referral)
 | record (payout : ReferralPayout) (todo : List Referral)
 | release (payoutId : Nat) (todo : List Referral)
 | select (todo : List Referral) (eligible : List EligiblePayout)
 | selectEarned (referral : Referral) (earnedMsat : Nat) (todo : List Referral) (eligible : List EligiblePayout)
 | feeRate (eligible : List EligiblePayout)
 | reserveBatch (todo : List EligiblePayout) (reserved : List ReservedPayout)
 | send (reserved : List ReservedPayout)
 | recordBatch (payouts : List ReferralPayout)
 | releaseBatch (payoutIds : List Nat)
 | done

structure PayoutRun where
 id : Nat
 referrals : List Referral
 phase : Phase

structure PaidInvoice where
 (amount fee : Nat)

structure Answer where
 dbFails : Bool := false
 paid : Option PaidInvoice := none
 (feeRate broadcast : Option Nat := none)

structure SentPayout where
 (payoutId referralId amount : Nat)

variable (cfg : PayoutConfig)

def onchainPass (referrals : List Referral) : Phase :=
 if cfg.minOnchainPayoutMsat.isSome then .select referrals [] else .done

def firstPhase (referrals : List Referral) : Phase :=
 if cfg.minPayoutMsat.isSome then .next referrals else onchainPass cfg referrals

def reservation (referral : Referral) (payMsat : Nat) : ReferralPayout where
 id := 0
 referralId := referral.id
 amount := payMsat
 mode := referral.mode

def batchRows (reserved : List ReservedPayout) (totalFee : Nat) : List ReferralPayout :=
 (reserved.zip (splitFeeProportional (reserved.map (·.payMsat)) totalFee)).map fun (r, fee) =>
  { id := r.payoutId, referralId := r.referral.id, amount := r.payMsat, fee, isPaid := true, mode := .onChain }

def advance (t : ReferralDb) (a : Answer) (referrals : List Referral) :
  Phase → ReferralDb × List SentPayout × Phase
 | .next [] => (t, [], onchainPass cfg referrals)
 | .next (r :: todo) =>
  if r.mode = .onChain ∨ a.dbFails then (t, [], .next todo)
  else (t, [], .earned r (t.earnedMsat cfg r.code) todo)
 | .earned r earned todo =>
  if a.dbFails then (t, [], .next todo)
  else
   match payableReferralMsat earned (t.existingMsat r.id) (effectiveMinMsat r (cfg.minPayoutMsat.getD 0)) with
   | none => (t, [], .next todo)
   | some payMsat => (t, [], .reserve r payMsat todo)
 | .reserve r payMsat todo =>
  if a.dbFails then (t, [], .next todo)
  else
   let payout := reservation r payMsat
   let (t', payoutId) := t.insertReferralPayout payout
   (t', [], .pay r { payout with id := payoutId } todo)
 | .pay r payout todo =>
  match if r.canInvoice then a.paid else none with
  | some paid => (t, [⟨payout.id, payout.referralId, paid.amount⟩],
    .record { payout with isPaid := true, fee := paid.fee } todo)
  | none => (t, [], .release payout.id todo)
 | .record payout todo => (if a.dbFails then t else t.updateReferralPayout payout, [], .next todo)
 | .release payoutId todo => (if a.dbFails then t else t.deleteReferralPayout payoutId, [], .next todo)
 | .select [] eligible => (t, [], if eligible.isEmpty then .done else .feeRate eligible)
 | .select (r :: todo) eligible =>
  if r.mode ≠ .onChain ∨ r.payoutAddress = none ∨ a.dbFails then (t, [], .select todo eligible)
  else (t, [], .selectEarned r (t.earnedMsat cfg r.code) todo eligible)
 | .selectEarned r earned todo eligible =>
  if a.dbFails then (t, [], .select todo eligible)
  else
   match payableReferralMsat earned (t.existingMsat r.id)
     (effectiveMinMsat r (cfg.minOnchainPayoutMsat.getD 0)) with
   | none => (t, [], .select todo eligible)
   | some payMsat => (t, [], .select todo (eligible ++ [⟨r, payMsat⟩]))
 | .feeRate eligible =>
  match a.feeRate with
  | none => (t, [], .done)
  | some rate => (t, [], if rate > cfg.maxOnchainFeePerVbyte then .done else .reserveBatch eligible [])
 | .reserveBatch [] reserved => (t, [], .send reserved)
 | .reserveBatch (e :: todo) reserved =>
  if a.dbFails then (t, [], .done)
  else
   let (t', payoutId) := t.insertReferralPayout { reservation e.referral e.payMsat with mode := .onChain }
   (t', [], .reserveBatch todo (reserved ++ [⟨payoutId, e.referral, e.payMsat⟩]))
 | .send reserved =>
  match a.broadcast with
  | some totalFee => (t, reserved.map fun r => ⟨r.payoutId, r.referral.id, r.payMsat⟩,
    .recordBatch (batchRows reserved totalFee))
  | none => (t, [], .releaseBatch (reserved.map (·.payoutId)))
 | .recordBatch [] => (t, [], .done)
 | .recordBatch (payout :: rest) => (if a.dbFails then t else t.updateReferralPayout payout, [], .recordBatch rest)
 | .releaseBatch [] => (t, [], .done)
 | .releaseBatch (payoutId :: rest) =>
  (if a.dbFails then t else t.deleteReferralPayout payoutId, [], .releaseBatch rest)
 | .done => (t, [], .done)

structure ReferralPayouts where
 t : ReferralDb
 runs : List PayoutRun := []
 sent : List SentPayout := []

namespace ReferralPayouts

inductive Label
 | start (id : Nat)
 | advance (id : Nat) (answer : Answer)
 | crash (id : Nat)
 | world (db : Db) (referrals : List Referral)

def step (cfg : PayoutConfig) (s : ReferralPayouts) : Label → Option ReferralPayouts
 | .start id =>
  if s.runs.all fun run => run.id ≠ id then
   some { s with runs := s.runs ++ [⟨id, s.t.referrals, firstPhase cfg s.t.referrals⟩] }
  else none
 | .advance id answer => do
  let run ← lookup (·.id) id s.runs
  let (t, sent, phase) := Lnvps.advance cfg s.t answer run.referrals run.phase
  some {
   t
   runs := updateWhere (fun r => r.id = id) (fun r => { r with phase }) s.runs
   sent := s.sent ++ sent }
 | .crash id => some { s with runs := s.runs.filter fun r => r.id ≠ id }
 | .world db referrals =>
  if Keyed (·.id) referrals ∧ s.t.referrals.all fun r => referrals.any fun r' => r'.id = r.id then
   some { s with t := { s.t with db, referrals } }
  else none

def earnings (cfg : PayoutConfig) (t : ReferralDb) (referralId : Nat) : Nat :=
 ((lookup (·.id) referralId t.referrals).map fun r => t.earnedMsat cfg r.code).getD 0

def sentTo (s : ReferralPayouts) (referralId : Nat) : Nat :=
 total (fun e => e.referralId = referralId) (·.amount) s.sent

end ReferralPayouts

end Lnvps
