import Lnvps.Lib.Total
import Lnvps.Reports

/-! # What the reports add up to -/

namespace Lnvps.Reports

open Table Outcome Tally List Option

def isRead (startDate endDate t : Int) : Bool := startOf startDate ≤ t ∧ t < endOf endDate

def onDays (startDate endDate t : Int) : Bool := startOf startDate ≤ t ∧ t < startOf (endDate + 1)

namespace ReportDb

variable (db : ReportDb)

def isOf (companyId : Nat) (sp : VatPayment) : Bool :=
 (lookup (·.id) sp.subscriptionId db.subscriptions).any fun s => s.companyId = companyId

def copies (companyId : Nat) (sp : VatPayment) : Nat := ((db.rowsOf sp).filter fun r => r.companyId = companyId).length

def booked (companyId : Nat) (startDate endDate : Int) (net : VatPayment → Option Nat) : List (VatPayment × Nat) :=
 (db.adminGetPaymentsWithCompanyInfo (startOf startDate) (endOf endDate) companyId none).filterMap fun r =>
  (net r.payment).map fun n => (r.payment, n)

def due (companyId : Nat) (startDate endDate : Int) (kind : VatPayment → Bool) : List (VatPayment × Nat) :=
 (db.payments.filter fun sp =>
  sp.isPaid ∧ db.isOf companyId sp ∧ onDays startDate endDate sp.created ∧ kind sp).map fun sp => (sp, sp.amount)

end ReportDb

variable (sp : VatPayment)

def revenueNet : Option Nat := some (sp.amount - sp.tax)

def declaredNet (lines : List TaxLine) : Nat := total (fun l => l.countryCode.isSome) (·.net) lines

def ossNet : Option Nat := (ossLines sp).map declaredNet

def whollyOss : Bool :=
 match sp.taxBreakdown with
 | some none => false
 | some (some lines) => (lines.all fun l => l.treatment = .ossB2c) && (lines.map (·.net)).sum = sp.amount
 | none => sp.taxTreatment = some TaxTreatment.ossB2c.asStr

section Query

variable {db : ReportDb} {companyId : Nat} {startDate endDate : Int} {sp : VatPayment}

variable {r : SubscriptionPaymentWithCompany} {net : VatPayment → Option Nat} {b : VatPayment × Nat} {middle : Int}

theorem joinCompany_payment {s : Subscription} {vm : Option Vm}
  (h : db.joinCompany sp s vm = some r) : r.payment = sp := by
 unfold ReportDb.joinCompany at h
 obtain ⟨company, -, hrow⟩ := bind_eq_some_iff.mp h
 rw [← some.inj hrow]

theorem payment_of_mem_rowsOf (h : r ∈ db.rowsOf sp) : r.payment = sp := by
 unfold ReportDb.rowsOf at h
 obtain ⟨s, -, hrow⟩ := mem_flatMap.mp h
 obtain ⟨vm, -, hjoin⟩ := mem_filterMap.mp hrow
 exact joinCompany_payment hjoin

def bookedFor (db : ReportDb) (companyId : Nat) (startDate endDate : Int) (net : VatPayment → Option Nat)
  (sp : VatPayment) : List (VatPayment × Nat) :=
 if isRead startDate endDate sp.created ∧ sp.isPaid then
  (net sp).toList.flatMap fun n => List.replicate (db.copies companyId sp) (sp, n)
 else []

theorem booked_perm (db : ReportDb) (companyId : Nat) (startDate endDate : Int) (net : VatPayment → Option Nat) :
  (db.booked companyId startDate endDate net).Perm
   (db.payments.flatMap (bookedFor db companyId startDate endDate net)) := by
 unfold ReportDb.booked ReportDb.adminGetPaymentsWithCompanyInfo
 refine ((perm_insertionSort _ _).filterMap _).trans (.of_eq ?_)
 rw [filterMap_flatMap]
 refine flatMap_congr fun sp _ => ?_
 have hread : (startOf startDate ≤ sp.created ∧ sp.created < endOf endDate ∧ sp.isPaid = true ∧
   (none : Option Currency).all (fun c => c = sp.currency) = true) ↔
   (isRead startDate endDate sp.created = true ∧ sp.isPaid = true) := by
  simp [isRead, and_assoc]
 unfold bookedFor
 by_cases h : isRead startDate endDate sp.created = true ∧ sp.isPaid = true
 · rw [if_pos (hread.mpr h), if_pos h]
   have hrows : ∀ rows : List SubscriptionPaymentWithCompany, (∀ r ∈ rows, r.payment = sp) →
     rows.filterMap (fun r => (net r.payment).map fun n => (r.payment, n)) =
      (net sp).toList.flatMap fun n => List.replicate rows.length (sp, n) := by
    intro rows hall
    induction rows with
    | nil => cases net sp <;> rfl
    | cons r rows ih =>
     obtain ⟨hr, hrest⟩ := forall_mem_cons.mp hall
     rw [filterMap_cons, hr, ih hrest]
     cases net sp <;> simp [replicate_succ]
   exact hrows _ fun r hr => payment_of_mem_rowsOf (mem_of_mem_filter hr)
 · rw [if_neg fun hc => h (hread.mp hc), if_neg h]
   rfl

theorem fst_of_mem_bookedFor
  (h : b ∈ bookedFor db companyId startDate endDate net sp) : b.1 = sp := by
 unfold bookedFor at h
 split at h
 · obtain ⟨n, -, hb⟩ := mem_flatMap.mp h
   rw [eq_of_mem_replicate hb]
 · exact absurd h not_mem_nil

theorem paid_of_mem_booked
  (h : b ∈ db.booked companyId startDate endDate net) : b.1 ∈ db.payments ∧ b.1.isPaid = true := by
 obtain ⟨sp, hsp, hb⟩ := mem_flatMap.mp ((booked_perm db companyId startDate endDate net).mem_iff.mp h)
 rw [fst_of_mem_bookedFor hb]
 unfold bookedFor at hb
 split at hb
 · rename_i hread
   exact ⟨hsp, hread.2⟩
 · exact absurd hb not_mem_nil

def CountedOnce (db : ReportDb) (companyId : Nat) (startDate endDate : Int) (sp : VatPayment) (amountOk : Prop) :
  Prop :=
 (db.isOf companyId sp = true → onDays startDate endDate sp.created = true →
   sp.created < endOf endDate ∧ db.copies companyId sp = 1 ∧ amountOk) ∧
  (db.isOf companyId sp = false → isRead startDate endDate sp.created = true → db.copies companyId sp = 0)

theorem isRead_iff {t : Int} :
  isRead startDate endDate t = true ↔ onDays startDate endDate t = true ∧ t < endOf endDate := by
 unfold isRead onDays
 rw [decide_eq_true_eq, decide_eq_true_eq]
 unfold startOf endOf day second
 omega

theorem bookedFor_perm_iff {n : Nat} (hnet : net sp = some n)
  (hpaid : sp.isPaid = true) :
  (bookedFor db companyId startDate endDate net sp).Perm
    (if db.isOf companyId sp = true ∧ onDays startDate endDate sp.created = true then [(sp, sp.amount)] else []) ↔
   CountedOnce db companyId startDate endDate sp (n = sp.amount) := by
 have hbooked : bookedFor db companyId startDate endDate net sp =
   if isRead startDate endDate sp.created = true then List.replicate (db.copies companyId sp) (sp, n) else [] := by
  simp [bookedFor, hnet, hpaid]
 rw [hbooked]
 unfold CountedOnce
 have hread : isRead startDate endDate sp.created = true ↔
   onDays startDate endDate sp.created = true ∧ sp.created < endOf endDate := isRead_iff
 by_cases hof : db.isOf companyId sp = true
 · by_cases hdays : onDays startDate endDate sp.created = true
   · by_cases hlast : sp.created < endOf endDate
     · rw [if_pos (hread.mpr ⟨hdays, hlast⟩), if_pos ⟨hof, hdays⟩, perm_singleton]
       have hone : List.replicate (db.copies companyId sp) (sp, n) = [(sp, sp.amount)] ↔
         db.copies companyId sp = 1 ∧ n = sp.amount := by
        constructor
        · intro heq
          have hlen := congrArg List.length heq
          rw [length_replicate, length_singleton] at hlen
          rw [hlen] at heq
          exact ⟨hlen, congrArg Prod.snd (singleton_inj.mp heq)⟩
        · rintro ⟨hlen, rfl⟩
          rw [hlen]
          rfl
       rw [hone]
       simp [hof, hdays, hlast]
     · simp [hof, hdays, hread, hlast]
   · simp [hof, hdays, hread]
 · by_cases hdays : isRead startDate endDate sp.created = true
   · simp [hof, hdays, perm_nil]
   · simp [hof, hdays]

theorem bookedFor_unpaid (hpaid : sp.isPaid = false) : bookedFor db companyId startDate endDate net sp = [] := by
 simp [bookedFor, hpaid]

theorem due_eq (kind : VatPayment → Bool) : db.due companyId startDate endDate kind = db.payments.flatMap fun sp =>
  if sp.isPaid = true ∧ kind sp = true then
   if db.isOf companyId sp = true ∧ onDays startDate endDate sp.created = true then [(sp, sp.amount)] else []
  else [] := by
 unfold ReportDb.due
 induction db.payments with
 | nil => rfl
 | cons sp payments ih =>
  rw [flatMap_cons, ← ih, filter_cons]
  by_cases hpaid : sp.isPaid = true ∧ kind sp = true
  · by_cases hdue : db.isOf companyId sp = true ∧ onDays startDate endDate sp.created = true
    · simp [hpaid, hdue]
    · simp only [hpaid, and_self, if_true, if_neg hdue, nil_append, true_and, and_true, Bool.decide_and,
       Bool.and_eq_true, Bool.decide_eq_true]
  · rw [if_neg hpaid, if_neg (by simp only [decide_eq_true_eq]; tauto), nil_append]

theorem booked_perm_due_iff (hkeyed : Keyed (·.id) db.payments) (kind : VatPayment → Bool)
  (hnet : ∀ sp ∈ db.payments, kind sp = true → (net sp).isSome = true) :
  ((db.booked companyId startDate endDate net).filter fun b => kind b.1).Perm
    (db.due companyId startDate endDate kind) ↔
   ∀ sp ∈ db.payments, sp.isPaid = true → kind sp = true →
    CountedOnce db companyId startDate endDate sp (net sp = some sp.amount) := by
 have hfilter : ∀ sp, (bookedFor db companyId startDate endDate net sp).filter (fun b => kind b.1) =
   if sp.isPaid = true ∧ kind sp = true then bookedFor db companyId startDate endDate net sp else [] := by
  intro sp
  split
  · rename_i h
    refine filter_eq_self.mpr fun b hb => ?_
    rw [fst_of_mem_bookedFor hb]
    exact h.2
  rename_i h
  by_cases hpaid : sp.isPaid = true
  · refine filter_eq_nil_iff.mpr fun b hb => ?_
    rw [fst_of_mem_bookedFor hb]
    exact fun hkind => h ⟨hpaid, hkind⟩
  · rw [bookedFor_unpaid (Bool.not_eq_true _ ▸ hpaid), filter_nil]
 have hbooked : ((db.booked companyId startDate endDate net).filter fun b => kind b.1).Perm
   (db.payments.flatMap fun sp => if sp.isPaid = true ∧ kind sp = true then
    bookedFor db companyId startDate endDate net sp else []) := by
  refine ((booked_perm db companyId startDate endDate net).filter _).trans (.of_eq ?_)
  rw [filter_flatMap]
  exact flatMap_congr fun sp _ => hfilter sp
 rw [due_eq, hbooked.congr_left, flatMap_perm_iff hkeyed.of_map]
 · refine forall₂_congr fun sp hsp => ?_
   by_cases h : sp.isPaid = true ∧ kind sp = true
   · obtain ⟨n, hn⟩ := isSome_iff_exists.mp (hnet sp hsp h.2)
     rw [if_pos h, if_pos h, bookedFor_perm_iff hn h.1, hn, some.injEq]
     simp [h.1, h.2]
   · rw [if_neg h, if_neg h]
     simp only [List.Perm.refl, true_iff]
     exact fun hpaid hkind => absurd ⟨hpaid, hkind⟩ h
 · intro sp _ b hb
   split at hb
   · exact fst_of_mem_bookedFor hb
   · exact absurd hb not_mem_nil
 · intro sp _ b hb
   split at hb
   · split at hb
     · rw [mem_singleton.mp hb]
     · exact absurd hb not_mem_nil
   · exact absurd hb not_mem_nil

def contribution (db : ReportDb) (companyId : Nat) (net : VatPayment → Option Nat) (sp : VatPayment) : Nat :=
 db.copies companyId sp * (net sp).getD 0

variable (net : VatPayment → Option Nat)

theorem sum_bookedFor (sp : VatPayment) :
  ((bookedFor db companyId startDate endDate net sp).map (·.2)).sum =
   if sp.isPaid && isRead startDate endDate sp.created then contribution db companyId net sp else 0 := by
 unfold bookedFor contribution
 by_cases h : isRead startDate endDate sp.created = true ∧ sp.isPaid = true
 · rw [if_pos h, if_pos (by rw [h.1, h.2]; rfl)]
   cases net sp <;> simp
 · rw [if_neg h, if_neg (by rw [Bool.and_eq_true]; exact fun hc => h hc.symm)]
   rfl

theorem sum_booked (db : ReportDb) (companyId : Nat) (startDate endDate : Int) (net : VatPayment → Option Nat) :
  ((db.booked companyId startDate endDate net).map (·.2)).sum =
   total (fun sp => sp.isPaid && isRead startDate endDate sp.created) (contribution db companyId net)
    db.payments := by
 rw [((booked_perm db companyId startDate endDate net).map _).sum_eq]
 induction db.payments with
 | nil => rfl
 | cons sp payments ih =>
  rw [flatMap_cons, map_append, sum_append, ih, sum_bookedFor, total_cons]

def inLastSecond (date t : Int) : Bool := endOf date ≤ t ∧ t < startOf (date + 1)

theorem isRead_adjacent (h1 : startDate ≤ middle) (h2 : middle < endDate) (t : Int) :
  (isRead startDate endDate t).toNat = (isRead startDate middle t).toNat + (isRead (middle + 1) endDate t).toNat +
   (inLastSecond middle t).toNat := by
 simp only [isRead, inLastSecond, Bool.toNat, Bool.cond_decide]
 unfold startOf endOf day second
 split_ifs <;> omega

theorem sum_booked_adjacent (db : ReportDb) (companyId : Nat) (net : VatPayment → Option Nat)
  (h1 : startDate ≤ middle) (h2 : middle < endDate) :
  ((db.booked companyId startDate endDate net).map (·.2)).sum =
   ((db.booked companyId startDate middle net).map (·.2)).sum +
    ((db.booked companyId (middle + 1) endDate net).map (·.2)).sum +
    total (fun sp => sp.isPaid && inLastSecond middle sp.created) (contribution db companyId net) db.payments := by
 simp only [sum_booked, total_eq_sum_toNat]
 rw [← sum_map_add, ← sum_map_add]
 refine congrArg List.sum (map_congr_left fun sp _ => ?_)
 rw [← Nat.add_mul, ← Nat.add_mul]
 cases sp.isPaid with
 | false => simp only [Bool.false_and, Bool.toNat_false]
 | true =>
  rw [Bool.true_and, isRead_adjacent h1 h2]
  rfl

def NothingInLastSecond (db : ReportDb) (companyId : Nat) (date : Int) (net : VatPayment → Option Nat) : Prop :=
 ∀ sp ∈ db.payments, sp.isPaid = true → inLastSecond date sp.created = true →
  db.copies companyId sp = 0 ∨ (net sp).getD 0 = 0

theorem booked_adjacent_iff (h1 : startDate ≤ middle) (h2 : middle < endDate) :
  ((db.booked companyId startDate endDate net).map (·.2)).sum =
    ((db.booked companyId startDate middle net).map (·.2)).sum +
     ((db.booked companyId (middle + 1) endDate net).map (·.2)).sum ↔
   NothingInLastSecond db companyId middle net := by
 rw [sum_booked_adjacent db companyId net h1 h2, Nat.add_eq_left, total_eq_zero_iff]
 unfold NothingInLastSecond contribution
 refine forall₂_congr fun sp _ => ?_
 rw [Bool.and_eq_true, and_imp, Nat.mul_eq_zero]

end Query

section Totals

variable {db : ReportDb} {startDate endDate : Int}

theorem saturatingAdd_eq {a b : Nat} (h : a + b ≤ 2 ^ 64 - 1) : saturatingAdd a b = a + b := by
 unfold saturatingAdd
 omega

theorem sum_plEntry (key : String) (acc : List (String × PlAccumulator)) {f : PlAccumulator → PlAccumulator}
  (hf : ∀ e, (f e).revenueNet = e.revenueNet) : sum (·.revenueNet) (plEntry key f acc) = sum (·.revenueNet) acc := by
 unfold plEntry
 rw [sum_entry {} PlAccumulator.revenueNet 0 rfl (fun e _ => hf e) key, Nat.add_zero]

theorem sum_addCost (groupByYear : Bool) (regionId : Nat) (target : Currency) (rates : Currency → Option ℚ)
  (acc : List (String × PlAccumulator)) (c : ResourceCost) :
  sum (·.revenueNet) (addCost db startDate endDate groupByYear regionId target rates acc c) =
   sum (·.revenueNet) acc := by
 unfold addCost
 split
 · rfl
 split
 · rfl
 split
 · split
   · split
     · exact sum_plEntry _ _ fun _ => rfl
     · rfl
   · rfl
 · split
   · induction monthsBetween startDate endDate generalizing acc with
     | nil => rfl
     | cons month months ih =>
      rw [foldl_cons, ih]
      unfold addRecurring
      dsimp only
      split
      · exact sum_plEntry _ _ fun _ => rfl
      · rfl
   · rfl

theorem sum_plAccumulators (groupByYear : Bool) (companyId regionId : Nat) (target : Currency)
  (rates : Currency → Option ℚ)
  (h : ((revenueBookings db startDate endDate companyId regionId target rates).map (·.net)).sum ≤ 2 ^ 64 - 1) :
  sum (·.revenueNet) (plAccumulators db startDate endDate groupByYear companyId regionId target rates) =
   ((revenueBookings db startDate endDate companyId regionId target rates).map (·.net)).sum := by
 unfold plAccumulators
 have hrevenue : sum (·.revenueNet) ((revenueBookings db startDate endDate companyId regionId target rates).foldl
   (addRevenue groupByYear) []) =
    ((revenueBookings db startDate endDate companyId regionId target rates).map (·.net)).sum :=
  (sum_foldl PlAccumulator.revenueNet [] (fun b : RevenueBooking => periodKey b.payment.created groupByYear) (·.net)
   rfl (fun _ _ _ hv => saturatingAdd_eq hv) ((Nat.zero_add _).trans_le h)).trans (Nat.zero_add _)
 rw [← hrevenue]
 generalize (revenueBookings db startDate endDate companyId regionId target rates).foldl (addRevenue groupByYear) [] =
  acc
 induction db.adminListResourceCostsActiveBetween (startOf startDate) (endOf endDate) generalizing acc with
 | nil => rfl
 | cons c costs ih => rw [foldl_cons, ih, sum_addCost]

theorem sum_perPayment (bimonthly : Bool) (p : SubscriptionPaymentWithCompany) (lines : List TaxLine)
  (h : ((lines.filterMap (bookLine bimonthly p)).map (·.2.1)).sum ≤ 2 ^ 64 - 1) :
  sum (·.1) (perPayment bimonthly p lines) = ((lines.filterMap (bookLine bimonthly p)).map (·.2.1)).sum :=
 (sum_foldl Prod.fst [] (fun b : OssKey × Nat × Nat => b.1) (·.2.1) rfl (fun _ _ _ hv => saturatingAdd_eq hv)
  ((Nat.zero_add _).trans_le h)).trans (Nat.zero_add _)

def rowNet (bimonthly : Bool) (row : SubscriptionPaymentWithCompany × List TaxLine) : Nat :=
 ((row.2.filterMap (bookLine bimonthly row.1)).map (·.2.1)).sum

theorem sum_ossAccumulators (companyId : Nat) (bimonthly : Bool)
  (h : ((ossRows db startDate endDate companyId).map (rowNet bimonthly)).sum ≤ 2 ^ 64 - 1) :
  sum (·.netTotal) (ossAccumulators db startDate endDate companyId bimonthly) =
   ((ossRows db startDate endDate companyId).map (rowNet bimonthly)).sum := by
 unfold ossAccumulators
 have hfold : ∀ (rows : List (SubscriptionPaymentWithCompany × List TaxLine)) (acc : List (OssKey × OssAcc)),
   sum OssAcc.netTotal acc + (rows.map (rowNet bimonthly)).sum ≤ 2 ^ 64 - 1 →
    sum OssAcc.netTotal
      (rows.foldl (fun acc row => (perPayment bimonthly row.1 row.2).foldl (addOss row.1) acc) acc) =
     sum OssAcc.netTotal acc + (rows.map (rowNet bimonthly)).sum := by
  intro rows
  induction rows with
  | nil => exact fun acc _ => rfl
  | cons row rows ih =>
   intro acc hbound
   obtain ⟨p, lines⟩ := row
   rw [List.map_cons, List.sum_cons] at hbound ⊢
   have hrow : sum (·.1) (perPayment bimonthly p lines) = rowNet bimonthly (p, lines) :=
    sum_perPayment bimonthly p lines (by unfold rowNet at hbound; dsimp only at hbound; omega)
   have hadd : sum OssAcc.netTotal ((perPayment bimonthly p lines).foldl (addOss p) acc) =
     sum OssAcc.netTotal acc + rowNet bimonthly (p, lines) := by
    rw [← hrow]
    exact sum_foldl OssAcc.netTotal acc (fun b : OssKey × Nat × Nat => b.1) (·.2.1) rfl
     (fun _ _ _ hv => saturatingAdd_eq hv) (by
      change sum OssAcc.netTotal acc + sum (·.1) (perPayment bimonthly p lines) ≤ 2 ^ 64 - 1
      rw [hrow]
      omega)
   rw [foldl_cons, ih _ (by rw [hadd]; omega), hadd]
   omega
 exact (hfold _ [] ((Nat.zero_add _).trans_le h)).trans (Nat.zero_add _)

end Totals

structure InOneCurrency (db : ReportDb) (company : CompanyRow) : Prop where
 keyed : Keyed (·.id) db.payments
 id_ne_zero : company.id ≠ 0
 lookup_company : lookup (·.id) company.id db.companies = some company
 currency : ∀ sp ∈ db.payments, sp.isPaid = true → sp.currency = company.baseCurrency

namespace InOneCurrency

variable {db : ReportDb} {company : CompanyRow} {startDate endDate : Int}

theorem currency_of_mem (hone : InOneCurrency db company) {r : SubscriptionPaymentWithCompany}
  (h : r ∈ db.adminGetPaymentsWithCompanyInfo (startOf startDate) (endOf endDate) company.id none) :
  r.companyBaseCurrency = company.baseCurrency ∧ r.payment.currency = company.baseCurrency := by
 unfold ReportDb.adminGetPaymentsWithCompanyInfo at h
 obtain ⟨sp, hsp, hr⟩ := mem_flatMap.mp ((mem_insertionSort _).mp h)
 split at hr
 · rename_i hcond
   obtain ⟨hrow, hid⟩ := mem_filter.mp hr
   have hpayment := payment_of_mem_rowsOf hrow
   unfold ReportDb.rowsOf at hrow
   obtain ⟨s, -, hrow⟩ := mem_flatMap.mp hrow
   obtain ⟨vm, -, hjoin⟩ := mem_filterMap.mp hrow
   unfold ReportDb.joinCompany at hjoin
   obtain ⟨c, hc, hmk⟩ := bind_eq_some_iff.mp hjoin
   cases hmk
   have hcid : c.id = company.id := of_decide_eq_true hid
   have hkey : c.id = _ := key_of_lookup hc
   rw [← hkey, hcid, hone.lookup_company] at hc
   cases hc
   exact ⟨rfl, hone.currency sp hsp hcond.2.2.1⟩
 · exact absurd hr not_mem_nil

theorem companyIds (hone : InOneCurrency db company) : db.companyIds company.id = [company.id] :=
 if_pos hone.id_ne_zero

theorem sum_revenueBookings (hone : InOneCurrency db company) (rates : Currency → Option ℚ) :
  ((revenueBookings db startDate endDate company.id 0 company.baseCurrency rates).map (·.net)).sum =
   ((db.booked company.id startDate endDate revenueNet).map (·.2)).sum := by
 unfold revenueBookings ReportDb.booked
 rw [hone.companyIds, flatMap_singleton, map_filterMap, map_filterMap]
 refine congrArg List.sum (filterMap_congr fun r hr => ?_)
 obtain ⟨hbase, hpay⟩ := hone.currency_of_mem hr
 simp [bookRevenue, paymentBaseAmount, convertAmount, revenueNet, hbase, hpay]

theorem sum_ossRows (hone : InOneCurrency db company) (bimonthly : Bool) :
  ((ossRows db startDate endDate company.id).map (rowNet bimonthly)).sum =
   ((db.booked company.id startDate endDate ossNet).map (·.2)).sum := by
 unfold ossRows ReportDb.booked
 rw [hone.companyIds, flatMap_singleton, map_filterMap, map_filterMap]
 refine congrArg List.sum (filterMap_congr fun r hr => ?_)
 obtain ⟨hbase, hpay⟩ := hone.currency_of_mem hr
 have hrow : ∀ lines, rowNet bimonthly (r, lines) = declaredNet lines := by
  intro lines
  unfold rowNet declaredNet
  induction lines with
  | nil => rfl
  | cons l lines ih =>
   rw [total_cons, ← ih]
   cases hcountry : l.countryCode with
   | none => simp [bookLine, hcountry]
   | some country => simp [bookLine, paymentBaseAmount, hcountry, hbase, hpay]
 unfold ossNet
 cases ossLines r.payment with
 | none => rfl
 | some lines => exact congrArg some (hrow lines)

end InOneCurrency

def profitLossOf (db : ReportDb) (listed : List TickerRate) (groupBy : Option String) (currency : Option GivenCurrency)
  (company : CompanyRow) (startDate endDate : Int) : Except ReportError ProfitLossReport :=
 adminProfitLossReport db (some listed)
  { startDate := some startDate, endDate := some endDate, groupBy, companyId := company.id, currency }

def ossOf (db : ReportDb) (period : Option String) (company : CompanyRow) (startDate endDate : Int) :
  Except ReportError OssReport :=
 adminOssReport db { startDate := some startDate, endDate := some endDate, companyId := company.id, period }

section Reports

variable {db : ReportDb} {company : CompanyRow} {startDate endDate : Int} {listed : List TickerRate}
 {groupBy period : Option String} {currency : Option GivenCurrency}

theorem dateRange_eq_ok {d : Int × Int} :
  dateRange (some startDate) (some endDate) = .ok d ↔ startDate < endDate ∧ d = (startDate, endDate) := by
 by_cases h : startDate < endDate <;> simp [dateRange, ofOption, ensure, h, bind, Except.bind, eq_comm]

theorem profitLossOf_eq_ok {r : ProfitLossReport} {groupByYear : Bool}
  (hgroup : parseGroupBy groupBy = some groupByYear)
  (htarget : targetCurrency db company.id currency = .ok company.baseCurrency) :
  profitLossOf db listed groupBy currency company startDate endDate = .ok r ↔ startDate < endDate ∧
   r = ⟨startDate, endDate, groupByYear, company.baseCurrency,
    ((plAccumulators db startDate endDate groupByYear company.id 0 company.baseCurrency
     (btcRates listed)).insertionSort fun e e' => e.1 ≤ e'.1).map toPeriod⟩ := by
 unfold profitLossOf adminProfitLossReport
 simp only [bind_eq_ok, ofOption_eq_ok, hgroup, htarget, dateRange_eq_ok, some.injEq, Except.ok.injEq]
 constructor
 · rintro ⟨_, rfl, _, ⟨hlt, rfl⟩, _, rfl, _, rfl, rfl⟩
   exact ⟨hlt, rfl⟩
 · rintro ⟨hlt, rfl⟩
   exact ⟨_, rfl, _, ⟨hlt, rfl⟩, _, rfl, _, rfl, rfl⟩

theorem ossOf_eq_ok {r : OssReport} {bimonthly : Bool} (hperiod : parsePeriod period = some bimonthly) :
  ossOf db period company startDate endDate = .ok r ↔ startDate < endDate ∧
   r = ⟨startDate, endDate, bimonthly,
    ((ossAccumulators db startDate endDate company.id bimonthly).map toOssRow).insertionSort
     fun a b => ossRowLe a b⟩ := by
 unfold ossOf adminOssReport
 simp only [bind_eq_ok, ofOption_eq_ok, hperiod, dateRange_eq_ok, some.injEq, Except.ok.injEq]
 constructor
 · rintro ⟨_, rfl, _, ⟨hlt, rfl⟩, rfl⟩
   exact ⟨hlt, rfl⟩
 · rintro ⟨hlt, rfl⟩
   exact ⟨_, rfl, _, ⟨hlt, rfl⟩, rfl⟩

theorem sum_toPeriod (acc : List (String × PlAccumulator)) :
  (((acc.insertionSort fun e e' => e.1 ≤ e'.1).map toPeriod).map (·.revenueNet)).sum = sum (·.revenueNet) acc := by
 rw [List.map_map, ((List.perm_insertionSort _ _).map _).sum_eq]
 rfl

theorem sum_toOssRow (acc : List (OssKey × OssAcc)) :
  (((acc.map toOssRow).insertionSort fun a b => ossRowLe a b).map (·.netTotal)).sum = sum (·.netTotal) acc := by
 rw [((List.perm_insertionSort _ _).map _).sum_eq, List.map_map]
 rfl

structure AddsUp {ρ : Type} (db : ReportDb) (companyId : Nat) (net : VatPayment → Option Nat)
  (report : Int → Int → Except ReportError ρ) (value : ρ → Nat) : Prop where
 ok_iff : ∀ startDate endDate, (∃ r, report startDate endDate = .ok r) ↔ startDate < endDate
 value_eq : ∀ startDate endDate r, report startDate endDate = .ok r →
  ((db.booked companyId startDate endDate net).map (·.2)).sum < 2 ^ 64 →
   value r = ((db.booked companyId startDate endDate net).map (·.2)).sum

theorem profitLossOf_addsUp (hone : InOneCurrency db company) (hgroup : (parseGroupBy groupBy).isSome = true)
  (htarget : targetCurrency db company.id currency = .ok company.baseCurrency) :
  AddsUp db company.id revenueNet (profitLossOf db listed groupBy currency company) ProfitLossReport.revenue := by
 obtain ⟨groupByYear, hgroup⟩ := isSome_iff_exists.mp hgroup
 constructor
 · intro startDate endDate
   simp only [profitLossOf_eq_ok hgroup htarget]
   exact ⟨fun ⟨_, hlt, _⟩ => hlt, fun hlt => ⟨_, hlt, rfl⟩⟩
 intro startDate endDate r hr hfits
 obtain ⟨-, rfl⟩ := (profitLossOf_eq_ok hgroup htarget).mp hr
 rw [← hone.sum_revenueBookings (btcRates listed)] at hfits ⊢
 rw [ProfitLossReport.revenue, sum_toPeriod, sum_plAccumulators _ _ _ _ _ (by omega)]

theorem ossOf_addsUp (hone : InOneCurrency db company) (hperiod : (parsePeriod period).isSome = true) :
  AddsUp db company.id ossNet (ossOf db period company) OssReport.netTotal := by
 obtain ⟨bimonthly, hperiod⟩ := isSome_iff_exists.mp hperiod
 constructor
 · intro startDate endDate
   simp only [ossOf_eq_ok hperiod]
   exact ⟨fun ⟨_, hlt, _⟩ => hlt, fun hlt => ⟨_, hlt, rfl⟩⟩
 intro startDate endDate r hr hfits
 obtain ⟨-, rfl⟩ := (ossOf_eq_ok hperiod).mp hr
 rw [← hone.sum_ossRows bimonthly] at hfits ⊢
 rw [OssReport.netTotal, sum_toOssRow, sum_ossAccumulators _ _ (by omega)]

end Reports

section Conservation

variable {ρ : Type} {db : ReportDb} {companyId : Nat} {net : VatPayment → Option Nat}
 {report : Int → Int → Except ReportError ρ} {value : ρ → Nat}

theorem AddsUp.conserves_iff (h : AddsUp db companyId net report value) (hkeyed : Keyed (·.id) db.payments)
  (kind : VatPayment → Bool) (hnet : ∀ sp ∈ db.payments, kind sp = true → (net sp).isSome = true)
  (startDate endDate : Int) :
  (∃ r, report startDate endDate = .ok r ∧
    ((db.booked companyId startDate endDate net).filter fun b => kind b.1).Perm
     (db.due companyId startDate endDate kind) ∧
    ((∀ sp ∈ db.payments, sp.isPaid = true → kind sp = true) →
     ((db.due companyId startDate endDate kind).map (·.2)).sum < 2 ^ 64 →
      value r = ((db.due companyId startDate endDate kind).map (·.2)).sum)) ↔
   startDate < endDate ∧ ∀ sp ∈ db.payments, sp.isPaid = true → kind sp = true →
    CountedOnce db companyId startDate endDate sp (net sp = some sp.amount) := by
 rw [← booked_perm_due_iff hkeyed kind hnet, ← h.ok_iff startDate endDate]
 constructor
 · rintro ⟨r, hr, hperm, -⟩
   exact ⟨⟨r, hr⟩, hperm⟩
 rintro ⟨⟨r, hr⟩, hperm⟩
 refine ⟨r, hr, hperm, fun hkind hfits => ?_⟩
 have hall : ((db.booked companyId startDate endDate net).filter fun b => kind b.1) =
   db.booked companyId startDate endDate net := by
  refine filter_eq_self.mpr fun b hb => ?_
  obtain ⟨hmem, hpaid⟩ := paid_of_mem_booked hb
  exact hkind b.1 hmem hpaid
 rw [hall] at hperm
 have hsum := (hperm.map (·.2)).sum_eq
 rw [← hsum] at hfits ⊢
 exact h.value_eq startDate endDate r hr hfits

variable {startDate middle endDate : Int}

theorem AddsUp.value_adjacent_iff (h : AddsUp db companyId net report value)
  (hfits : ((db.booked companyId startDate endDate net).map (·.2)).sum < 2 ^ 64) {r r₁ r₂ : ρ}
  (hr : report startDate endDate = .ok r) (hr₁ : report startDate middle = .ok r₁)
  (hr₂ : report (middle + 1) endDate = .ok r₂) :
  value r = value r₁ + value r₂ ↔ NothingInLastSecond db companyId middle net := by
 have hlt₁ : startDate < middle := (h.ok_iff _ _).mp ⟨r₁, hr₁⟩
 have hlt₂ : middle + 1 < endDate := (h.ok_iff _ _).mp ⟨r₂, hr₂⟩
 have hmiddle : middle < endDate := by omega
 have hsum := sum_booked_adjacent db companyId net hlt₁.le hmiddle
 rw [h.value_eq _ _ r hr hfits, h.value_eq _ _ r₁ hr₁ (by omega), h.value_eq _ _ r₂ hr₂ (by omega)]
 exact booked_adjacent_iff net hlt₁.le hmiddle

theorem AddsUp.adjacent_iff (h : AddsUp db companyId net report value)
  (hfits : ((db.booked companyId startDate endDate net).map (·.2)).sum < 2 ^ 64) :
  (∃ r r₁ r₂, report startDate endDate = .ok r ∧ report startDate middle = .ok r₁ ∧
    report (middle + 1) endDate = .ok r₂ ∧ value r = value r₁ + value r₂) ↔
   startDate < middle ∧ middle + 1 < endDate ∧ NothingInLastSecond db companyId middle net := by
 constructor
 · rintro ⟨r, r₁, r₂, hr, hr₁, hr₂, hadd⟩
   have hlt₁ := (h.ok_iff _ _).mp ⟨r₁, hr₁⟩
   have hlt₂ := (h.ok_iff _ _).mp ⟨r₂, hr₂⟩
   exact ⟨hlt₁, hlt₂, (h.value_adjacent_iff hfits hr hr₁ hr₂).mp hadd⟩
 rintro ⟨hlt₁, hlt₂, hnone⟩
 obtain ⟨r, hr⟩ := (h.ok_iff startDate endDate).mpr (by omega)
 obtain ⟨r₁, hr₁⟩ := (h.ok_iff startDate middle).mpr hlt₁
 obtain ⟨r₂, hr₂⟩ := (h.ok_iff (middle + 1) endDate).mpr hlt₂
 exact ⟨r, r₁, r₂, hr, hr₁, hr₂, (h.value_adjacent_iff hfits hr hr₁ hr₂).mpr hnone⟩

variable {sp : VatPayment}

theorem revenueNet_eq_amount : revenueNet sp = some sp.amount ↔ sp.tax = 0 ∨ sp.amount = 0 := by
 unfold revenueNet
 rw [some.injEq]
 omega

def Declared (sp : VatPayment) : Prop :=
 match sp.taxBreakdown with
 | some (some lines) => ∀ l ∈ lines, l.net = 0 ∨ l.countryCode.isSome = true
 | _ => sp.amount = 0 ∨ (sp.tax = 0 ∧ sp.taxCountryCode.isSome = true)

theorem ossNet_eq_amount (h : whollyOss sp = true) : ossNet sp = some sp.amount ↔ Declared sp := by
 unfold whollyOss at h
 unfold ossNet ossLines Declared
 split at h
 · exact absurd h Bool.false_ne_true
 · rename_i lines hlines
   obtain ⟨hall, hsum⟩ := Bool.and_eq_true_iff.mp h
   have hkept : (lines.filter fun l => l.treatment = .ossB2c) = lines :=
    filter_eq_self.mpr fun l hl => all_eq_true.mp hall l hl
   simp only [hlines, map_some, hkept, some.injEq]
   rw [← of_decide_eq_true hsum]
   exact total_eq_sum_iff
 · rename_i hlines
   simp only [hlines, of_decide_eq_true h, if_true, map_some, some.injEq]
   cases hcountry : sp.taxCountryCode <;> simp [declaredNet, total] <;> omega

theorem isSome_ossNet (h : whollyOss sp = true) : (ossNet sp).isSome = true := by
 unfold whollyOss at h
 unfold ossNet ossLines
 split at h
 · exact absurd h Bool.false_ne_true
 · rename_i lines hlines
   simp [hlines]
 · rename_i hlines
   simp [hlines, of_decide_eq_true h]

end Conservation

def euroCompany : CompanyRow := ⟨1, "", .eur⟩

def smallDb (vmCount : Nat) (payment : VatPayment) : ReportDb where
 payments := [payment]
 subscriptions := [{ id := 1, companyId := 1 }]
 lineItems := (List.range vmCount).map fun i => { id := i, subscriptionId := 1, subscriptionType := .vps }
 vms := (List.range vmCount).map fun i => { id := i, hostId := 1, subscriptionLineItemId := i }
 hosts := [⟨1, "", 1⟩]
 regions := [⟨1, "", 1⟩]
 companies := [euroCompany]

def euroPayment (created : Int) (tax : Nat) : VatPayment :=
 { id := 1, subscriptionId := 1, created, amount := 1000, tax, currency := .eur, isPaid := true,
   taxCountryCode := some "FRA", taxTreatment := some TaxTreatment.ossB2c.asStr }

theorem smallDb_inOneCurrency (vmCount : Nat) (created : Int) (tax : Nat) :
  InOneCurrency (smallDb vmCount (euroPayment created tax)) euroCompany where
 keyed := List.nodup_singleton 1
 id_ne_zero := by decide
 lookup_company := rfl
 currency sp hsp _ := by
  obtain rfl := mem_singleton.mp hsp
  rfl

end Lnvps.Reports
