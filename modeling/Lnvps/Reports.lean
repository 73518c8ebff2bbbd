import Lnvps.Exchange
import Lnvps.Lib.Tally

/-! # Financial reports -/

namespace Lnvps.Reports

open Table Outcome

inductive TaxTreatment
 | domestic
 | ossB2c
 | reverseCharge
 | outOfScope
 | undeterminedDefault
 deriving DecidableEq

def TaxTreatment.asStr : TaxTreatment → String
 | .domestic => "domestic"
 | .ossB2c => "oss_b2c"
 | .reverseCharge => "reverse_charge"
 | .outOfScope => "out_of_scope"
 | .undeterminedDefault => "undetermined_default"

structure TaxLine where
 (net tax : Nat)
 rate : ℚ
 countryCode : Option String := none
 treatment : TaxTreatment
 deriving DecidableEq

structure VatPayment extends SubscriptionPayment where
 taxRate : Option ℚ := none
 (taxCountryCode taxTreatment : Option String := none)
 taxBreakdown : Option (Option (List TaxLine)) := none
 deriving DecidableEq

structure HostRow where
 id : Nat
 name : String := ""
 regionId : Nat

structure Region where
 id : Nat
 name : String := ""
 companyId : Nat

structure CompanyRow where
 id : Nat
 name : String := ""
 baseCurrency : Currency

structure IpRangeRow where
 (id regionId : Nat)

inductive CostResourceType
 | vmHost
 | ipRange
 | generic

inductive CostType
 | recurring
 | oneTime

structure ResourceCost where
 id : Nat
 resourceType : CostResourceType
 resourceId : Nat
 costType : CostType
 amount : Nat
 currency : Currency
 intervalAmount : Option Nat := none
 intervalType : Option IntervalType := none
 (billingStart billingEnd : Option Int := none)

structure ReportDb where
 payments : List VatPayment := []
 subscriptions : List Subscription := []
 lineItems : List SubscriptionLineItem := []
 vms : List Vm := []
 hosts : List HostRow := []
 regions : List Region := []
 companies : List CompanyRow := []
 ipRanges : List IpRangeRow := []
 resourceCosts : List ResourceCost := []

structure SubscriptionPaymentWithCompany where
 payment : VatPayment
 companyId : Nat
 companyName : String
 companyBaseCurrency : Currency
 (vmId hostId : Option Nat)
 hostName : Option String
 regionId : Option Nat
 regionName : Option String

namespace ReportDb

variable (db : ReportDb)

def vmsOf (subscriptionId : Nat) : List (Option Vm) :=
 match db.lineItems.filter fun sli => sli.subscriptionId = subscriptionId ∧ sli.subscriptionType = .vps with
 | [] => [none]
 | slis => slis.flatMap fun sli =>
  match db.vms.filter fun v => v.subscriptionLineItemId = sli.id with
  | [] => [none]
  | vms => vms.map some

def joinCompany (sp : VatPayment) (s : Subscription) (vm : Option Vm) : Option SubscriptionPaymentWithCompany := do
 let host := vm.bind fun v => lookup (·.id) v.hostId db.hosts
 let region := host.bind fun h => lookup (·.id) h.regionId db.regions
 let company ← lookup (·.id) ((region.map (·.companyId)).getD s.companyId) db.companies
 some {
  payment := sp
  companyId := company.id
  companyName := company.name
  companyBaseCurrency := company.baseCurrency
  vmId := vm.map (·.id)
  hostId := host.map (·.id)
  hostName := host.map (·.name)
  regionId := region.map (·.id)
  regionName := region.map (·.name) }

def rowsOf (sp : VatPayment) : List SubscriptionPaymentWithCompany :=
 (lookup (·.id) sp.subscriptionId db.subscriptions).toList.flatMap fun s =>
  (db.vmsOf s.id).filterMap (db.joinCompany sp s)

def adminGetPaymentsWithCompanyInfo (startDate endDate : Int) (companyId : Nat) (currency : Option Currency) :
  List SubscriptionPaymentWithCompany :=
 (db.payments.flatMap fun sp =>
  if startDate ≤ sp.created ∧ sp.created < endDate ∧ sp.isPaid ∧ currency.all (fun c => c = sp.currency) then
   (db.rowsOf sp).filter fun r => r.companyId = companyId
  else []).insertionSort fun r r' => r.payment.created ≤ r'.payment.created

def adminListResourceCostsActiveBetween (startDate endDate : Int) : List ResourceCost :=
 (db.resourceCosts.filter fun c =>
  match c.costType with
  | .recurring => c.billingStart.all (fun b => b ≤ endDate) ∧ c.billingEnd.all fun b => startDate ≤ b
  | .oneTime => c.billingStart.any fun b => startDate ≤ b ∧ b ≤ endDate).insertionSort fun c c' => c.id ≤ c'.id

def companyIds (companyId : Nat) : List Nat :=
 if companyId ≠ 0 then [companyId] else (db.companies.take 10000).map (·.id)

end ReportDb

def saturatingAdd (a b : Nat) : Nat := min (a + b) (2 ^ 64 - 1)

def paymentBaseAmount (amount : Nat) (payCur base : Currency) (rate : ℚ) : Option Nat :=
 if amount = 0 ∨ payCur = base then some amount
 else if payCur = .btc then (TickerRate.convert ⟨⟨.btc, base⟩, rate⟩ .btc amount).map (·.2)
 else if base = .btc then (TickerRate.convert ⟨⟨.btc, payCur⟩, rate⟩ payCur amount).map (·.2)
 else none

def convertAmount (amount : Nat) (source target : Currency) (rates : Currency → Option ℚ) : Option Nat :=
 if source = target then some amount
 else do
  let btc ←
   if source = .btc then some amount
   else do
    let rate ← rates source
    (TickerRate.convert ⟨⟨.btc, source⟩, rate⟩ source amount).map (·.2)
  if target = .btc then some btc
  else do
   let rate ← rates target
   (TickerRate.convert ⟨⟨.btc, target⟩, rate⟩ .btc btc).map (·.2)

def btcRates (listed : List TickerRate) (currency : Currency) : Option ℚ :=
 ((listed.reverse.find? fun r => r.ticker = ⟨.btc, currency⟩).map (·.rate))

def perMonthFraction (intervalAmount : Nat) (intervalType : IntervalType) : ℚ :=
 if intervalAmount = 0 then 0
 else
  let n := f64 intervalAmount
  match intervalType with
  | .day => f64 (f64 (30436875 / 1000000) / n)
  | .month => f64 (1 / n)
  | .year => f64 (1 / f64 (n * 12))

def yearMonth (t : Int) : Int × Int :=
 let m := Calendar.monthOf (t / day)
 (m / 12, m % 12 + 1)

def padded (width : Nat) (n : Int) : String :=
 let digits := toString n
 String.ofList (List.replicate (width - digits.length) '0') ++ digits

def periodKey (t : Int) (groupByYear : Bool) : String :=
 let (y, m) := yearMonth t
 if groupByYear then padded 4 y else padded 4 y ++ "-" ++ padded 2 m

def ossPeriodKey (t : Int) (bimonthly : Bool) : String :=
 let (y, m) := yearMonth t
 if bimonthly then padded 4 y ++ "-B" ++ toString ((m - 1) / 2 + 1)
 else padded 4 y ++ "-Q" ++ toString ((m - 1) / 3 + 1)

def startOf (date : Int) : Int := date * day

def endOf (date : Int) : Int := date * day + 86399 * second

inductive ReportError
 | badRequest (message : String)
 | internal (message : String)
 | unavailable
 deriving DecidableEq

def dateRange (startDate endDate : Option Int) : Except ReportError (Int × Int) := do
 let startDate ← ofOption (.internal "Invalid start_date format. Use YYYY-MM-DD") startDate
 let endDate ← ofOption (.internal "Invalid end_date format. Use YYYY-MM-DD") endDate
 ensure (startDate < endDate) (.badRequest "start_date must be before end_date")
 .ok (startDate, endDate)

structure GivenCurrency where
 text : String
 currency : Option Currency

structure ProfitLossQuery where
 (startDate endDate : Option Int)
 groupBy : Option String := none
 (companyId regionId : Nat := 0)
 currency : Option GivenCurrency := none

structure ProfitLossPeriod where
 period : String
 (revenueNet revenueTax costRecurring costOneTime costTotal : Nat)
 profit : Int

structure ProfitLossReport where
 (startDate endDate : Int)
 groupByYear : Bool
 currency : Currency
 periods : List ProfitLossPeriod

structure PlAccumulator where
 (revenueNet revenueTax : Nat := 0)
 costRecurringF : ℚ := 0
 costOneTime : Nat := 0

def plEntry (key : String) (f : PlAccumulator → PlAccumulator) (acc : List (String × PlAccumulator)) :
  List (String × PlAccumulator) := Tally.entry {} f key acc

def parseGroupBy (groupBy : Option String) : Option Bool :=
 match (groupBy.getD "month").toLower with
 | "month" => some false
 | "year" => some true
 | _ => none

variable (db : ReportDb)

def targetCurrency (companyId : Nat) : Option GivenCurrency → Except ReportError Currency
 | some given => ofOption (.internal ("Invalid currency: " ++ given.text)) given.currency
 | none =>
  if companyId ≠ 0 then
   ofOption .unavailable ((lookup (·.id) companyId db.companies).map (·.baseCurrency))
  else .error (.badRequest "currency is required when company_id is omitted")

structure RevenueBooking where
 payment : VatPayment
 (net tax : Nat)

def bookRevenue (regionId : Nat) (target : Currency) (rates : Currency → Option ℚ)
  (p : SubscriptionPaymentWithCompany) : Option RevenueBooking :=
 if regionId ≠ 0 ∧ p.regionId ≠ some regionId then none
 else do
  let net := p.payment.amount - p.payment.tax
  let netBase ← paymentBaseAmount net p.payment.currency p.companyBaseCurrency p.payment.rate
  let taxBase ← paymentBaseAmount p.payment.tax p.payment.currency p.companyBaseCurrency p.payment.rate
  let netC ← convertAmount netBase p.companyBaseCurrency target rates
  let taxC ← convertAmount taxBase p.companyBaseCurrency target rates
  some ⟨p.payment, netC, taxC⟩

def revenueBookings (startDate endDate : Int) (companyId regionId : Nat) (target : Currency)
  (rates : Currency → Option ℚ) : List RevenueBooking :=
 (db.companyIds companyId).flatMap fun cid =>
  (db.adminGetPaymentsWithCompanyInfo (startOf startDate) (endOf endDate) cid none).filterMap
   (bookRevenue regionId target rates)

def addRevenue (groupByYear : Bool) (acc : List (String × PlAccumulator)) (b : RevenueBooking) :
  List (String × PlAccumulator) :=
 plEntry (periodKey b.payment.created groupByYear) (fun e => { e with
  revenueNet := saturatingAdd e.revenueNet b.net
  revenueTax := saturatingAdd e.revenueTax b.tax }) acc

def costRegion (c : ResourceCost) : Option Nat :=
 match c.resourceType with
 | .vmHost => (lookup (·.id) c.resourceId db.hosts).map (·.regionId)
 | .ipRange => (lookup (·.id) c.resourceId db.ipRanges).map (·.regionId)
 | .generic => if c.resourceId ≠ 0 then some c.resourceId else none

def monthsBetween (startDate endDate : Int) : List Int :=
 (List.range ((Calendar.monthOf endDate - Calendar.monthOf startDate).toNat + 1)).map fun i =>
  Calendar.monthOf startDate + i

def addRecurring (groupByYear : Bool) (monthly : ℚ) (c : ResourceCost) (acc : List (String × PlAccumulator))
  (month : Int) : List (String × PlAccumulator) :=
 let monthStart := Calendar.monthStart month * day
 let monthEnd := Calendar.monthStart (month + 1) * day - second
 if c.billingStart.all (fun b => b ≤ monthEnd) ∧ c.billingEnd.all (fun b => monthStart ≤ b) then
  plEntry (periodKey monthStart groupByYear) (fun e => { e with
   costRecurringF := f64 (e.costRecurringF + monthly) }) acc
 else acc

def addCost (startDate endDate : Int) (groupByYear : Bool) (regionId : Nat) (target : Currency)
  (rates : Currency → Option ℚ) (acc : List (String × PlAccumulator)) (c : ResourceCost) :
  List (String × PlAccumulator) :=
 if regionId ≠ 0 ∧ costRegion db c ≠ some regionId then acc
 else
  match convertAmount c.amount c.currency target rates with
  | none => acc
  | some amountC =>
   match c.costType with
   | .oneTime =>
    match c.billingStart with
    | some b =>
     if startOf startDate ≤ b ∧ b ≤ endOf endDate then
      plEntry (periodKey b groupByYear) (fun e => { e with
       costOneTime := saturatingAdd e.costOneTime amountC }) acc
     else acc
    | none => acc
   | .recurring =>
    match c.intervalAmount, c.intervalType with
    | some intervalAmount, some intervalType =>
     let monthly := f64 (f64 amountC * perMonthFraction intervalAmount intervalType)
     (monthsBetween startDate endDate).foldl (addRecurring groupByYear monthly c) acc
    | _, _ => acc

def toPeriod (e : String × PlAccumulator) : ProfitLossPeriod :=
 let costRecurring := roundToU64 e.2.costRecurringF
 let costTotal := saturatingAdd costRecurring e.2.costOneTime
 { period := e.1
   revenueNet := e.2.revenueNet
   revenueTax := e.2.revenueTax
   costRecurring
   costOneTime := e.2.costOneTime
   costTotal
   profit := Int.bmod (e.2.revenueNet - costTotal) (2 ^ 64) }

def plAccumulators (startDate endDate : Int) (groupByYear : Bool) (companyId regionId : Nat)
  (target : Currency) (rates : Currency → Option ℚ) : List (String × PlAccumulator) :=
 let acc := (revenueBookings db startDate endDate companyId regionId target rates).foldl (addRevenue groupByYear) []
 (db.adminListResourceCostsActiveBetween (startOf startDate) (endOf endDate)).foldl
  (addCost db startDate endDate groupByYear regionId target rates) acc

def adminProfitLossReport (listRates : Option (List TickerRate)) (params : ProfitLossQuery) :
  Except ReportError ProfitLossReport := do
 let groupByYear ← ofOption (.badRequest "group_by must be 'month' or 'year'") (parseGroupBy params.groupBy)
 let (startDate, endDate) ← dateRange params.startDate params.endDate
 let target ← targetCurrency db params.companyId params.currency
 let listed ← ofOption .unavailable listRates
 let acc := plAccumulators db startDate endDate groupByYear params.companyId params.regionId target (btcRates listed)
 .ok {
  startDate
  endDate
  groupByYear
  currency := target
  periods := (acc.insertionSort fun e e' => e.1 ≤ e'.1).map toPeriod }

def ProfitLossReport.revenue (r : ProfitLossReport) : Nat := (r.periods.map (·.revenueNet)).sum

structure OssReportQuery where
 (startDate endDate : Option Int)
 companyId : Nat := 0
 period : Option String := none

structure OssReportRow where
 period : String
 companyId : Nat
 companyName : String
 currency : Currency
 countryCode : String
 vatRate : ℚ
 (netTotal taxTotal transactionCount : Nat)

structure OssReport where
 (startDate endDate : Int)
 bimonthly : Bool
 rows : List OssReportRow

structure OssKey where
 period : String
 companyId : Nat
 countryCode : String
 rate : ℚ
 deriving DecidableEq

structure OssAcc where
 (netTotal taxTotal transactionCount : Nat := 0)
 companyName : String := ""
 currency : Option Currency := none

def parsePeriod (period : Option String) : Option Bool :=
 match (period.getD "quarter").toLower with
 | "quarter" => some false
 | "bimonthly" => some true
 | _ => none

def ossLines (p : VatPayment) : Option (List TaxLine) :=
 match p.taxBreakdown with
 | some breakdown => breakdown.map fun lines => lines.filter fun l => l.treatment = .ossB2c
 | none =>
  if p.taxTreatment = some TaxTreatment.ossB2c.asStr then
   some [{
    net := p.amount - p.tax
    tax := p.tax
    rate := p.taxRate.getD 0
    countryCode := p.taxCountryCode
    treatment := .ossB2c }]
  else none

def bookLine (bimonthly : Bool) (p : SubscriptionPaymentWithCompany) (l : TaxLine) : Option (OssKey × Nat × Nat) := do
 let country ← l.countryCode
 let netBase ← paymentBaseAmount l.net p.payment.currency p.companyBaseCurrency p.payment.rate
 let taxBase ← paymentBaseAmount l.tax p.payment.currency p.companyBaseCurrency p.payment.rate
 some (⟨ossPeriodKey p.payment.created bimonthly, p.companyId, country, l.rate⟩, netBase, taxBase)

def perPayment (bimonthly : Bool) (p : SubscriptionPaymentWithCompany) (lines : List TaxLine) :
  List (OssKey × Nat × Nat) :=
 (lines.filterMap (bookLine bimonthly p)).foldl (fun acc (key, netBase, taxBase) =>
  Tally.entry (0, 0) (fun e => (saturatingAdd e.1 netBase, saturatingAdd e.2 taxBase)) key acc) []

def addOss (p : SubscriptionPaymentWithCompany) (acc : List (OssKey × OssAcc)) (b : OssKey × Nat × Nat) :
  List (OssKey × OssAcc) :=
 Tally.entry {} (fun e => { e with
  netTotal := saturatingAdd e.netTotal b.2.1
  taxTotal := saturatingAdd e.taxTotal b.2.2
  transactionCount := min (e.transactionCount + 1) (2 ^ 32 - 1)
  companyName := p.companyName
  currency := some p.companyBaseCurrency }) b.1 acc

def ossRows (startDate endDate : Int) (companyId : Nat) : List (SubscriptionPaymentWithCompany × List TaxLine) :=
 (db.companyIds companyId).flatMap fun cid =>
  (db.adminGetPaymentsWithCompanyInfo (startOf startDate) (endOf endDate) cid none).filterMap fun p =>
   (ossLines p.payment).map fun lines => (p, lines)

def ossAccumulators (startDate endDate : Int) (companyId : Nat) (bimonthly : Bool) : List (OssKey × OssAcc) :=
 (ossRows db startDate endDate companyId).foldl (fun acc (p, lines) =>
  (perPayment bimonthly p lines).foldl (addOss p) acc) []

def toOssRow (e : OssKey × OssAcc) : OssReportRow where
 period := e.1.period
 companyId := e.1.companyId
 companyName := e.2.companyName
 currency := e.2.currency.getD .eur
 countryCode := e.1.countryCode
 vatRate := e.1.rate
 netTotal := e.2.netTotal
 taxTotal := e.2.taxTotal
 transactionCount := e.2.transactionCount

def ossRowLe (a b : OssReportRow) : Bool :=
 a.period < b.period ∨ (a.period = b.period ∧ (a.companyId < b.companyId ∨ (a.companyId = b.companyId ∧
  (a.countryCode < b.countryCode ∨ (a.countryCode = b.countryCode ∧ a.vatRate ≤ b.vatRate)))))

def adminOssReport (params : OssReportQuery) : Except ReportError OssReport := do
 let bimonthly ← ofOption (.badRequest "period must be 'quarter' or 'bimonthly'") (parsePeriod params.period)
 let (startDate, endDate) ← dateRange params.startDate params.endDate
 let acc := ossAccumulators db startDate endDate params.companyId bimonthly
 .ok { startDate, endDate, bimonthly, rows := (acc.map toOssRow).insertionSort fun a b => ossRowLe a b }

def OssReport.netTotal (r : OssReport) : Nat := (r.rows.map (·.netTotal)).sum

end Lnvps.Reports
