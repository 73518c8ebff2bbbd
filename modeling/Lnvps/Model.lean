import Lnvps.Lib.Calendar
import Lnvps.Lib.Table

/-! # The billing data model -/

namespace Lnvps

def second : Int := 1000000000

def day : Int := 86400 * second

def sqlNow (now : Int) : Int := now / second * second

theorem sqlNow_le (now : Int) : sqlNow now ≤ now := by
 unfold sqlNow second
 omega

inductive IntervalType
 | day
 | month
 | year
 deriving DecidableEq

inductive PaymentMethod
 | lightning
 | revolut
 | paypal
 | stripe
 | onChain
 deriving DecidableEq

inductive PaymentType
 | purchase
 | renewal
 | upgrade
 deriving DecidableEq

inductive SubscriptionType
 | ipRange
 | asnSponsoring
 | dnsHosting
 | vps
 | app
 deriving DecidableEq

inductive Currency
 | btc
 | eur
 | usd
 | gbp
 | chf
 | jpy
 | cad
 | aud
 deriving DecidableEq

structure Subscription where
 id : Nat
 (userId companyId : Nat := 0)
 created : Int := 0
 expires : Option Int := none
 (isActive isSetup : Bool := false)
 currency : Currency := .eur
 intervalAmount : Nat := 1
 intervalType : IntervalType := .month
 setupFee : Nat := 0
 autoRenewalEnabled : Bool := false
 deriving DecidableEq

structure SubscriptionLineItem where
 (id subscriptionId : Nat)
 subscriptionType : SubscriptionType
 (amount setupAmount : Nat := 0)
 deriving DecidableEq

structure UpgradeConfig where
 (newCpu newMemory newDisk : Option Nat := none)
 deriving DecidableEq

structure SubscriptionPayment where
 (id subscriptionId : Nat)
 userId : Nat := 0
 (created expires : Int := 0)
 amount : Nat := 0
 currency : Currency := .btc
 paymentMethod : PaymentMethod := .lightning
 paymentType : PaymentType := .renewal
 externalData : String := ""
 externalId : Option String := none
 isPaid : Bool := false
 rate : Rat := 1
 timeValue : Option Nat := none
 (tax processingFee : Nat := 0)
 paidAt : Option Int := none
 metadata : Option UpgradeConfig := none
 deriving DecidableEq

def SubscriptionPayment.gross (p : SubscriptionPayment) : Nat := p.amount + p.tax + p.processingFee

structure NewPaymentInfo where
 amount : Nat
 currency : Currency := .btc
 rate : Rat := 1
 timeValue : Nat
 newExpiry : Int := 0
 (tax processingFee : Nat := 0)
 deriving DecidableEq

inductive CostResult
 | existing (payment : SubscriptionPayment)
 | new (info : NewPaymentInfo)
 deriving DecidableEq

structure Vm where
 id : Nat
 (hostId userId : Nat := 0)
 (templateId customTemplateId : Option Nat := none)
 subscriptionLineItemId : Nat
 diskId : Nat := 0
 macAddress : Option (BitVec 48) := none
 refCode : Option String := none
 deleted : Bool := false
 deriving DecidableEq

structure VmCostPlan where
 (id amount : Nat)
 currency : Currency := .eur
 intervalAmount : Nat := 1
 intervalType : IntervalType := .month
 deriving DecidableEq

inductive DiskType
 | hdd
 | ssd
 deriving DecidableEq

inductive DiskInterface
 | sata
 | scsi
 | pcie
 deriving DecidableEq

inductive CpuMfg
 | unknown
 | intel
 | amd
 | apple
 | nvidia
 | arm
 deriving DecidableEq

inductive CpuArch
 | unknown
 | x86_64
 | arm64
 deriving DecidableEq

inductive CpuFeature
 | sse | sse2 | sse3 | ssse3 | sse4_1 | sse4_2 | avx | avx2 | fma | f16c | avx512f | avx512vnni | avx512bf16
 | avxvnni | neon | sve | sve2 | aes | sha | sha512 | pclmulqdq | rng | gfni | vaes | vpclmulqdq | vmx
 | nestedVirt | amx | sme | sgx | sev | tdx | encodeH264 | encodeHEVC | encodeAV1 | encodeVP9 | encodeJPEG
 | decodeH264 | decodeHEVC | decodeAV1 | decodeVP9 | decodeJPEG | decodeMPEG2 | decodeVC1 | videoScaling
 | videoDeinterlace | videoCSC | videoComposition
 deriving DecidableEq

structure VmTemplate where
 id : Nat
 enabled : Bool := true
 expires : Option Int := none
 costPlanId : Nat
 regionId : Nat := 0
 cpu : Nat := 1
 cpuMfg : CpuMfg := .unknown
 cpuArch : CpuArch := .unknown
 cpuFeatures : List CpuFeature := []
 (memory diskSize : Nat := 0)
 diskType : DiskType := .hdd
 diskInterface : DiskInterface := .sata
 deriving DecidableEq

structure VmHost where
 id : Nat
 (regionId companyId : Nat := 0)
 sunsetDate : Option Int := none
 enabled : Bool := true
 cpu : Nat := 0
 cpuMfg : CpuMfg := .unknown
 cpuArch : CpuArch := .unknown
 cpuFeatures : List CpuFeature := []
 memory : Nat := 0
 (loadCpu loadMemory loadDisk : Rat := 1)
 deriving DecidableEq

structure Company where
 id : Nat
 maxPrepayDays : Nat := 0
 referralRate : Rat := 0
 deriving DecidableEq

structure PaymentMethodConfig where
 companyId : Nat
 paymentMethod : PaymentMethod
 enabled : Bool := true
 processingFeeRate : Option Rat := none
 processingFeeBase : Option Nat := none
 processingFeeCurrency : Option Currency := none
 minAmount : Option Nat := none
 minAmountCurrency : Option Currency := none
 deriving DecidableEq

structure VmHistory where
 vmId : Nat
 isExpired : Bool
 timestamp : Int
 deriving DecidableEq

variable (ty : IntervalType)

def billingSpan (amount : Nat) : Calendar.Span :=
 match ty with
 | .day => .days amount
 | .month => .months amount
 | .year => .months (12 * amount)

def addInterval (amount : Nat) (base : Int) : Int := (billingSpan ty amount).next day base

theorem day_pos : 0 < day := by decide

theorem le_addInterval (amount : Nat) (base : Int) : base ≤ addInterval ty amount base :=
 Calendar.Span.le_next day_pos _ _

end Lnvps
