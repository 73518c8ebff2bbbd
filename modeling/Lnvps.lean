import Lnvps.Expiry
import Lnvps.Purge
import Lnvps.Slaac
import Lnvps.SpawnFailure
import Lnvps.Proration
import Lnvps.PayoutBatch
import Lnvps.Redelivery
import Lnvps.UpgradePayment
import Lnvps.SavedPayment
import Lnvps.PaymentCurrency
import Lnvps.ReferralRace
import Lnvps.CarvingOverflow
import Lnvps.FreshRange
import Lnvps.RegistryFollows
import Lnvps.IpPicking
import Lnvps.Shop
import Lnvps.HostUsage
import Lnvps.AppRegions
import Lnvps.Firewall.Floor
import Lnvps.Firewall.Recovery
import Lnvps.AppActions
import Lnvps.AppHostnames
import Lnvps.Roles
import Lnvps.HostLimits
import Lnvps.OAuth
import Lnvps.FirewallReapply
import Lnvps.IpFilter
import Lnvps.WorkQueue
import Lnvps.Conservation
import Lnvps.RouterCommands
import Lnvps.ComposeRefs
import Lnvps.Footprint
import Lnvps.ComposePaths
import Lnvps.ComposeObjects
import Lnvps.Passkeys
import Lnvps.SessionTokens
import Lnvps.Conversations
import Lnvps.Firewall.Masking
import Lnvps.Firewall.Episodes
import Lnvps.Firewall.LiveLimits
import Lnvps.Firewall.FailedTicks
import Lnvps.Firewall.SelfUpgrade
import Lnvps.Firewall.Events
import Lnvps.Firewall.Datapath
import Lnvps.Migrations
