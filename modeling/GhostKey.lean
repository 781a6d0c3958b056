import GhostKey.Alarm
import GhostKey.Alert
import GhostKey.Arming
import GhostKey.Cycles
import GhostKey.Drain
import GhostKey.Finality
import GhostKey.Freeze
import GhostKey.Funding
import GhostKey.Grace
import GhostKey.KeyGates
import GhostKey.Objection
import GhostKey.Overtaking
import GhostKey.Paths
import GhostKey.Phase
import GhostKey.Release
import GhostKey.Policy
import GhostKey.Trigger
import GhostKey.Window
import GhostKey.Link
import GhostKey.Maturity
import GhostKey.HeirContacts
import GhostKey.Usable
import GhostKey.Deletion
import GhostKey.Deadlines
import GhostKey.Timestamps
import GhostKey.Balance
import GhostKey.Spending
import GhostKey.Notifier
import GhostKey.Delivery
import GhostKey.Verdict
import GhostKey.Reachability
import GhostKey.Device
import GhostKey.Kit
import GhostKey.Gaps
import GhostKey.Founding
import GhostKey.Identity
import GhostKey.Identity.Conduct
import GhostKey.Identity.Course
import GhostKey.Cooldown
import GhostKey.OneTap
import GhostKey.Foundation.Transaction
import GhostKey.Payment
import GhostKey.Minting
import GhostKey.Departures
import GhostKey.Foundation.Share
import GhostKey.Sending
import GhostKey.Foundation.Sweep
import GhostKey.LegacyTokens
import GhostKey.Foundation.JsonText
import GhostKey.Foundation.Script
import GhostKey.KitFile
import GhostKey.Foundation.Dialogue
import GhostKey.Explorer
import GhostKey.Foundation.Block
import GhostKey.PushGuard
import GhostKey.Outages
import GhostKey.Backoff
import GhostKey.Binding
import GhostKey.Foundation.TokenBucket
import GhostKey.RateLimit
import GhostKey.Foundation.Numeral
import GhostKey.IpText
import GhostKey.ClientKey
import GhostKey.Submitted
import GhostKey.Confirmation
import GhostKey.Recovery
import GhostKey.ReadyNotice
import GhostKey.LinkRounds
import GhostKey.Escalation
import GhostKey.Foundation.Extension
import GhostKey.Undrilled
import GhostKey.Practice
import GhostKey.Rehearsal
import GhostKey.Foundation.EditDistance
import GhostKey.Deliverability
import GhostKey.Conduct.Invoices
import GhostKey.Invoices
