import Hammurabi.Arming
import Hammurabi.AuditFeed
import Hammurabi.BatchRoot
import Hammurabi.BridgeErrors
import Hammurabi.Buttons
import Hammurabi.CompactCheck
import Hammurabi.Component
import Hammurabi.Conformance
import Hammurabi.Facilitator
import Hammurabi.FeedOrder
import Hammurabi.FixedShape
import Hammurabi.GateHistory
import Hammurabi.Growth
import Hammurabi.InFlight
import Hammurabi.Interop
import Hammurabi.Jcs
import Hammurabi.Journey
import Hammurabi.KeyOrder
import Hammurabi.Keystore
import Hammurabi.LedgerOrder
import Hammurabi.Lifecycle
import Hammurabi.LiveBackend
import Hammurabi.Manifest
import Hammurabi.Merit
import Hammurabi.MeshHistory
import Hammurabi.MountainLookup
import Hammurabi.Narration
import Hammurabi.Observer
import Hammurabi.PaidIntent
import Hammurabi.Refusals
import Hammurabi.Reload
import Hammurabi.Retention
import Hammurabi.SealedBox
import Hammurabi.SettleRoute
import Hammurabi.Settlement
import Hammurabi.Shell
import Hammurabi.Soundness
import Hammurabi.TamperEvidence
import Hammurabi.Transcript
import Hammurabi.TreasuryHistory
import Hammurabi.TtlArithmetic
import Hammurabi.Verbatim
import Hammurabi.Window
