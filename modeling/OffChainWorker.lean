import OffChainWorker.Chain.Batching
import OffChainWorker.Chain.Bookkeeping
import OffChainWorker.Chain.Commits
import OffChainWorker.Chain.Confirmation
import OffChainWorker.Chain.Delivery
import OffChainWorker.Chain.Ending
import OffChainWorker.Chain.Fees
import OffChainWorker.Chain.InFlight
import OffChainWorker.Chain.Nonce
import OffChainWorker.Chain.Panics
import OffChainWorker.Chain.Polling
import OffChainWorker.Chain.ReadBack
import OffChainWorker.Chain.Report
import OffChainWorker.Chain.RequestReply
import OffChainWorker.Chain.Shutdown
import OffChainWorker.Chain.Signing
import OffChainWorker.Chain.Timeouts
import OffChainWorker.Chain.WindDown
import OffChainWorker.Keyring.Folders
import OffChainWorker.Keyring.Identity
import OffChainWorker.Keyring.KeyFiles
import OffChainWorker.Keyring.KeyNames
import OffChainWorker.Main
import OffChainWorker.Subscribe.Blocks
import OffChainWorker.Subscribe.Bus
import OffChainWorker.Subscribe.BusLosses
import OffChainWorker.Subscribe.Extraction
import OffChainWorker.Subscribe.MonitorBounds
import OffChainWorker.Subscribe.MonitorRecovery
import OffChainWorker.Subscribe.MonitorConnection
import OffChainWorker.Subscribe.MonitorDelivery
import OffChainWorker.Subscribe.MonitorGaps
import OffChainWorker.Subscribe.MonitorStale
import OffChainWorker.Subscribe.MonitorStuck
import OffChainWorker.Subscribe.Occurrences
import OffChainWorker.Subscribe.SortEvents
import OffChainWorker.Util.Delays
import OffChainWorker.Util.Diff
import OffChainWorker.Util.Groups
import OffChainWorker.Util.RecvMultiple
