import GraphTally.Aggregator.Chain
import GraphTally.Aggregator.Counters
import GraphTally.Aggregator.Exposure
import GraphTally.Aggregator.Malleability
import GraphTally.Aggregator.SignerConfig
import GraphTally.Aggregator.Wire
import GraphTally.Core.Agreement
import GraphTally.Core.Cleanup
import GraphTally.Core.Draining
import GraphTally.Core.Overlap
import GraphTally.Core.SharedStorage
import GraphTally.Core.Transparency
import GraphTally.Core.Window
import GraphTally.EscrowManager.Coverage
import GraphTally.EscrowManager.DebtPublication
import GraphTally.EscrowManager.Ladder
import GraphTally.EscrowManager.LiveTraffic
import GraphTally.EscrowManager.RavDebts
import GraphTally.EscrowManager.RavFeed
import GraphTally.EscrowManager.Reclaim
import GraphTally.EscrowManager.Timestamps
import GraphTally.EscrowManager.Restarts
