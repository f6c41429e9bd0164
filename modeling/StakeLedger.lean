import StakeLedger.Main
import StakeLedger.Session
import StakeLedger.Transaction
import StakeLedger.Text.Line
import StakeLedger.Proofs.Decay
import StakeLedger.Proofs.Finalization
import StakeLedger.Proofs.PurgeOrder
import StakeLedger.Proofs.LatePurge
import StakeLedger.Proofs.Ledger
import StakeLedger.Proofs.Posting
import StakeLedger.Proofs.Rates
import StakeLedger.Proofs.Shares
import StakeLedger.Proofs.WriteSets
import StakeLedger.Proofs.PurgedClosing
import StakeLedger.Proofs.Calls
import StakeLedger.Proofs.Rolling
import StakeLedger.Proofs.Transparency
import StakeLedger.Proofs.Journal
import StakeLedger.Proofs.SweepTwice
import StakeLedger.Proofs.SweepCoverage
import StakeLedger.Proofs.Separation
import StakeLedger.Proofs.Interchange
import StakeLedger.Proofs.Permanence
import StakeLedger.Proofs.Restitution
import StakeLedger.Proofs.Cancellation
import StakeLedger.Proofs.Firing
import StakeLedger.Proofs.Doubles
import StakeLedger.Proofs.Retries
import StakeLedger.Proofs.TriggerAddresses
import StakeLedger.Proofs.Updates
import StakeLedger.Proofs.RemoteSweeps
import StakeLedger.Proofs.Foreseen
import StakeLedger.Proofs.ReadNumbers
import StakeLedger.Proofs.ServiceFaults
import StakeLedger.Proofs.CommandFaults
import StakeLedger.Proofs.ExitCodes
import StakeLedger.Proofs.Minutes
import StakeLedger.Proofs.TimedDeltas
import StakeLedger.Proofs.VotingPower
import StakeLedger.Proofs.LockedBonus
import StakeLedger.Proofs.RetryDelays
import StakeLedger.Proofs.RetryCalls
import StakeLedger.Proofs.TriggerKeys
import StakeLedger.Proofs.ServiceUrls
import StakeLedger.Proofs.StakedAmounts
import StakeLedger.Proofs.PercentTexts
import StakeLedger.Proofs.PathsBelow
import StakeLedger.Proofs.UpdateRequests
import StakeLedger.Proofs.Notes
import StakeLedger.Proofs.Attribution
