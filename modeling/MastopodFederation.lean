import MastopodFederation.Guarantees.NoLostJob
import MastopodFederation.Guarantees.SingleDelivery
import MastopodFederation.Guarantees.SlotCounter
import MastopodFederation.Guarantees.FirstEnqueue
import MastopodFederation.Guarantees.CompletedIntent
import MastopodFederation.Guarantees.BlindAddressing
import MastopodFederation.Guarantees.VisibilityAgreement
import MastopodFederation.Guarantees.SignatureBinding
import MastopodFederation.Guarantees.SignedDeliveries
import MastopodFederation.Guarantees.ActorVouching
import MastopodFederation.Guarantees.BridgeRedelivery
import MastopodFederation.Guarantees.BatchRetry
import MastopodFederation.Guarantees.NoEcho
import MastopodFederation.Guarantees.ReconciliationCustody
import MastopodFederation.Guarantees.ProofReplay
import MastopodFederation.Guarantees.NonceHandshake
import MastopodFederation.Guarantees.SingleUseCredentials
import MastopodFederation.Guarantees.FamilyRevocation
import MastopodFederation.Guarantees.FollowerReconciliation
import MastopodFederation.Guarantees.ReplayHandover
import MastopodFederation.Guarantees.IdentityUniqueness
import MastopodFederation.Guarantees.CommitChain
import MastopodFederation.Guarantees.LiveRecords
import MastopodFederation.Guarantees.TopicConvergence
import MastopodFederation.Guarantees.CommitAttribution
import MastopodFederation.Guarantees.FirehoseResume
import MastopodFederation.Guarantees.SubscriberStream
import MastopodFederation.Guarantees.RebuildContinuity
import MastopodFederation.Guarantees.HeadRevisions
import MastopodFederation.Guarantees.RegistryIndex
import MastopodFederation.Guarantees.MstMap
import MastopodFederation.Guarantees.MediaCustody
import MastopodFederation.Guarantees.ServedRecipients
import MastopodFederation.Guarantees.PublicFetches
import MastopodFederation.Guarantees.AccountActivation
import MastopodFederation.Guarantees.ActivityIndex
import MastopodFederation.Guarantees.ProjectionFrame
import MastopodFederation.Guarantees.StaleRecovery
import MastopodFederation.Guarantees.PayloadRoundTrip
import MastopodFederation.Guarantees.PoisonEntries
import MastopodFederation.Guarantees.DelayedPromotionRuns
import MastopodFederation.Guarantees.MstRoundTrip
import MastopodFederation.Guarantees.ConnectionTimers
import MastopodFederation.Guarantees.BulkWrites
import MastopodFederation.Guarantees.IndexAgreement
import MastopodFederation.Guarantees.AdvertisedDiffs
import MastopodFederation.Guarantees.DomainRates
import MastopodFederation.Guarantees.RecordKeyOrder
import MastopodFederation.Guarantees.AccountLinks
import MastopodFederation.Guarantees.BlockedDomains
import MastopodFederation.Guarantees.AliasUpdates
import MastopodFederation.Guarantees.ReplayWindow
import MastopodFederation.Guarantees.KvListing
import MastopodFederation.Guarantees.RecordPages
import MastopodFederation.Guarantees.FacetBounds
import MastopodFederation.Guarantees.TopicMatching
import MastopodFederation.Guarantees.CompactSignatures
