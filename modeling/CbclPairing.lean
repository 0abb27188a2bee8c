import CbclPairing.Codec.Octets
import CbclPairing.Codec.Cbor
import CbclPairing.Codec.CborLaws
import CbclPairing.Calls
import CbclPairing.Primitives
import CbclPairing.Wire
import CbclPairing.CredentialV2.Object
import CbclPairing.CredentialV2.Frame
import CbclPairing.CredentialV2.Carrier
import CbclPairing.Cpace
import CbclPairing.CredentialV2.Channel
import CbclPairing.CredentialV2.Display
import CbclPairing.CredentialV2.Endpoint
import CbclPairing.CredentialV2.History
import CbclPairing.CredentialV2.Checkpoint
import CbclPairing.CredentialV2.Bootstrap
import CbclPairing.CredentialV2.Allocator
import CbclPairing.CredentialV2.AllocatorSteps
import CbclPairing.CredentialV2.Restored
import CbclPairing.CredentialV2.AllocatorRuns
import CbclPairing.CredentialV2.Barrier
import CbclPairing.CredentialV2.Claimant
import CbclPairing.Recovery
import CbclPairing.CredentialV2.AllocatorRecovery
import CbclPairing.CredentialV2.Capacity
import CbclPairing.CredentialV2.AllocatorProgress
import CbclPairing.CredentialV2.Exposure
import CbclPairing.CredentialV2.Releases
import CbclPairing.CredentialV2.Guess
import CbclPairing.CredentialV2.ClaimantSteps
import CbclPairing.CredentialV2.ReceiptRuns
import CbclPairing.Relay.Mailbox
import CbclPairing.Relay.MailboxSteps
import CbclPairing.Relay.MailboxRuns
import CbclPairing.Relay.Delivery
import CbclPairing.Relay.Storage
import CbclPairing.Tables
import CbclPairing.Relay.Service
import CbclPairing.Relay.Indexes
import CbclPairing.Relay.ServiceSteps
import CbclPairing.Relay.Outcomes
import CbclPairing.Relay.Batches
import CbclPairing.Relay.Loader
import CbclPairing.Relay.ServiceRuns
import CbclPairing.Relay.Restart
import CbclPairing.Relay.Isolation
import CbclPairing.Relay.Notices
import CbclPairing.Relay.LoadedRecords
import CbclPairing.Relay.ProtectedAdmission
import CbclPairing.Relay.LimiterBounds
import CbclPairing.Codec.Cddl
import CbclPairing.Wire.Grammar
import CbclPairing.Wire.Codecs
import CbclPairing.Wire.Formats
import CbclPairing.Wire.RelayMessages
import CbclPairing.Wire.RoundTrip
import CbclPairing.CredentialV2.BootstrapBinding
import CbclPairing.CredentialV2.Inspection
import CbclPairing.CredentialV2.Transfer
import CbclPairing.CredentialV2.PresenceOnce
import CbclPairing.Pairing.Readiness
import CbclPairing.CpaceAgreement
import CbclPairing.Pairing.Invitation
import CbclPairing.Pairing.RoleKeys
import CbclPairing.CredentialV2.OfferDisplay
import CbclPairing.Pairing.Termination
import CbclPairing.StopAndWait
import CbclPairing.CredentialV2.Sequences
import CbclPairing.CredentialV2.ClaimantProgress
import CbclPairing.CredentialV2.ClaimantFailures
import CbclPairing.CredentialV2.ClaimantAtomicity
import CbclPairing.CredentialV2.Absorbing
import CbclPairing.Wire.Encoded
import CbclPairing.Transport
import CbclPairing.Pairing.LocalSends
import CbclPairing.CredentialV2.ClaimantOrder
import CbclPairing.CredentialV2.ArrivalOrder
import CbclPairing.CredentialV2.AccountSelect
import CbclPairing.CredentialV2.Encodings
import CbclPairing.PercentEncoding
import CbclPairing.CredentialV2.ApplicationId
import CbclPairing.CredentialV2.TransferTexts
import CbclPairing.BitPacking
import CbclPairing.Bisection
import CbclPairing.CredentialV2.PresenceText
import CbclPairing.CredentialV2.HumanCodes
import CbclPairing.Relay.Sweeps
import CbclPairing.RecencyOrder
import CbclPairing.Relay.LimiterOrder
import CbclPairing.Relay.Nameplates
import CbclPairing.Wire.ServerReplies
import CbclPairing.Relay.Replies
import CbclPairing.Pairing.Profiles
import CbclPairing.Pairing.ProfileClaims
import CbclPairing.Pairing.ProfileGrants
import CbclPairing.Pairing.ControlScanner
import CbclPairing.Wire.ApplicationGrammar
import CbclPairing.ChannelNonces
import CbclPairing.GeneratorMap
import CbclPairing.ChannelOrder
import CbclPairing.Disks
import CbclPairing.Relay.FileRecovery
import CbclPairing.Relay.Observability
import CbclPairing.CredentialV2.Nonces
import CbclPairing.CredentialV2.ClaimantReleases
import CbclPairing.Relay.ProcessDelivery
