import NetRelocation.Main
import NetRelocation.Relocation.Memory
import NetRelocation.Subscription.Followers
import NetRelocation.Proofs.Calls
import NetRelocation.Proofs.Loops
import NetRelocation.Proofs.Bookkeeping
import NetRelocation.Proofs.Ledger
import NetRelocation.Proofs.Conversation
import NetRelocation.Proofs.FailedAttach
import NetRelocation.Proofs.Following
import NetRelocation.Proofs.ExactlyOnce
import NetRelocation.Proofs.FeedEvents
import NetRelocation.Proofs.MemoryMoves
import NetRelocation.Proofs.Returns
import NetRelocation.Proofs.InsideNames
import NetRelocation.Proofs.EnteredOnce
import NetRelocation.Proofs.RoundTrip
import NetRelocation.Proofs.MovingIn
import NetRelocation.Proofs.TakingBack
import NetRelocation.Proofs.Turns
import NetRelocation.Proofs.Rules
import NetRelocation.Proofs.LastWriter
import NetRelocation.Proofs.Overtaken
import NetRelocation.Proofs.Redelivery
import NetRelocation.Proofs.Territory
import NetRelocation.Proofs.Undisturbed
import NetRelocation.Proofs.Phases
import NetRelocation.Proofs.Protocol
import NetRelocation.Proofs.Configurations
import NetRelocation.Proofs.AttachProtocol
import NetRelocation.Proofs.DetachProtocol
import NetRelocation.Proofs.LeftDown
import NetRelocation.Proofs.OutgoingNames
import NetRelocation.Proofs.RestartBudget
import NetRelocation.Proofs.Cancellation
import NetRelocation.Proofs.StaleTails
import NetRelocation.Proofs.AddressText
import NetRelocation.Proofs.Codecs
import NetRelocation.Proofs.Decoded
import NetRelocation.Proofs.Interruptions
import NetRelocation.Proofs.Serialization
import NetRelocation.Proofs.LinkCount
import NetRelocation.Proofs.Snapshots
import NetRelocation.Proofs.EventTexts
import NetRelocation.Proofs.Batches
import NetRelocation.Proofs.HardwareTexts
import NetRelocation.Proofs.MoveRequests
import NetRelocation.Proofs.OptionWords
import NetRelocation.Proofs.Earlier
import NetRelocation.Proofs.CommandRuns
import NetRelocation.Proofs.ByHand
import NetRelocation.Proofs.PathSpelling
import NetRelocation.Proofs.SpelledRuns
import NetRelocation.Proofs.OutsideStrings
import NetRelocation.Proofs.TextBytes
import NetRelocation.Proofs.InvalidBytes
import NetRelocation.Proofs.AnyJson
import NetRelocation.Proofs.RecordTexts
import NetRelocation.Proofs.ConfigLayers
import NetRelocation.Proofs.Trimming
import NetRelocation.Proofs.AddressLists
import NetRelocation.Proofs.SignedNumerals
import NetRelocation.Proofs.NamespaceTexts
