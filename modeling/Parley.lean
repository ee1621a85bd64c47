import Parley.Client.Client
import Parley.Connection.Endpoint
import Parley.Proofs.ActionQueue.Order
import Parley.Proofs.Chat.Calls
import Parley.Proofs.Chat.Conversation
import Parley.Proofs.Chat.Listener
import Parley.Proofs.Chat.LongLines
import Parley.Proofs.Chat.Relay
import Parley.Proofs.Chat.Replies
import Parley.Proofs.Chat.Speech
import Parley.Proofs.Client.Account
import Parley.Proofs.Client.Conduct
import Parley.Proofs.Client.Incidents
import Parley.Proofs.Client.Leaving
import Parley.Proofs.Client.Objects
import Parley.Proofs.Client.Outcomes
import Parley.Proofs.Client.Reading
import Parley.Proofs.Client.Stays
import Parley.Proofs.Client.Stretches
import Parley.Proofs.Connection.Attention
import Parley.Proofs.Connection.Channel
import Parley.Proofs.Dispatch.Report
import Parley.Proofs.Network.Absence
import Parley.Proofs.Network.AwayTexts
import Parley.Proofs.Network.Books
import Parley.Proofs.Network.Correlation
import Parley.Proofs.Network.Delivery
import Parley.Proofs.Network.FrameLimit
import Parley.Proofs.Network.Journal
import Parley.Proofs.Network.LongLines
import Parley.Proofs.Network.Order
import Parley.Proofs.Network.Pictures
import Parley.Proofs.Network.Readers
import Parley.Proofs.Network.Requests
import Parley.Proofs.Network.Seats
import Parley.Proofs.Network.Utterances
import Parley.Proofs.Network.Voices
import Parley.Proofs.Readiness.Escalation
import Parley.Proofs.Server.Confinement
import Parley.Proofs.Server.Gate
import Parley.Proofs.Server.Runtime
import Parley.Proofs.Server.Traffic
import Parley.Proofs.Wire.Chunks
import Parley.Proofs.Wire.Decoder
import Parley.Proofs.Wire.Grammar
import Parley.Proofs.Wire.RoundTrip
import Parley.Readiness.Script
import Parley.Server.Config
import Parley.Server.Host
import Parley.Proofs.Chat.Fates
import Parley.Proofs.Server.Logon
import Parley.Proofs.Connection.Agreement
import Parley.Proofs.Connection.Batch
import Parley.Proofs.Wire.Truncation
import Parley.Proofs.Readiness.Backlog
import Parley.Proofs.Dispatch.Resolution
import Parley.Proofs.Dispatch.Registration
import Parley.Proofs.Dispatch.Failure
import Parley.Proofs.Descriptor
import Parley.Proofs.Chat.Hearing
import Parley.Proofs.Client.Farewell
import Parley.Proofs.Dispatch.Switchboard
import Parley.Proofs.Wire.Nesting
