import Muduo.Lib.Framing
import Muduo.Proofs.LogRecords
import Muduo.Proofs.BoundedQueue
import Muduo.Proofs.PoolStops
import Muduo.Proofs.BufferQueue
import Muduo.Proofs.HttpServing
import Muduo.Proofs.KeepAlive
import Muduo.Proofs.PollRemoval
import Muduo.Proofs.Removals
import Muduo.Proofs.Pollers
import Muduo.Proofs.Quits
import Muduo.Proofs.Attempts
import Muduo.Proofs.Stops
import Muduo.Windows.Client
import Muduo.Proofs.Readers
import Muduo.Proofs.Codec
import Muduo.Proofs.Replies
import Muduo.Proofs.Messages
import Muduo.Proofs.Corrupt
import Muduo.Proofs.Bills
import Muduo.Proofs.Answers
import Muduo.Proofs.Interest
import Muduo.Proofs.Drops
import Muduo.Proofs.RoundTrips
import Muduo.Proofs.Arming
import Muduo.Proofs.Batches
import Muduo.Proofs.ConnectionRuns
import Muduo.Proofs.Closing
import Muduo.Proofs.ServerRuns
import Muduo.Proofs.Lifetimes
import Muduo.Proofs.SendOrder
import Muduo.Base.AsyncLogging
import Muduo.Proofs.LogRendering
import Muduo.Proofs.ResponseStream
import Muduo.Proofs.ConnectionNames
import Muduo.Proofs.Decryptions
import Muduo.Proofs.AccountIds
import Muduo.Proofs.FixedWidth
import Muduo.Proofs.BillPaging
import Muduo.Proofs.MoneyField
import Muduo.Proofs.SplicedFields
import Muduo.Proofs.MoneyEditing
import Muduo.Proofs.LogRolling
import Muduo.Proofs.PieceLengths
import Muduo.Proofs.IdeaInverse
import Muduo.Proofs.CipherStreams
import Muduo.Proofs.Digests
import Muduo.Proofs.AuditTrail
import Muduo.Proofs.Reconciliation
import Muduo.Proofs.HubWire
import Muduo.Proofs.ClientNumbers
import Muduo.Proofs.Packets
import Muduo.Proofs.Latches
import Muduo.Proofs.IdleConnections
import Muduo.Proofs.SortedLists
import Muduo.Proofs.ChatMessages
import Muduo.Proofs.FastCgiRequests
import Muduo.Proofs.WordCounts
