import ReadThrough.Main
import ReadThrough.Proofs.Deed
import ReadThrough.Proofs.Entries
import ReadThrough.Proofs.Deeds.CacheSide
import ReadThrough.Proofs.Deeds.StoreSide
import ReadThrough.Proofs.Deeds.ClientSide
import ReadThrough.Proofs.Course
import ReadThrough.Proofs.Opening
import ReadThrough.Proofs.Tidy
import ReadThrough.Proofs.Balance
import ReadThrough.Proofs.Balanced
import ReadThrough.Proofs.Ownership
import ReadThrough.Proofs.Tickets
import ReadThrough.Proofs.Queues
import ReadThrough.Proofs.Growth
import ReadThrough.Proofs.Lines
import ReadThrough.Proofs.Pairing
import ReadThrough.Proofs.Service
import ReadThrough.Proofs.Sessions
import ReadThrough.Proofs.Task
import ReadThrough.Proofs.Tasks.Completion
import ReadThrough.Proofs.Tasks.Handlers
import ReadThrough.Proofs.Recency
import ReadThrough.Proofs.Tasks.Moves
import ReadThrough.Proofs.Roots
import ReadThrough.Proofs.Trails
import ReadThrough.Proofs.Belongs
import ReadThrough.Proofs.Underway
import ReadThrough.Proofs.Trailed
import ReadThrough.Proofs.Standing
import ReadThrough.Proofs.Tenure
import ReadThrough.Proofs.Parts
import ReadThrough.Proofs.Plans
import ReadThrough.Proofs.Resends
import ReadThrough.Proofs.Keys
import ReadThrough.Proofs.Lessons
import ReadThrough.Proofs.Vclocks
import ReadThrough.Proofs.Errands
import ReadThrough.Proofs.Precedence
import ReadThrough.Proofs.WriteOrder
import ReadThrough.Proofs.Given
import ReadThrough.Proofs.Acknowledgement
import ReadThrough.Proofs.Awaited
import ReadThrough.Proofs.Honesty
import ReadThrough.Proofs.Abandonment
import ReadThrough.Proofs.Sources
import ReadThrough.Proofs.Shares
import ReadThrough.Proofs.Contribution
import ReadThrough.Proofs.Ledger
import ReadThrough.Proofs.Aside
import ReadThrough.Proofs.Losses
import ReadThrough.Proofs.Reckoning
import ReadThrough.Proofs.Tallies
import ReadThrough.Proofs.Algebra
import ReadThrough.Proofs.Copies
import ReadThrough.Proofs.Sendings
import ReadThrough.Proofs.MemberSets
import ReadThrough.Proofs.Replacement
import ReadThrough.Proofs.Caching
import ReadThrough.Proofs.Torn
import ReadThrough.Proofs.Promises
import ReadThrough.Proofs.Unbroken
import ReadThrough.Proofs.Erasure
import ReadThrough.Proofs.Deletions
import ReadThrough.Proofs.Fates
import ReadThrough.Proofs.Teardown
import ReadThrough.Proofs.Containment
import ReadThrough.Proofs.Faults
import ReadThrough.Proofs.Responses
import ReadThrough.Proofs.Framing
import ReadThrough.Proofs.Delimited
import ReadThrough.Proofs.Records
import ReadThrough.Proofs.Requests
import ReadThrough.Proofs.Messages
import ReadThrough.Proofs.Measured
import ReadThrough.Proofs.Addressing
import ReadThrough.Proofs.Objects
import ReadThrough.Proofs.Readers
import ReadThrough.Proofs.Segments
import ReadThrough.Proofs.Incremental
import ReadThrough.Proofs.FrameStreams
import ReadThrough.Proofs.RoundTrip
import ReadThrough.Proofs.Unbuffered
import ReadThrough.Proofs.Buffers
import ReadThrough.Proofs.Intake
import ReadThrough.Proofs.Seamless
import ReadThrough.Proofs.Discarding
import ReadThrough.Proofs.Candidates
import ReadThrough.Proofs.Returned
import ReadThrough.Proofs.Scans
import ReadThrough.Proofs.Replicas
import ReadThrough.Proofs.CacheServers
import ReadThrough.Proofs.Questions
import ReadThrough.Proofs.Spellings
import ReadThrough.Proofs.Merging
import ReadThrough.Proofs.Lacing
import ReadThrough.Proofs.Conveyance
import ReadThrough.Proofs.ResponseFrames
import ReadThrough.Proofs.Rejection
import ReadThrough.Proofs.Components
import ReadThrough.Proofs.Gathering
import ReadThrough.Proofs.Completions
import ReadThrough.Proofs.Numerals
import ReadThrough.Proofs.Language
import ReadThrough.Proofs.Occurrences
import ReadThrough.Proofs.FetchedSets
import ReadThrough.Proofs.Lifetimes
import ReadThrough.Proofs.Boards
import ReadThrough.Proofs.Mailbox
