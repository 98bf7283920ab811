import NsfwDetector.Effects.Prog
import NsfwDetector.Effects.Run
import NsfwDetector.Effects.Environment
import NsfwDetector.Effects.Outline
import NsfwDetector.Effects.Play
import NsfwDetector.Effects.Sequential
import NsfwDetector.Effects.Replies
import NsfwDetector.Effects.Related
import NsfwDetector.Effects.Raising
import NsfwDetector.Files.Paths
import NsfwDetector.Text.Search
import NsfwDetector.Arith.Double
import NsfwDetector.Json.Value
import NsfwDetector.Json.Numbers
import NsfwDetector.Json.Decode
import NsfwDetector.Json.Scan
import NsfwDetector.Json.RoundTrip
import NsfwDetector.Json.Embedded
import NsfwDetector.Core.Constants
import NsfwDetector.Core.Errors
import NsfwDetector.Core.Models
import NsfwDetector.Core.Rows
import NsfwDetector.Moderation.Policy
import NsfwDetector.Moderation.Aggregation
import NsfwDetector.Moderation.Verdict
import NsfwDetector.Moderation.Merge
import NsfwDetector.Moderation.Maxima
import NsfwDetector.Moderation.ModelOutput
import NsfwDetector.Moderation.Salvage
import NsfwDetector.Moderation.Responses
import NsfwDetector.Moderation.Strictness
import NsfwDetector.Stores.Postgres
import NsfwDetector.Stores.Kvrocks
import NsfwDetector.Stores.JobCodec
import NsfwDetector.Stores.StreamReading
import NsfwDetector.Stores.Calls
import NsfwDetector.Services.Queue
import NsfwDetector.Services.RedisQueue
import NsfwDetector.Services.Processing
import NsfwDetector.Services.Worker
import NsfwDetector.Services.Detection
import NsfwDetector.Services.Pipeline
import NsfwDetector.Services.GpuModeration
import NsfwDetector.Services.Status
import NsfwDetector.Services.JobDirs
import NsfwDetector.Services.Probe
import NsfwDetector.Services.Auth
import NsfwDetector.Services.SignatureFraming
import NsfwDetector.Services.StatelessDetection
import NsfwDetector.Services.PromptFrame
import NsfwDetector.Services.FrameOrder
import NsfwDetector.System.Callers
import NsfwDetector.System.Transactions
import NsfwDetector.System.Footprint
import NsfwDetector.System.Past
import NsfwDetector.System.Publication
import NsfwDetector.System.Publishing
import NsfwDetector.System.Guarantees
import NsfwDetector.System.FailedMove
import NsfwDetector.System.Conditions
import NsfwDetector.System.Finality
import NsfwDetector.System.Completion
import NsfwDetector.Services.InMemoryQueue
import NsfwDetector.System.Marking
import NsfwDetector.System.OneWorker
import NsfwDetector.System.Accounting
import NsfwDetector.System.Replay
import NsfwDetector.System.Agreement
import NsfwDetector.System.Alone
import NsfwDetector.System.FrameRows
import NsfwDetector.System.StoredResults
import NsfwDetector.System.Retry
import NsfwDetector.System.Delivery
import NsfwDetector.System.Holding
import NsfwDetector.System.Loss
import NsfwDetector.Stores.Clickhouse
import NsfwDetector.Services.Flush
import NsfwDetector.System.Flushing
import NsfwDetector.System.Trimming
import NsfwDetector.System.Attempts
import NsfwDetector.System.Bans
import NsfwDetector.System.Enqueuing
import NsfwDetector.System.Durability
import NsfwDetector.System.Repositories
import NsfwDetector.System.Equivalence
import NsfwDetector.System.Content
import NsfwDetector.System.VideoIndex
import NsfwDetector.System.WorkIndex
import NsfwDetector.System.Verdicts
import NsfwDetector.System.Pairing
import NsfwDetector.System.StatusUpdates
import NsfwDetector.System.Likeness
import NsfwDetector.System.Secrecy
