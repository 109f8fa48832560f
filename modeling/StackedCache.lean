import StackedCache.Simulation.Setup
import StackedCache.Redis.Config
import StackedCache.Proofs.Concurrency.Sources
import StackedCache.Proofs.Refinement
import StackedCache.Proofs.Staleness
import StackedCache.Proofs.MemoryHistory
import StackedCache.Proofs.Isolation
import StackedCache.Proofs.WriteTtls
import StackedCache.Proofs.ReadPaths
import StackedCache.Proofs.LoaderErrors
import StackedCache.Proofs.Concurrency.Deletion
import StackedCache.Proofs.MemoryReports
import StackedCache.Proofs.Concurrency.HandedErrors
import StackedCache.Proofs.FanOut
import StackedCache.Proofs.SplitReads
import StackedCache.Proofs.RedisLifetimes
import StackedCache.Proofs.BuiltCaches
import StackedCache.Proofs.JitterBounds
import StackedCache.Proofs.ConfigurationEdits
