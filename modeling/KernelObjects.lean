import KernelObjects.Session.Reports
import KernelObjects.Proofs.Failures
import KernelObjects.Proofs.Navigation
import KernelObjects.Proofs.Repeatable
import KernelObjects.Proofs.Spans
import KernelObjects.Proofs.Tables
import KernelObjects.Proofs.ReadTargets
import KernelObjects.Proofs.CacheChain
import KernelObjects.Proofs.CacheNames
import KernelObjects.Proofs.CacheFaults
import KernelObjects.Proofs.Arena
import KernelObjects.Proofs.Annotations
import KernelObjects.Proofs.Effects
import KernelObjects.Proofs.Lasting
import KernelObjects.Proofs.Registrations
import KernelObjects.Proofs.ModuleRuns
import KernelObjects.Proofs.Owners
import KernelObjects.Proofs.ContainerQueries
import KernelObjects.Proofs.Edits
import KernelObjects.Proofs.UseLists
import KernelObjects.Proofs.CacheGrowth
import KernelObjects.Proofs.FieldPlacement
import KernelObjects.Proofs.NaturalAlignment
import KernelObjects.Proofs.OffsetMaps
import KernelObjects.Proofs.ElementTypes
import KernelObjects.Proofs.Embeddings
import KernelObjects.Proofs.SecurityFlags
import KernelObjects.Proofs.Actions
import KernelObjects.Proofs.Largest
import KernelObjects.Proofs.Checks
import KernelObjects.Proofs.Journals
import KernelObjects.Proofs.LeakSites
import KernelObjects.Proofs.AllocCaches
import KernelObjects.Proofs.LastSettings
import KernelObjects.Proofs.SizeClasses
