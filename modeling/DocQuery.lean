import DocQuery.Driver.Memory
import DocQuery.Driver.Script
import DocQuery.Proofs.ArrayOperators
import DocQuery.Proofs.Balance
import DocQuery.Proofs.Cache
import DocQuery.Proofs.CacheFrame
import DocQuery.Proofs.CacheHistory
import DocQuery.Proofs.CacheKey
import DocQuery.Proofs.CallOrder
import DocQuery.Proofs.Collections
import DocQuery.Proofs.Counter
import DocQuery.Proofs.CounterFlush
import DocQuery.Proofs.Distinct
import DocQuery.Proofs.EqualityFilters
import DocQuery.Proofs.EqualityOperands
import DocQuery.Proofs.Exclusion
import DocQuery.Proofs.Extremes
import DocQuery.Proofs.FailingChange
import DocQuery.Proofs.FieldLists
import DocQuery.Proofs.FieldReads
import DocQuery.Proofs.FilterHistory
import DocQuery.Proofs.Finalize
import DocQuery.Proofs.FindPipeline
import DocQuery.Proofs.Flattening
import DocQuery.Proofs.Frame
import DocQuery.Proofs.Grouping
import DocQuery.Proofs.HostLists
import DocQuery.Proofs.IdentifierText
import DocQuery.Proofs.InsertMany
import DocQuery.Proofs.InsertThenFind
import DocQuery.Proofs.Invalidation
import DocQuery.Proofs.LimitText
import DocQuery.Proofs.Links
import DocQuery.Proofs.ManyOperators
import DocQuery.Proofs.Masking
import DocQuery.Proofs.NamedFields
import DocQuery.Proofs.Negation
import DocQuery.Proofs.PaddedNames
import DocQuery.Proofs.Pages
import DocQuery.Proofs.ReadPaths
import DocQuery.Proofs.Roles
import DocQuery.Proofs.StableSort
import DocQuery.Proofs.Unconditioned
import DocQuery.Proofs.UpdateGroups
import DocQuery.Proofs.Upsert
import DocQuery.Proofs.WalkCache
import DocQuery.Proofs.WalkOrder
import DocQuery.Proofs.WalkProgress
import DocQuery.Proofs.WalkRequest
import DocQuery.Proofs.WrittenBack
import DocQuery.Query.Walk
import DocQuery.Request.Filters
import DocQuery.Request.Setting
import DocQuery.Settings.Source
