import SetAssociative.Cache.Operations
import SetAssociative.CacheSet.Operations
import SetAssociative.Config.Document
import SetAssociative.Json.Value
import SetAssociative.Replacement.Events
import SetAssociative.Proofs.PinnedResidency
import SetAssociative.Proofs.EvictionOrder
import SetAssociative.Proofs.SetProjection
import SetAssociative.Proofs.Occupancy
import SetAssociative.Proofs.UnpinnedSets
import SetAssociative.Proofs.RecencyStack
import SetAssociative.Proofs.ReuseDistance
import SetAssociative.Proofs.CyclicAccess
import SetAssociative.Proofs.LoopResidency
import SetAssociative.Proofs.LoopRuns
import SetAssociative.Proofs.CounterLedger
import SetAssociative.Proofs.WritebackConservation
import SetAssociative.Proofs.SetIndependence
import SetAssociative.Proofs.FillOrder
import SetAssociative.Proofs.CorrespondingSets
import SetAssociative.Proofs.CorrespondingRuns
import SetAssociative.Proofs.WriteFlags
import SetAssociative.Proofs.TagRenaming
import SetAssociative.Proofs.ColdMisses
import SetAssociative.Proofs.ReportingParameters
import SetAssociative.Proofs.AccessLaw
import SetAssociative.Proofs.ExactCapacity
import SetAssociative.Proofs.StringSpelling
import SetAssociative.Proofs.NumeralSpelling
import SetAssociative.Proofs.ValueSkipping
import SetAssociative.Proofs.FieldValues
import SetAssociative.Checked.Arithmetic
import SetAssociative.Checked.Replacement
import SetAssociative.Proofs.KeyedDocuments
import SetAssociative.Checked.Cache
import SetAssociative.Proofs.CheckedReplacement
import SetAssociative.Proofs.CheckedRuns
import SetAssociative.Proofs.TurnFairness
import SetAssociative.Proofs.SelectionHistory
import SetAssociative.Proofs.FailedAccesses
import SetAssociative.Proofs.FlushByInvalidation
import SetAssociative.Proofs.PhaseEvictions
import SetAssociative.Proofs.SecondChance
import SetAssociative.Proofs.TwoWayRecency
import SetAssociative.Proofs.AddressPlaces
import SetAssociative.Proofs.PositionalDocuments
import SetAssociative.Proofs.PolicyIdentifiers
import SetAssociative.Proofs.GeneratorCycle
import SetAssociative.Proofs.EqualShares
import SetAssociative.Proofs.SetSeeds
