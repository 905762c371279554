import PartCatalog.Main
import PartCatalog.Proofs.AllCombinations
import PartCatalog.Proofs.AssignmentOrder
import PartCatalog.Proofs.ChoiceSizes
import PartCatalog.Proofs.ClassErrors
import PartCatalog.Proofs.CollectionOrder
import PartCatalog.Proofs.CommonAssignments
import PartCatalog.Proofs.CommonLists
import PartCatalog.Proofs.ContactPatterns
import PartCatalog.Proofs.ElementNames
import PartCatalog.Proofs.EntryOrder
import PartCatalog.Proofs.FilledRepositories
import PartCatalog.Proofs.FixedLiterals
import PartCatalog.Proofs.Incantations
import PartCatalog.Proofs.IndexKeys
import PartCatalog.Proofs.IntegerPlaceholders
import PartCatalog.Proofs.JsonValues
import PartCatalog.Proofs.LastWriter
import PartCatalog.Proofs.LiteralKeys
import PartCatalog.Proofs.LoadFailures
import PartCatalog.Proofs.MixedRadix
import PartCatalog.Proofs.NamedNumbers
import PartCatalog.Proofs.NamingLaws
import PartCatalog.Proofs.RepeatedIds
import PartCatalog.Proofs.SchemaVerdicts
import PartCatalog.Proofs.ServedClasses
import PartCatalog.Proofs.SharedChoices
import PartCatalog.Proofs.ShortestDigits
import PartCatalog.Proofs.TableSwaps
import PartCatalog.Proofs.TableTyping
import PartCatalog.Proofs.TrailingNumbers
import PartCatalog.Proofs.UnionAlgebra
import PartCatalog.Proofs.UnionConflicts
import PartCatalog.Proofs.UnionResolve
