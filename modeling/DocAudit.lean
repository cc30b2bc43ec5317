import DocAudit.Json.Reader
import DocAudit.Main
import DocAudit.Record.Settings
import DocAudit.Proofs.FirstMentions
import DocAudit.Proofs.Remarks
import DocAudit.Proofs.ReportOrder
import DocAudit.Proofs.Sorting
import DocAudit.Proofs.Ignoring
import DocAudit.Proofs.MergeOrder
import DocAudit.Proofs.Trimming
import DocAudit.Proofs.TypeNormalForm
import DocAudit.Proofs.CompleteDocstring
import DocAudit.Proofs.DiscoveredFiles
import DocAudit.Proofs.ExactReports
import DocAudit.Proofs.FieldGrammar
import DocAudit.Proofs.MachineReport
import DocAudit.Proofs.NothingToReport
import DocAudit.Proofs.ParameterReports
import DocAudit.Proofs.TypeReports
import DocAudit.Proofs.Brackets
import DocAudit.Proofs.Spacing
import DocAudit.Proofs.OptionalSpellings
import DocAudit.Proofs.FilesOnce
import DocAudit.Proofs.UnionSpellings
import DocAudit.Proofs.OrderReports
import DocAudit.Proofs.FieldReports
import DocAudit.Proofs.Interleaving
import DocAudit.Proofs.VisibleText
import DocAudit.Proofs.CleanText
import DocAudit.Proofs.FieldStarts
import DocAudit.Proofs.Lexemes
import DocAudit.Proofs.TokenOrder
import DocAudit.Proofs.Readings
import DocAudit.Proofs.DefinitionParts
import DocAudit.Proofs.FunctionWalk
import DocAudit.Proofs.ExtractedFunctions
import DocAudit.Proofs.DeclaredParameters
import DocAudit.Proofs.Receivers
import DocAudit.Proofs.StarredNames
import DocAudit.Proofs.ReturnReports
import DocAudit.Proofs.BrokenLines
import DocAudit.Proofs.Roles
import DocAudit.Proofs.CanonicalTypes
import DocAudit.Proofs.SingleFile
import DocAudit.Proofs.SpacingVariants
import DocAudit.Proofs.GenericArguments
import DocAudit.Proofs.PathOrder
import DocAudit.Proofs.ComparatorLaws
import DocAudit.Proofs.ReportLines
import DocAudit.Proofs.TabStops
import DocAudit.Proofs.StringLiterals
import DocAudit.Proofs.PendingField
import DocAudit.Proofs.PendingBlank
import DocAudit.Proofs.ReadingEnds
