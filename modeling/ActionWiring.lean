import ActionWiring.Document.Reading
import ActionWiring.Document.Writing
import ActionWiring.Plan.Layout
import ActionWiring.Files.Tasks
import ActionWiring.Files.Workspace
import ActionWiring.CommandLine.Argument
import ActionWiring.CommandLine.Invocation
import ActionWiring.CommandLine.Usage
import ActionWiring.Main
import ActionWiring.Proofs.Lookups
import ActionWiring.Proofs.SupertypeWalk
import ActionWiring.Proofs.Outcomes
import ActionWiring.Proofs.TypeAlignment
import ActionWiring.Proofs.FieldSelection
import ActionWiring.Proofs.Qualifying
import ActionWiring.Proofs.Planning
import ActionWiring.Proofs.PlanContents
import ActionWiring.Proofs.PlanSuccess
import ActionWiring.Proofs.Additions
import ActionWiring.Proofs.Extension
import ActionWiring.Proofs.BuilderPairs
import ActionWiring.Proofs.Repeats
import ActionWiring.Proofs.SupertypeListing
import ActionWiring.Proofs.WrittenText
import ActionWiring.Proofs.WrittenRecords
import ActionWiring.Proofs.Reloading
import ActionWiring.Proofs.Reordering
import ActionWiring.Proofs.Inheritance
import ActionWiring.Proofs.ClassLines
import ActionWiring.Proofs.UnitLayout
import ActionWiring.Proofs.LiteralScanning
import ActionWiring.Proofs.LiteralReading
import ActionWiring.Proofs.PrintedNames
import ActionWiring.Proofs.WiringText
import ActionWiring.Proofs.SupertypeRecursion
import ActionWiring.Proofs.WalkSteps
import ActionWiring.Proofs.SlotAccess
import ActionWiring.Proofs.PlanFailures
import ActionWiring.Proofs.FileChanges
import ActionWiring.Proofs.TaskRuns
import ActionWiring.Proofs.TaskOutcomes
import ActionWiring.Proofs.ArgumentPlaces
import ActionWiring.Proofs.TypeLikeness
import ActionWiring.Proofs.FirstMisalignment
import ActionWiring.Proofs.FieldCollection
import ActionWiring.Proofs.BracketNesting
import ActionWiring.Proofs.TextRules
import ActionWiring.Proofs.TypeReading
import ActionWiring.Proofs.ClassNames
import ActionWiring.Proofs.ActionKeys
import ActionWiring.Proofs.OpenBlocks
import ActionWiring.Proofs.Indentation
import ActionWiring.Proofs.ScriptLevels
import ActionWiring.Proofs.Spacing
import ActionWiring.Proofs.SpelledTrees
import ActionWiring.Proofs.MemberOrder
import ActionWiring.Proofs.DraftSlots
import ActionWiring.Proofs.TypeMembers
import ActionWiring.Proofs.Rewriting
import ActionWiring.Proofs.BufferedRewriting
import ActionWiring.Proofs.OutermostTypes
import ActionWiring.Proofs.ReaderOutcomes
import ActionWiring.Proofs.SkippedTrees
import ActionWiring.Proofs.StreamedRewriting
import ActionWiring.Proofs.RewrittenDocuments
