import OpenApiZod.Identifier
import OpenApiZod.ReferenceGraph
import OpenApiZod.Route
import OpenApiZod.Document
import OpenApiZod.Summary
import OpenApiZod.Json.Source
import OpenApiZod.Shape
import OpenApiZod.Text.Blank
import OpenApiZod.Yaml.Token
import OpenApiZod.Config
import OpenApiZod.Format
import OpenApiZod.Output
import OpenApiZod.Json.Pretty
import OpenApiZod.Yaml.Printer
import OpenApiZod.Command
import OpenApiZod.Main
import OpenApiZod.Proofs.CycleSearch
import OpenApiZod.Proofs.CycleGroups
import OpenApiZod.Proofs.Conversion
import OpenApiZod.Proofs.Generation
import OpenApiZod.Proofs.MissingShapes
import OpenApiZod.Proofs.ImportPaths
import OpenApiZod.Proofs.Locality
import OpenApiZod.Proofs.FromClauses
import OpenApiZod.Proofs.Numerals
import OpenApiZod.Proofs.Phrase
import OpenApiZod.Proofs.Sentences
import OpenApiZod.Proofs.ReadBack
import OpenApiZod.Proofs.Tables
import OpenApiZod.Proofs.RecordedReferences
import OpenApiZod.Proofs.ClosedCycles
import OpenApiZod.Proofs.OperationImports
import OpenApiZod.Proofs.MergedOperations
import OpenApiZod.Proofs.RouteNames
import OpenApiZod.Proofs.PathNames
import OpenApiZod.Proofs.Writing
import OpenApiZod.Proofs.CompiledFiles
import OpenApiZod.Proofs.SharedPlaces
import OpenApiZod.Proofs.LoadedModules
import OpenApiZod.Proofs.GenerateCommand
import OpenApiZod.Proofs.ReportedCycles
import OpenApiZod.Proofs.ClosingReferences
import OpenApiZod.Proofs.ComponentPointers
import OpenApiZod.Proofs.ImportAliases
import OpenApiZod.Proofs.Spellings
import OpenApiZod.Proofs.ConversionRun
import OpenApiZod.Proofs.InlineConversion
import OpenApiZod.Proofs.FreeNames
import OpenApiZod.Proofs.IndexNames
import OpenApiZod.Proofs.OperationDirectories
import OpenApiZod.Proofs.Comments
import OpenApiZod.Proofs.Namespaces
import OpenApiZod.Proofs.RelatedFields
import OpenApiZod.Proofs.BareValues
import OpenApiZod.Proofs.BareDocuments
import OpenApiZod.Proofs.ReferenceSiblings
import OpenApiZod.Proofs.ShapeTrees
import OpenApiZod.Proofs.InterfaceShapes
import OpenApiZod.Proofs.NormalShapes
import OpenApiZod.Proofs.KeywordFields
import OpenApiZod.Proofs.Constants
import OpenApiZod.Proofs.ReadSchemas
import OpenApiZod.Proofs.Bounds
import OpenApiZod.Proofs.WrittenFiles
import OpenApiZod.Proofs.GenerationRun
import OpenApiZod.Proofs.PathBindings
