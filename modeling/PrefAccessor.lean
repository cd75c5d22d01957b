import PrefAccessor.Accessor
import PrefAccessor.AccessorClass
import PrefAccessor.Annotation
import PrefAccessor.Build
import PrefAccessor.ClassOrder
import PrefAccessor.CommandLine.Arguments
import PrefAccessor.CommandLine.Console
import PrefAccessor.CommandLine.Run
import PrefAccessor.Diagnostic
import PrefAccessor.Entries
import PrefAccessor.Fault
import PrefAccessor.FileTree
import PrefAccessor.Generator
import PrefAccessor.Json.Display
import PrefAccessor.Json.Reader
import PrefAccessor.Json.Value
import PrefAccessor.Json.Writer
import PrefAccessor.Main
import PrefAccessor.Naming
import PrefAccessor.Number.Binary64
import PrefAccessor.Number.Decimal
import PrefAccessor.Number.Numeral
import PrefAccessor.Number.Shortest
import PrefAccessor.Pass
import PrefAccessor.Path
import PrefAccessor.PrefType
import PrefAccessor.Reference
import PrefAccessor.Registry
import PrefAccessor.Sample
import PrefAccessor.Schema.Basic
import PrefAccessor.Schema.Declaration
import PrefAccessor.Schema.Document
import PrefAccessor.Schema.Error
import PrefAccessor.Schema.Source
import PrefAccessor.Settings.Basic
import PrefAccessor.Settings.Layer
import PrefAccessor.Settings.Warning
import PrefAccessor.Sink
import PrefAccessor.Store.Memory
import PrefAccessor.Store.Request
import PrefAccessor.Target
import PrefAccessor.Target.Kotlin
import PrefAccessor.Target.Python
import PrefAccessor.Text.Basic
import PrefAccessor.Text.Blank
import PrefAccessor.Text.Case
import PrefAccessor.Text.CaseTable
import PrefAccessor.Text.CodePoint
import PrefAccessor.Text.Digit
import PrefAccessor.Text.FileName
import PrefAccessor.Text.Identifier
import PrefAccessor.Text.IdentifierTable
import PrefAccessor.Text.Layout
import PrefAccessor.Text.Lines
import PrefAccessor.Text.Printable
import PrefAccessor.Text.PrintableTable
import PrefAccessor.Text.Quoted
import PrefAccessor.Text.Ranges
import PrefAccessor.Traced
import PrefAccessor.TypeName
import PrefAccessor.Proofs.AccessorName
import PrefAccessor.Proofs.Extraction
import PrefAccessor.Proofs.Contribution
import PrefAccessor.Proofs.ReadingFault
import PrefAccessor.Proofs.PassFault
import PrefAccessor.Proofs.PassAppend
import PrefAccessor.Proofs.AccessorRefinement
import PrefAccessor.Proofs.NameCharacters
import PrefAccessor.Proofs.PythonLiteral
import PrefAccessor.Proofs.PythonStatement
import PrefAccessor.Proofs.AccessorMap
import PrefAccessor.Proofs.LastText
import PrefAccessor.Proofs.MethodText
import PrefAccessor.Proofs.ArtifactPath
import PrefAccessor.Proofs.EncodedText
import PrefAccessor.Proofs.CodeReading
import PrefAccessor.Proofs.PythonReading
import PrefAccessor.Proofs.Erasure
import PrefAccessor.Proofs.PythonOutline
import PrefAccessor.Proofs.KotlinReading
import PrefAccessor.Proofs.KotlinOutline
import PrefAccessor.Proofs.KotlinLiteral
import PrefAccessor.Proofs.Confinement
import PrefAccessor.Proofs.KotlinComment
import PrefAccessor.Proofs.LayerPrecedence
import PrefAccessor.Proofs.PackageInheritance
import PrefAccessor.Proofs.EntryForm
import PrefAccessor.Proofs.DocumentForm
import PrefAccessor.Proofs.DeclarationAgreement
import PrefAccessor.Proofs.IntegerLiteral
import PrefAccessor.Proofs.SinkAgreement
import PrefAccessor.Proofs.RegistryStates
import PrefAccessor.Proofs.EarlyStop
import PrefAccessor.Proofs.ClassName
import PrefAccessor.Proofs.StoreHistory
import PrefAccessor.Proofs.DocString
import PrefAccessor.Proofs.PythonString
import PrefAccessor.Proofs.CommandRun
import PrefAccessor.Proofs.LineGaps
import PrefAccessor.Proofs.AccessorGroups
import PrefAccessor.Proofs.Grouping
import PrefAccessor.Proofs.SharedKeys
import PrefAccessor.Proofs.DefaultLiteral
import PrefAccessor.Proofs.NormalType
import PrefAccessor.Proofs.ResolvedType
import PrefAccessor.Proofs.AttributeField
import PrefAccessor.Proofs.ResolutionOrder
import PrefAccessor.Proofs.InheritedAnnotation
import PrefAccessor.Proofs.NewestAnnotation
import PrefAccessor.Proofs.SavedFile
import PrefAccessor.Proofs.LongNumeral
import PrefAccessor.Proofs.FileFault
import PrefAccessor.Proofs.NameRewriting
import PrefAccessor.Proofs.NameForm
import PrefAccessor.Proofs.CheckedSettings
