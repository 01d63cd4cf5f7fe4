import FlatLayout.CommandLine.Arguments
import FlatLayout.CommandLine.Run
import FlatLayout.Config
import FlatLayout.Decimal.Binary
import FlatLayout.Decimal.Shortest
import FlatLayout.Decl.Basic
import FlatLayout.Decl.Conditional
import FlatLayout.Decl.Json
import FlatLayout.Decl.Marker
import FlatLayout.Decl.Printer
import FlatLayout.Decl.TypeRef
import FlatLayout.Json.Basic
import FlatLayout.Json.Decode
import FlatLayout.Json.Numeral
import FlatLayout.Json.Reader
import FlatLayout.Json.Writer
import FlatLayout.Layout.Alignment
import FlatLayout.Layout.Binding
import FlatLayout.Layout.Catalog
import FlatLayout.Layout.Check
import FlatLayout.Layout.Error
import FlatLayout.Layout.FlatStruct
import FlatLayout.Layout.Marked
import FlatLayout.Layout.Memo
import FlatLayout.Layout.PlacedMember
import FlatLayout.Layout.Placement
import FlatLayout.Layout.Primitive
import FlatLayout.Layout.QualName
import FlatLayout.Layout.Rule
import FlatLayout.Layout.Word
import FlatLayout.Layout.Workbench
import FlatLayout.Log
import FlatLayout.Main
import FlatLayout.Project
import FlatLayout.Report
import FlatLayout.Table
import FlatLayout.Terminal
import FlatLayout.Terminal.Control
import FlatLayout.Text.Affix
import FlatLayout.Text.Blank
import FlatLayout.Text.LetterCase
import FlatLayout.Text.Lower
import FlatLayout.Text.Number
import FlatLayout.Text.Quoted
import FlatLayout.Text.Ranges
import FlatLayout.Text.Unprintable
import FlatLayout.Proofs.Spots
import FlatLayout.Proofs.ByValue
import FlatLayout.Proofs.Memoisation
import FlatLayout.Proofs.Promotion
import FlatLayout.Proofs.AccessorTargets
import FlatLayout.Proofs.TypeTree
import FlatLayout.Proofs.Composition
import FlatLayout.Proofs.Rounding
import FlatLayout.Proofs.Emission
import FlatLayout.Proofs.Containment
import FlatLayout.Proofs.CLayout
import FlatLayout.Proofs.Origins
import FlatLayout.Proofs.Reflattening
import FlatLayout.Proofs.Rewriting
import FlatLayout.Proofs.Resemblance
import FlatLayout.Proofs.Unmarked
import FlatLayout.Proofs.Termination
import FlatLayout.Proofs.ExactLayout
import FlatLayout.Proofs.MemberNames
import FlatLayout.Proofs.Success
import FlatLayout.Proofs.NestingModes
import FlatLayout.Proofs.KeptTogether
import FlatLayout.Proofs.DependencyOrder
import FlatLayout.Proofs.Growth
import FlatLayout.Proofs.Treatment
import FlatLayout.Proofs.Patch
import FlatLayout.Proofs.Finished
import FlatLayout.Proofs.Exactness
import FlatLayout.Proofs.Locality
import FlatLayout.Proofs.Exchange
import FlatLayout.Proofs.LaterUnits
import FlatLayout.Proofs.UnitOrder
import FlatLayout.Proofs.DeclaredOffsets
import FlatLayout.Proofs.PrintedLines
import FlatLayout.Proofs.Directives
import FlatLayout.Proofs.Publication
import FlatLayout.Proofs.WrittenJson
import FlatLayout.Proofs.Decoding
import FlatLayout.Proofs.UnitJson
import FlatLayout.Proofs.Sequential
import FlatLayout.Proofs.PathAlignment
import FlatLayout.Proofs.FieldOrder
import FlatLayout.Proofs.MemberOrder
import FlatLayout.Proofs.EmittedStorage
import FlatLayout.Proofs.Acceptance
import FlatLayout.Proofs.EmittedMembers
import FlatLayout.Proofs.NameClashes
import FlatLayout.Proofs.Renumbering
import FlatLayout.Proofs.Sugar
import FlatLayout.Proofs.OverlapReport
import FlatLayout.Proofs.TypeSyntax
import FlatLayout.Proofs.LexicalScopes
import FlatLayout.Proofs.Inspection
import FlatLayout.Proofs.Selection
import FlatLayout.Proofs.TargetSymbols
import FlatLayout.Proofs.Consistency
import FlatLayout.Proofs.RectangularTables
