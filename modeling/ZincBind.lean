import ZincBind.Bytes
import ZincBind.Command.Flags
import ZincBind.Command.Line
import ZincBind.Command.Log
import ZincBind.Command.Run
import ZincBind.Command.Sources
import ZincBind.Declaration.ArgType
import ZincBind.Declaration.Camel
import ZincBind.Declaration.File
import ZincBind.Declaration.Identifier
import ZincBind.Declaration.Parser
import ZincBind.Declaration.Predicate
import ZincBind.Delivery.Banner
import ZincBind.Delivery.Output
import ZincBind.Delivery.Print
import ZincBind.Document.Characters
import ZincBind.Document.Cursor
import ZincBind.Document.Lexeme
import ZincBind.Document.Node
import ZincBind.Document.Number
import ZincBind.Document.Tag
import ZincBind.Document.Timestamp
import ZincBind.Document.Token
import ZincBind.Document.TokenStream
import ZincBind.Emit.Imports
import ZincBind.Emit.ModuleFiles
import ZincBind.Emit.Options
import ZincBind.Emit.OutputFile
import ZincBind.Emit.PredicateFile
import ZincBind.Files.Glob
import ZincBind.Files.Path
import ZincBind.Files.Stream
import ZincBind.Files.System
import ZincBind.Files.Tree
import ZincBind.Main
import ZincBind.Proofs.Command.Effects
import ZincBind.Proofs.Command.Partition
import ZincBind.Proofs.Command.Preview
import ZincBind.Proofs.Command.Stages
import ZincBind.Proofs.Declaration.Camel
import ZincBind.Proofs.Declaration.Concatenation
import ZincBind.Proofs.Declaration.File
import ZincBind.Proofs.Declaration.Grammar
import ZincBind.Proofs.Declaration.LineEndings
import ZincBind.Proofs.Declaration.Rejection
import ZincBind.Proofs.Declaration.RoundTrip
import ZincBind.Proofs.Declaration.Shape
import ZincBind.Proofs.Declaration.TypeNames
import ZincBind.Proofs.Delivery.Banners
import ZincBind.Proofs.Delivery.Placement
import ZincBind.Proofs.Delivery.Printed
import ZincBind.Proofs.Delivery.Repetition
import ZincBind.Proofs.Delivery.Survival
import ZincBind.Proofs.Emit.Blocks
import ZincBind.Proofs.Emit.Code
import ZincBind.Proofs.Emit.EmittedCode
import ZincBind.Proofs.Emit.Execution
import ZincBind.Proofs.Emit.FieldNames
import ZincBind.Proofs.Emit.Hygiene
import ZincBind.Proofs.Emit.ImportBlocks
import ZincBind.Proofs.Emit.Lines
import ZincBind.Proofs.Emit.Names
import ZincBind.Proofs.Emit.Parts
import ZincBind.Proofs.Emit.Positions
import ZincBind.Proofs.Emit.Program
import ZincBind.Proofs.Emit.Recovery
import ZincBind.Proofs.Emit.UnitPaths
import ZincBind.Proofs.Emit.Variants
import ZincBind.Proofs.Emit.Wiring
import ZincBind.Proofs.Files.Cleaning
import ZincBind.Proofs.Files.Directories
import ZincBind.Proofs.Files.Paths
import ZincBind.Proofs.Files.Resolution
import ZincBind.Proofs.Settings.Validation
import ZincBind.Proofs.Text.Blanks
import ZincBind.Proofs.Text.Glyphs
import ZincBind.Proofs.Text.Lines
import ZincBind.Proofs.Text.Ordering
import ZincBind.Proofs.Text.Separators
import ZincBind.Proofs.Traversal
import ZincBind.Settings.Basic
import ZincBind.Settings.CratePath
import ZincBind.Settings.Decode
import ZincBind.Settings.LogLevel
import ZincBind.Text.Blank
import ZincBind.Text.Casing
import ZincBind.Text.Glyph
import ZincBind.Text.Printable
import ZincBind.Text.Quoted
