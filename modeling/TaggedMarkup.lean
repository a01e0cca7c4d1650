import TaggedMarkup.Code.Helper
import TaggedMarkup.Code.Render
import TaggedMarkup.Code.Sheet
import TaggedMarkup.Code.Tables
import TaggedMarkup.CommandLine.Elapsed
import TaggedMarkup.CommandLine.Options
import TaggedMarkup.CommandLine.Run
import TaggedMarkup.Compile.Batch
import TaggedMarkup.Compile.Script
import TaggedMarkup.Compile.Site
import TaggedMarkup.Compile.State
import TaggedMarkup.Compile.Walk
import TaggedMarkup.Config
import TaggedMarkup.Failure
import TaggedMarkup.Files.Discovery
import TaggedMarkup.Files.Glob
import TaggedMarkup.Files.Path
import TaggedMarkup.Files.Tree
import TaggedMarkup.Files.Walk
import TaggedMarkup.Json.Reader
import TaggedMarkup.Json.Value
import TaggedMarkup.Log
import TaggedMarkup.Main
import TaggedMarkup.Markup.Char
import TaggedMarkup.Markup.Element
import TaggedMarkup.Markup.Event
import TaggedMarkup.Markup.Lexer
import TaggedMarkup.Markup.Sigil
import TaggedMarkup.Proofs.Compile.Coverage
import TaggedMarkup.Proofs.Compile.Edits
import TaggedMarkup.Proofs.Compile.Effects
import TaggedMarkup.Proofs.Compile.Plan
import TaggedMarkup.Proofs.Compile.Projection
import TaggedMarkup.Proofs.Compile.Targets
import TaggedMarkup.Proofs.Compile.Visits
import TaggedMarkup.Proofs.Script.Imports
import TaggedMarkup.Proofs.Script.Layout
import TaggedMarkup.Proofs.Source.Splice
import TaggedMarkup.Proofs.Template.Forest
import TaggedMarkup.Proofs.Template.Fragment
import TaggedMarkup.Proofs.Template.Items
import TaggedMarkup.Proofs.Template.Nesting
import TaggedMarkup.Proofs.Template.Phase
import TaggedMarkup.Proofs.Template.Slots
import TaggedMarkup.Script.Cursor
import TaggedMarkup.Script.Free
import TaggedMarkup.Script.Grammar.Annotation
import TaggedMarkup.Script.Grammar.Basic
import TaggedMarkup.Script.Grammar.Binding
import TaggedMarkup.Script.Grammar.Declaration
import TaggedMarkup.Script.Grammar.Expression
import TaggedMarkup.Script.Grammar.Function
import TaggedMarkup.Script.Grammar.Modifier
import TaggedMarkup.Script.Grammar.Module
import TaggedMarkup.Script.Grammar.Program
import TaggedMarkup.Script.Grammar.Statement
import TaggedMarkup.Script.Grammar.Target
import TaggedMarkup.Script.Imports
import TaggedMarkup.Script.Lexeme
import TaggedMarkup.Script.Marker
import TaggedMarkup.Script.Scope
import TaggedMarkup.Script.Syntax
import TaggedMarkup.Source.Edit
import TaggedMarkup.Template.Binder
import TaggedMarkup.Template.Binding
import TaggedMarkup.Template.Parser
import TaggedMarkup.Template.Skeleton
import TaggedMarkup.Text.Ident
import TaggedMarkup.Text.Position
import TaggedMarkup.Text.Quoted
import TaggedMarkup.Text.Split
import TaggedMarkup.Text.Utf8
import TaggedMarkup.Proofs.Markup.Chunks
import TaggedMarkup.Proofs.Markup.Legible
import TaggedMarkup.Proofs.Markup.Printed
import TaggedMarkup.Proofs.Code.Tables
import TaggedMarkup.Proofs.Code.Runs
import TaggedMarkup.Proofs.Code.Closure
import TaggedMarkup.Proofs.Markup.Reported
import TaggedMarkup.Proofs.Template.Joined
import TaggedMarkup.Proofs.Template.Shown
import TaggedMarkup.Proofs.Template.ReadBack
import TaggedMarkup.Proofs.Template.Apart
import TaggedMarkup.Proofs.Markup.Raw
import TaggedMarkup.Proofs.Markup.Scanned
import TaggedMarkup.Proofs.Script.Literal
import TaggedMarkup.Proofs.Template.Literal
import TaggedMarkup.Proofs.Script.Bindings
import TaggedMarkup.Proofs.Compile.References
import TaggedMarkup.Proofs.Compile.Imports
import TaggedMarkup.Proofs.Compile.Outline
import TaggedMarkup.Proofs.Compile.Sites
import TaggedMarkup.Proofs.Compile.Lexical
import TaggedMarkup.Proofs.Code.Locals
import TaggedMarkup.Proofs.Compile.Bare
import TaggedMarkup.Proofs.Compile.Stable
import TaggedMarkup.Proofs.Compile.Again
import TaggedMarkup.Proofs.Script.Moves
import TaggedMarkup.Proofs.Compile.Starts
import TaggedMarkup.Proofs.Compile.Phrases
import TaggedMarkup.Proofs.Compile.Expressions
import TaggedMarkup.Proofs.Compile.Parsed
import TaggedMarkup.Proofs.Compile.Causes
import TaggedMarkup.Proofs.Markup.Grammar
import TaggedMarkup.Proofs.Template.Frames
import TaggedMarkup.Proofs.Compile.Introduced
import TaggedMarkup.Proofs.Compile.Markers
import TaggedMarkup.Proofs.Compile.Balance
import TaggedMarkup.Proofs.Source.Parallel
import TaggedMarkup.Proofs.Code.Releases
import TaggedMarkup.Proofs.Template.HoleValues
import TaggedMarkup.Proofs.Template.BoundAttributes
import TaggedMarkup.Proofs.Template.Independence
import TaggedMarkup.Proofs.Script.Patterns
import TaggedMarkup.Proofs.Markup.Live
import TaggedMarkup.Proofs.Template.Filled
import TaggedMarkup.Proofs.Template.Placeholders
import TaggedMarkup.Proofs.Script.FreeNames
import TaggedMarkup.Proofs.Markup.Lossless
import TaggedMarkup.Proofs.Text.Position
import TaggedMarkup.Proofs.Code.Printed
import TaggedMarkup.Proofs.Code.Names
import TaggedMarkup.Proofs.Files.Order
import TaggedMarkup.Proofs.Files.Discovery
