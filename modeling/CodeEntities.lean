import CodeEntities.Analysis.Basic
import CodeEntities.Calls.Attribution
import CodeEntities.Calls.Call
import CodeEntities.Calls.Forms
import CodeEntities.Calls.Graph
import CodeEntities.Calls.Scope
import CodeEntities.Calls.Site
import CodeEntities.Calls.Walk
import CodeEntities.CommandLine.Arguments
import CodeEntities.CommandLine.Help
import CodeEntities.CommandLine.Output
import CodeEntities.CommandLine.Run
import CodeEntities.Extract.Callable
import CodeEntities.Extract.Complexity
import CodeEntities.Extract.Context
import CodeEntities.Extract.Documentation
import CodeEntities.Json.Basic
import CodeEntities.Json.Printer
import CodeEntities.Language
import CodeEntities.Main
import CodeEntities.Outline.Basic
import CodeEntities.Outline.Declaration
import CodeEntities.Outline.Encoding
import CodeEntities.Outline.Extract
import CodeEntities.Outline.Modifier
import CodeEntities.Outline.Summary
import CodeEntities.Parsing.Fault
import CodeEntities.Parsing.Session
import CodeEntities.Project.Batch
import CodeEntities.Project.Config
import CodeEntities.Project.Files
import CodeEntities.Project.Glob
import CodeEntities.Project.Ignore
import CodeEntities.Project.Progress
import CodeEntities.Project.Recorded
import CodeEntities.Project.Walk
import CodeEntities.Report.Envelope
import CodeEntities.Report.Rows
import CodeEntities.Report.Style
import CodeEntities.Report.Table
import CodeEntities.Rules.All
import CodeEntities.Rules.Bash
import CodeEntities.Rules.Basic
import CodeEntities.Rules.CFamily
import CodeEntities.Rules.CSharp
import CodeEntities.Rules.Data
import CodeEntities.Rules.Elixir
import CodeEntities.Rules.Go
import CodeEntities.Rules.Haskell
import CodeEntities.Rules.Java
import CodeEntities.Rules.Kinds
import CodeEntities.Rules.Kotlin
import CodeEntities.Rules.Lua
import CodeEntities.Rules.Members
import CodeEntities.Rules.Php
import CodeEntities.Rules.Python
import CodeEntities.Rules.Qualified
import CodeEntities.Rules.Ruby
import CodeEntities.Rules.Rust
import CodeEntities.Rules.Scala
import CodeEntities.Rules.Swift
import CodeEntities.Rules.TypeScript
import CodeEntities.Text.Blank
import CodeEntities.Text.Clauses
import CodeEntities.Text.Comment
import CodeEntities.Text.Edit
import CodeEntities.Text.Letter
import CodeEntities.Text.LowerCase
import CodeEntities.Text.Nesting
import CodeEntities.Text.Offset
import CodeEntities.Text.Position
import CodeEntities.Text.Split
import CodeEntities.Text.Width
import CodeEntities.Toml.Document
import CodeEntities.Toml.Printer
import CodeEntities.Toml.Quoted
import CodeEntities.Toml.Scalar
import CodeEntities.Toml.Value
import CodeEntities.Tree.Basic
import CodeEntities.Tree.Encoding
import CodeEntities.Tree.Flat
import CodeEntities.Tree.Fold
import CodeEntities.Tree.Node
import CodeEntities.Tree.Search
import CodeEntities.Proofs.Calls.Caller
import CodeEntities.Proofs.Calls.Walk
import CodeEntities.Proofs.Calls.Entities
import CodeEntities.Proofs.Calls.Anonymous
import CodeEntities.Proofs.Calls.DeclaredNames
import CodeEntities.Proofs.Calls.DocumentOrder
import CodeEntities.Proofs.Text.Edit
import CodeEntities.Proofs.Parsing.Session
import CodeEntities.Proofs.Parsing.History
import CodeEntities.Proofs.Parsing.EditSequence
import CodeEntities.Proofs.Parsing.LastTree
import CodeEntities.Proofs.Parsing.Availability
import CodeEntities.Proofs.Project.Report
import CodeEntities.Proofs.Project.Schedule
import CodeEntities.Proofs.Calls.Graph
import CodeEntities.Proofs.Outline.Under
import CodeEntities.Proofs.Rules.Java
import CodeEntities.Proofs.Outline.Located
import CodeEntities.Proofs.Rules.Basic
import CodeEntities.Proofs.Rules.Bash
import CodeEntities.Proofs.Rules.CSharp
import CodeEntities.Proofs.Rules.Data
import CodeEntities.Proofs.Rules.Go
import CodeEntities.Proofs.Rules.Lua
import CodeEntities.Proofs.Rules.Php
import CodeEntities.Proofs.Rules.Elixir
import CodeEntities.Proofs.Rules.Grouped
import CodeEntities.Proofs.Rules.Haskell
import CodeEntities.Proofs.Rules.Python
import CodeEntities.Proofs.Rules.Scala
import CodeEntities.Proofs.Rules.Kotlin
import CodeEntities.Proofs.Rules.Ruby
import CodeEntities.Proofs.Rules.CFamily
import CodeEntities.Proofs.Rules.Rust
import CodeEntities.Proofs.Rules.Swift
import CodeEntities.Proofs.Rules.TypeScript
import CodeEntities.Proofs.Rules.All
import CodeEntities.Proofs.Outline.Options
import CodeEntities.Proofs.Outline.DocComments
import CodeEntities.Proofs.Outline.Locations
import CodeEntities.Proofs.Tree.ModuleLevel
import CodeEntities.Proofs.Outline.Ordered
import CodeEntities.Proofs.Outline.DocumentOrder
import CodeEntities.Proofs.Outline.Names
import CodeEntities.Proofs.Calls.Fallback
import CodeEntities.Proofs.Json.Written
import CodeEntities.Proofs.Outline.Errors
import CodeEntities.Proofs.Outline.RoundTrip
import CodeEntities.Proofs.Rules.Attached
import CodeEntities.Proofs.Outline.ClassOrder
import CodeEntities.Proofs.Tree.Search
import CodeEntities.Proofs.Calls.Awaited
import CodeEntities.Proofs.Calls.Classes
import CodeEntities.Proofs.Calls.Direct
import CodeEntities.Proofs.Calls.MacroHeads
import CodeEntities.Proofs.Rules.Gathered
import CodeEntities.Proofs.Outline.MethodGroups
import CodeEntities.Proofs.Outline.OutOfClass
import CodeEntities.Proofs.Outline.DeclaredTypes
import CodeEntities.Proofs.Outline.Equations
import CodeEntities.Proofs.Outline.Clauses
import CodeEntities.Proofs.Outline.HiddenDocs
import CodeEntities.Proofs.Text.Nesting
import CodeEntities.Proofs.Outline.SpecTypes
import CodeEntities.Proofs.Outline.ImportLists
import CodeEntities.Proofs.Outline.UseTrees
import CodeEntities.Proofs.Outline.RenamedUses
import CodeEntities.Proofs.Outline.Sections
import CodeEntities.Proofs.Outline.TupleFields
import CodeEntities.Proofs.Outline.PositionalVisibility
import CodeEntities.Proofs.Outline.AccessSections
import CodeEntities.Proofs.Outline.PropertyVisibility
import CodeEntities.Proofs.Rules.Callables
import CodeEntities.Proofs.Outline.Callables
import CodeEntities.Proofs.Outline.ExportedDeclarations
import CodeEntities.Proofs.Outline.BoundNames
import CodeEntities.Proofs.Outline.FunctionPointers
import CodeEntities.Proofs.Tree.Complexity
import CodeEntities.Proofs.Outline.Bodies
import CodeEntities.Proofs.Text.LineComments
import CodeEntities.Proofs.Text.CleanedLines
import CodeEntities.Proofs.Text.BareComments
import CodeEntities.Proofs.Tree.Siblings
import CodeEntities.Proofs.Outline.PrecedingComments
import CodeEntities.Proofs.Outline.DocAssociation
import CodeEntities.Proofs.Text.LowerCase
import CodeEntities.Proofs.Language
import CodeEntities.Proofs.Outline.Summaries
import CodeEntities.Proofs.Text.Clauses
import CodeEntities.Proofs.Text.Rows
import CodeEntities.Proofs.Tree.Lookups
import CodeEntities.Proofs.Loops.Basic
import CodeEntities.Proofs.Loops.Chains
import CodeEntities.Proofs.Loops.Climbs
import CodeEntities.Proofs.Loops.Stacks
import CodeEntities.Proofs.Loops.Members
import CodeEntities.Proofs.Loops.Scans
import CodeEntities.Proofs.Loops.Extraction
