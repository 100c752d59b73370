import PageBuilder.Action
import PageBuilder.Bindable
import PageBuilder.Code.Declaration
import PageBuilder.Code.Indent
import PageBuilder.Code.Layout
import PageBuilder.Code.Markup
import PageBuilder.Component.Basic
import PageBuilder.Component.Catalog
import PageBuilder.Decimal.Binary64
import PageBuilder.Decimal.Shortest
import PageBuilder.Document.Basic
import PageBuilder.Document.Check
import PageBuilder.Document.Codec
import PageBuilder.Document.Edit
import PageBuilder.FreshName
import PageBuilder.History
import PageBuilder.IdSource
import PageBuilder.Identifier
import PageBuilder.ImportTable
import PageBuilder.Json.Basic
import PageBuilder.Json.Decode
import PageBuilder.Json.Numeral
import PageBuilder.Json.Printer
import PageBuilder.Json.Reader
import PageBuilder.Json.Written
import PageBuilder.Main
import PageBuilder.Node
import PageBuilder.Node.Codec
import PageBuilder.OrderKey
import PageBuilder.Page.Bindings
import PageBuilder.Page.Compiler
import PageBuilder.Page.Diagnostic
import PageBuilder.Page.Entry
import PageBuilder.Page.Names
import PageBuilder.Page.Schema
import PageBuilder.Page.State
import PageBuilder.Page.Value
import PageBuilder.Project.Arguments
import PageBuilder.Project.Command
import PageBuilder.Project.Command.Check
import PageBuilder.Project.Command.Compile
import PageBuilder.Project.Command.Init
import PageBuilder.Project.Config
import PageBuilder.Project.Disk
import PageBuilder.Project.Fault
import PageBuilder.Project.Loading
import PageBuilder.Project.Path
import PageBuilder.Project.Script
import PageBuilder.Project.Starter
import PageBuilder.Proofs.Document.Edit
import PageBuilder.Proofs.Document.Run
import PageBuilder.Proofs.Document.Tree
import PageBuilder.Proofs.Document.Valid
import PageBuilder.Proofs.FreshName
import PageBuilder.Proofs.OrderKey
import PageBuilder.Proofs.Outcome
import PageBuilder.Proofs.SortedMap
import PageBuilder.ReadGraph
import PageBuilder.Reference.Basic
import PageBuilder.Reference.Token
import PageBuilder.Scope
import PageBuilder.SortedMap
import PageBuilder.Template
import PageBuilder.Text.Blank
import PageBuilder.Text.LetterCase
import PageBuilder.Text.Lines
import PageBuilder.Text.Printable
import PageBuilder.Text.Quoted
import PageBuilder.Proofs.ReadGraph
import PageBuilder.Proofs.Page.Shown
import PageBuilder.Proofs.Page.State
import PageBuilder.Proofs.Page.View
import PageBuilder.Proofs.Page.Order
import PageBuilder.Proofs.Page.Names
import PageBuilder.Proofs.Page.Bindings
import PageBuilder.Proofs.ImportTable
import PageBuilder.Proofs.Page.Compiler
import PageBuilder.Proofs.ReadGraph.Built
import PageBuilder.Proofs.Document.Slots
import PageBuilder.Proofs.Project.Compile
import PageBuilder.Proofs.History.Timeline
import PageBuilder.Proofs.History.Batch
import PageBuilder.Proofs.Page.Source
import PageBuilder.Proofs.Page.Isolation
import PageBuilder.Proofs.Page.Removal
import PageBuilder.Proofs.Page.Outputs
import PageBuilder.Proofs.Document.Codec
import PageBuilder.Proofs.Page.EditorMode
import PageBuilder.Proofs.Document.Accepted
import PageBuilder.Proofs.Page.Sources
import PageBuilder.Proofs.Page.Pairs
import PageBuilder.Proofs.Document.Reopened
import PageBuilder.Proofs.ImportTable.Calls
import PageBuilder.Proofs.Page.RuntimeNames
import PageBuilder.Proofs.Page.Warnings
import PageBuilder.Proofs.Project.Verdict
import PageBuilder.Proofs.Page.Renderings
import PageBuilder.Proofs.Page.Attributes
import PageBuilder.Proofs.Code.Layout
import PageBuilder.Proofs.Code.QueryIds
import PageBuilder.Proofs.Document.MapIds
import PageBuilder.Proofs.Page.MapIds
import PageBuilder.Proofs.Page.MappedPage
import PageBuilder.Proofs.Page.Renamed
import PageBuilder.Proofs.Reference
import PageBuilder.Proofs.Template
import PageBuilder.Proofs.Code.Balanced
import PageBuilder.Proofs.Code.Flat
import PageBuilder.Proofs.Code.Declaration
import PageBuilder.Proofs.Code.Literals
import PageBuilder.Proofs.Code.Literals.Unmixed
import PageBuilder.Proofs.Code.Laid
import PageBuilder.Proofs.Code.Laid.Markup
import PageBuilder.Proofs.Code.Laid.Imports
import PageBuilder.Proofs.Page.FlatCode
import PageBuilder.Proofs.Page.BalancedState
import PageBuilder.Proofs.Page.Formatted
import PageBuilder.Proofs.Reference.Displayed
import PageBuilder.Proofs.Reference.Grammar
import PageBuilder.Proofs.Reference.Places
import PageBuilder.Proofs.Template.Slices
import PageBuilder.Proofs.Code.TemplateLiteral
import PageBuilder.Proofs.Page.LiteralText
import PageBuilder.Proofs.Document.Queries
import PageBuilder.Proofs.Document.Subtree
import PageBuilder.Proofs.Code.ObjectLiteral
import PageBuilder.Proofs.Page.RuntimeScope
import PageBuilder.Proofs.Document.Rename
import PageBuilder.Proofs.Scope.Tree
import PageBuilder.Proofs.ImportTable.LocalNames
import PageBuilder.Proofs.Code.Relaid
import PageBuilder.Proofs.Code.Levels
import PageBuilder.Proofs.Code.Visible
import PageBuilder.Proofs.Component.Codec
import PageBuilder.Proofs.Page.Defaults
import PageBuilder.Proofs.Component.Catalog
