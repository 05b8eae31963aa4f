import FunctionForge.CSharp.Edition
import FunctionForge.CSharp.ErrorSource
import FunctionForge.CSharp.FunctionSource
import FunctionForge.CSharp.Generator
import FunctionForge.CSharp.Invocation
import FunctionForge.CSharp.ModelSource
import FunctionForge.CSharp.ServiceSource
import FunctionForge.CSharp.Source
import FunctionForge.CSharp.TypeName
import FunctionForge.CSharp.WrapperSource
import FunctionForge.CommandLine.Arguments
import FunctionForge.CommandLine.Command
import FunctionForge.CommandLine.Execute
import FunctionForge.CommandLine.Help
import FunctionForge.Config.Basic
import FunctionForge.Config.Decode
import FunctionForge.Config.Load
import FunctionForge.Config.Resolve
import FunctionForge.Definition
import FunctionForge.Document.Basic
import FunctionForge.Document.Decode
import FunctionForge.Document.HttpMethod
import FunctionForge.Document.Load
import FunctionForge.Document.Schema
import FunctionForge.Document.Traverse
import FunctionForge.Endpoint.Basic
import FunctionForge.Endpoint.Content
import FunctionForge.Endpoint.Resolve
import FunctionForge.Endpoint.Summary
import FunctionForge.Fields
import FunctionForge.Files.Path
import FunctionForge.Files.Tree
import FunctionForge.Generator
import FunctionForge.Inspection.Basic
import FunctionForge.Inspection.Describe
import FunctionForge.KnownTypes
import FunctionForge.Main
import FunctionForge.Markup.Json
import FunctionForge.Markup.Node
import FunctionForge.Markup.Reading
import FunctionForge.Markup.Record
import FunctionForge.Markup.Tree
import FunctionForge.Markup.Yaml.Cursor
import FunctionForge.Markup.Yaml.Document
import FunctionForge.Markup.Yaml.Scalar
import FunctionForge.Markup.Yaml.Tag
import FunctionForge.Markup.Yaml.Text
import FunctionForge.Markup.Yaml.Token
import FunctionForge.Markup.Yaml.Writing
import FunctionForge.Model.Basic
import FunctionForge.Model.Entity
import FunctionForge.Model.Literal
import FunctionForge.Model.Property
import FunctionForge.Naming.Identifier
import FunctionForge.Notice
import FunctionForge.Number.Decimal
import FunctionForge.Number.Double
import FunctionForge.Number.Shortest
import FunctionForge.Proofs.Agreement.Types
import FunctionForge.Proofs.Agreement.Unions
import FunctionForge.Proofs.CSharp.Assignable
import FunctionForge.Proofs.CSharp.Calls
import FunctionForge.Proofs.CSharp.ClientErrors
import FunctionForge.Proofs.CSharp.Dispatch
import FunctionForge.Proofs.CSharp.Documentation
import FunctionForge.Proofs.CSharp.ErrorConflicts
import FunctionForge.Proofs.CSharp.Imports
import FunctionForge.Proofs.CSharp.Initializers
import FunctionForge.Proofs.CSharp.Members
import FunctionForge.Proofs.CSharp.ModelFiles
import FunctionForge.Proofs.CSharp.Statements
import FunctionForge.Proofs.CSharp.Wrappers
import FunctionForge.Proofs.ClosedWorld
import FunctionForge.Proofs.Config.Layers
import FunctionForge.Proofs.Config.Visibility
import FunctionForge.Proofs.Document.Loading
import FunctionForge.Proofs.Document.PathItems
import FunctionForge.Proofs.Document.References
import FunctionForge.Proofs.Document.Traverse
import FunctionForge.Proofs.Document.Unchanged
import FunctionForge.Proofs.Endpoint.Contents
import FunctionForge.Proofs.Endpoint.Documentation
import FunctionForge.Proofs.Endpoint.InPlace
import FunctionForge.Proofs.Endpoint.Mentions
import FunctionForge.Proofs.Endpoint.Redirected
import FunctionForge.Proofs.Endpoint.Summary
import FunctionForge.Proofs.Endpoint.Untyped
import FunctionForge.Proofs.Endpoint.WellFormed
import FunctionForge.Proofs.Fields
import FunctionForge.Proofs.Files.Path
import FunctionForge.Proofs.Files.Placement
import FunctionForge.Proofs.Files.Reading
import FunctionForge.Proofs.Files.Relative
import FunctionForge.Proofs.Files.Writing
import FunctionForge.Proofs.Firsts
import FunctionForge.Proofs.Model.Accounts
import FunctionForge.Proofs.Model.Causes
import FunctionForge.Proofs.Model.Coverage
import FunctionForge.Proofs.Model.Elements
import FunctionForge.Proofs.Model.Enumerations
import FunctionForge.Proofs.Model.EqualValues
import FunctionForge.Proofs.Model.Excluding
import FunctionForge.Proofs.Model.Governing
import FunctionForge.Proofs.Model.Interfaces
import FunctionForge.Proofs.Model.Linking
import FunctionForge.Proofs.Model.Literals
import FunctionForge.Proofs.Model.Mentions
import FunctionForge.Proofs.Model.Properties
import FunctionForge.Proofs.Model.Quoting
import FunctionForge.Proofs.Model.Required
import FunctionForge.Proofs.Model.Shapes
import FunctionForge.Proofs.Model.Tables
import FunctionForge.Proofs.NameClashes
import FunctionForge.Proofs.Naming.Identifiers
import FunctionForge.Proofs.Naming.Runs
import FunctionForge.Proofs.Naming.Sanitizing
import FunctionForge.Proofs.Naming.Segments
import FunctionForge.Proofs.Naming.Slashes
import FunctionForge.Proofs.Number
import FunctionForge.Proofs.Redirects
import FunctionForge.Proofs.Redirects.Cycles
import FunctionForge.Proofs.Reference.Alongside
import FunctionForge.Proofs.Reference.Chain
import FunctionForge.Proofs.Reference.Closure
import FunctionForge.Proofs.Reference.Component
import FunctionForge.Proofs.Reference.Cycles
import FunctionForge.Proofs.Reference.Following
import FunctionForge.Proofs.Reference.Frame
import FunctionForge.Proofs.Reference.Imports
import FunctionForge.Proofs.Reference.Inlined
import FunctionForge.Proofs.Reference.Opened
import FunctionForge.Proofs.Reference.Reached
import FunctionForge.Proofs.Reference.Remembered
import FunctionForge.Proofs.Reference.Reused
import FunctionForge.Proofs.Reference.Run
import FunctionForge.Proofs.Reference.Shadowing
import FunctionForge.Proofs.Reference.Termination
import FunctionForge.Proofs.Reference.Visit
import FunctionForge.Proofs.Reference.WireValues
import FunctionForge.Proofs.Registry
import FunctionForge.Proofs.Registry.History
import FunctionForge.Proofs.Renaming.Basic
import FunctionForge.Proofs.Renaming.Endpoints
import FunctionForge.Proofs.Renaming.Models
import FunctionForge.Proofs.Result
import FunctionForge.Proofs.Run.Duplicates
import FunctionForge.Proofs.Run.Names
import FunctionForge.Proofs.Run.Policy
import FunctionForge.Proofs.Run.Service
import FunctionForge.Proofs.Run.Totals
import FunctionForge.Proofs.Run.Validation
import FunctionForge.Proofs.Run.Written
import FunctionForge.Proofs.Text.Cut
import FunctionForge.Proofs.Text.Ends
import FunctionForge.Proofs.Text.Lines
import FunctionForge.Proofs.Text.Quoted
import FunctionForge.Proofs.Text.Uppercase
import FunctionForge.Proofs.Union
import FunctionForge.Reference.Bundle
import FunctionForge.Reference.Component
import FunctionForge.Reference.Error
import FunctionForge.Reference.Pointer
import FunctionForge.Registry
import FunctionForge.Run.All
import FunctionForge.Run.Open
import FunctionForge.Run.Service
import FunctionForge.ScalarType
import FunctionForge.Target
import FunctionForge.Text.Casing
import FunctionForge.Text.CasingData
import FunctionForge.Text.Cut
import FunctionForge.Text.Lines
import FunctionForge.Text.Words
import FunctionForge.TypeRef
import FunctionForge.Union
import FunctionForge.Value
