import BundleForge.Bundle
import BundleForge.Bytes
import BundleForge.CommandLine
import BundleForge.CommandLine.Arguments
import BundleForge.Deployment
import BundleForge.Diagnostic
import BundleForge.Dispatch
import BundleForge.Encoding.Base64
import BundleForge.Encoding.Sha256
import BundleForge.Field
import BundleForge.FileName
import BundleForge.FileSystem
import BundleForge.Generator
import BundleForge.Generator.Data
import BundleForge.Generator.Image
import BundleForge.Generator.Nested
import BundleForge.Generator.Text
import BundleForge.Hierarchy
import BundleForge.Identifier
import BundleForge.Identifier.Fresh
import BundleForge.Identifier.Words
import BundleForge.Image.Header
import BundleForge.Image.Size
import BundleForge.Implementation
import BundleForge.Implementation.Source
import BundleForge.Layout
import BundleForge.Literal
import BundleForge.LoadError
import BundleForge.Locale
import BundleForge.Manifest
import BundleForge.Manifest.Declarations
import BundleForge.Manifest.Inheritance
import BundleForge.Manifest.Problem
import BundleForge.Mime
import BundleForge.OrderedMap
import BundleForge.Pass
import BundleForge.Path
import BundleForge.Prototype
import BundleForge.ResourceError
import BundleForge.Run
import BundleForge.Search.Finder
import BundleForge.Search.Path
import BundleForge.Settings
import BundleForge.SharedCache
import BundleForge.Sink
import BundleForge.Text.Blank
import BundleForge.Text.Quoted
import BundleForge.Text.Segments
import BundleForge.Text.ShortestDecimal
import BundleForge.Text.Unseen
import BundleForge.Toml.Decoder
import BundleForge.Toml.Parser
import BundleForge.Toml.Scalar
import BundleForge.Toml.Value
import BundleForge.TypeName
import BundleForge.CommandLine.Footprint
import BundleForge.Main
import BundleForge.Proofs.Dispatch
import BundleForge.Proofs.Except
import BundleForge.Proofs.FileName
import BundleForge.Proofs.FileSystem
import BundleForge.Proofs.Generator
import BundleForge.Proofs.Hierarchy
import BundleForge.Proofs.Implementation.Items
import BundleForge.Proofs.Implementation.Parts
import BundleForge.Proofs.Implementation.Texts
import BundleForge.Proofs.Implementation.Wires
import BundleForge.Proofs.Layout
import BundleForge.Proofs.List
import BundleForge.Proofs.Literal
import BundleForge.Proofs.Manifest.Accepted
import BundleForge.Proofs.Manifest.Decoded
import BundleForge.Proofs.Manifest.Inheritance
import BundleForge.Proofs.Manifest.Tables
import BundleForge.Proofs.OrderedMap
import BundleForge.Proofs.Pass.Conformances
import BundleForge.Proofs.Pass.Phases
import BundleForge.Proofs.Pass.Sources
import BundleForge.Proofs.Pass.Success
import BundleForge.Proofs.Pass.Texts
import BundleForge.Proofs.Pass.Wiring
import BundleForge.Proofs.Run.Complete
import BundleForge.Proofs.Run.Files
import BundleForge.Proofs.Run.Memory
import BundleForge.Proofs.Run.Turns
import BundleForge.Proofs.Sink
import BundleForge.Proofs.Text
import BundleForge.Proofs.Search.Finder
import BundleForge.Proofs.Search.Ranked
import BundleForge.Proofs.Search.Registered
import BundleForge.Proofs.Search.Order
import BundleForge.Proofs.Pass.Course
import BundleForge.Proofs.Pass.Calls
import BundleForge.Proofs.Pass.Selections
import BundleForge.Proofs.Pass.Protocol
import BundleForge.Proofs.Pass.Failures
import BundleForge.Proofs.Sink.Register
import BundleForge.Proofs.Run.Requests
import BundleForge.Proofs.Run.Skips
import BundleForge.Proofs.FileSystem.Puts
import BundleForge.Proofs.Deployment
import BundleForge.Proofs.Pass.Handlings
import BundleForge.Proofs.Pass.Deposits
import BundleForge.Proofs.Pass.Nested
import BundleForge.Proofs.Run.Nested
import BundleForge.Proofs.TypePath
import BundleForge.Proofs.Scope
import BundleForge.Proofs.Implementation.Paths
import BundleForge.Proofs.Pass.Paths
import BundleForge.Proofs.Base64
import BundleForge.Proofs.Url
import BundleForge.Proofs.Pass.Memories
import BundleForge.Proofs.Pass.Data
import BundleForge.Proofs.Oblivious
import BundleForge.Proofs.Image
import BundleForge.Proofs.Pass.Images
import BundleForge.Proofs.Pass.Sharing
import BundleForge.Proofs.Image.Call
import BundleForge.Proofs.Pass.Pictures
import BundleForge.Proofs.Pass.Oblivious
import BundleForge.Proofs.Reorder
import BundleForge.Proofs.Run.Independent
import BundleForge.Proofs.Lexical
import BundleForge.Proofs.Skeleton
import BundleForge.Proofs.Implementation.Names
import BundleForge.Proofs.Implementation.Twins
import BundleForge.Proofs.Implementation.Assemblies
import BundleForge.Proofs.Pass.Expressions
import BundleForge.Proofs.Pass.Twins
import BundleForge.Proofs.Pass.TwinAnswers
import BundleForge.Proofs.Pass.Skeletons
import BundleForge.Proofs.Identifier
import BundleForge.Proofs.Field
import BundleForge.Proofs.Implementation.Distinct
import BundleForge.Proofs.Pass.Fields
import BundleForge.Proofs.Manifest.Names
import BundleForge.Proofs.Implementation.Identifiers
import BundleForge.Proofs.Pass.Identifiers
import BundleForge.Proofs.Path
import BundleForge.Proofs.Sink.Below
import BundleForge.Proofs.Manifest.Flattening
import BundleForge.Proofs.FileSystem.Names
import BundleForge.Proofs.FileSystem.Reach
import BundleForge.Proofs.Sink.Separate
import BundleForge.Proofs.Deployment.Names
import BundleForge.Proofs.Deployment.Served
import BundleForge.Proofs.Search.Origins
import BundleForge.Proofs.Verdict
import BundleForge.Proofs.Pass.Verdicts
import BundleForge.Proofs.Pass.Local
import BundleForge.Proofs.Pass.Hidden
import BundleForge.Proofs.Relation
import BundleForge.Proofs.Manifest.Problems
import BundleForge.Proofs.Hierarchy.Order
import BundleForge.Proofs.Manifest.Circles
import BundleForge.Proofs.Manifest.Violations
import BundleForge.Proofs.Dispatch.Precedence
import BundleForge.Proofs.Manifest.Dispatched
import BundleForge.Proofs.Hierarchy.Preorder
import BundleForge.Proofs.Dispatch.Placement
import BundleForge.Proofs.Search.Fallback
import BundleForge.Proofs.Image.Gif
import BundleForge.Proofs.Bytes
import BundleForge.Proofs.Image.Png
import BundleForge.Proofs.Image.Jpeg
import BundleForge.Proofs.Image.Size
import BundleForge.Proofs.Field.Calls
import BundleForge.Proofs.Literal.Pieces
import BundleForge.Proofs.Layout.Programs
import BundleForge.Proofs.Identifier.Words
