import WorkflowKit.Action
import WorkflowKit.Catalog.Basic
import WorkflowKit.Catalog.Builtin
import WorkflowKit.Catalog.Device
import WorkflowKit.Catalog.DeviceSelection
import WorkflowKit.Catalog.Loading
import WorkflowKit.Catalog.Lookup
import WorkflowKit.Catalog.Override
import WorkflowKit.Catalog.Parameter
import WorkflowKit.Catalog.Reading
import WorkflowKit.Catalog.Validation
import WorkflowKit.Catalog.Writing
import WorkflowKit.Changes.Apis
import WorkflowKit.Changes.Git
import WorkflowKit.Changes.Narrowing
import WorkflowKit.Changes.Platforms
import WorkflowKit.CommandLine.Command
import WorkflowKit.CommandLine.Program
import WorkflowKit.CommandLine.Run
import WorkflowKit.CommandLine.Words
import WorkflowKit.Decimal.Binary64
import WorkflowKit.Decimal.Layout
import WorkflowKit.Decimal.Shortest
import WorkflowKit.Failure
import WorkflowKit.Files
import WorkflowKit.GitHub.Answer
import WorkflowKit.GitHub.Call
import WorkflowKit.GitHub.Client
import WorkflowKit.GitHub.Fault
import WorkflowKit.GitHub.Session
import WorkflowKit.Http.Exchange
import WorkflowKit.Http.Message
import WorkflowKit.Http.Uri
import WorkflowKit.Json.Fault
import WorkflowKit.Json.Passing
import WorkflowKit.Json.Portions
import WorkflowKit.Json.Reading
import WorkflowKit.Json.Record
import WorkflowKit.Json.Value
import WorkflowKit.Log
import WorkflowKit.Log.Filter
import WorkflowKit.Main
import WorkflowKit.Matrix
import WorkflowKit.Output
import WorkflowKit.SortedMap
import WorkflowKit.Text.Blank
import WorkflowKit.Text.Hidden
import WorkflowKit.Text.Natural
import WorkflowKit.Text.Octets
import WorkflowKit.Text.Percent
import WorkflowKit.Text.Pieces
import WorkflowKit.Text.Quoted
import WorkflowKit.Yaml.Cursor
import WorkflowKit.Yaml.Fault
import WorkflowKit.Yaml.Node
import WorkflowKit.Yaml.Scalar
import WorkflowKit.Yaml.Token
import WorkflowKit.Yaml.Token.Scalar
import WorkflowKit.Yaml.Token.Stream
import WorkflowKit.Yaml.Token.Tag
import WorkflowKit.Yaml.Tree
import WorkflowKit.Yaml.Value
import WorkflowKit.Proofs.Action
import WorkflowKit.Proofs.Output
import WorkflowKit.Proofs.Catalog.Builtin
import WorkflowKit.Proofs.Catalog.Overlay
import WorkflowKit.Proofs.Catalog.Shape
import WorkflowKit.Proofs.Changes.Monotone
import WorkflowKit.Proofs.Changes.Rules
import WorkflowKit.Proofs.Files.Paths
import WorkflowKit.Proofs.Files.Writing
import WorkflowKit.Proofs.GitHub.Deliveries
import WorkflowKit.Proofs.GitHub.Location
import WorkflowKit.Proofs.GitHub.Plan
import WorkflowKit.Proofs.Http.Exchange
import WorkflowKit.Proofs.MatrixShape
import WorkflowKit.Proofs.Text.Order
import WorkflowKit.Proofs.GitHub.Acknowledgement
import WorkflowKit.Proofs.GitHub.Download
import WorkflowKit.Proofs.GitHub.Confinement
import WorkflowKit.Proofs.GitHub.Anonymous
import WorkflowKit.Proofs.CommandLine.GitRuns
import WorkflowKit.Proofs.CommandLine.Stdout
import WorkflowKit.Proofs.Decimal.Rounding
import WorkflowKit.Proofs.Decimal.Shortest
import WorkflowKit.Proofs.Text.Octets
import WorkflowKit.Proofs.Json.Grammar
import WorkflowKit.Proofs.Json.Writing
import WorkflowKit.Proofs.Json.Reading
import WorkflowKit.Proofs.Except
import WorkflowKit.Proofs.List
import WorkflowKit.Proofs.Catalog.RoundTrip
import WorkflowKit.Proofs.Yaml.Scalar
import WorkflowKit.Proofs.Yaml.View
import WorkflowKit.Proofs.Catalog.Shows
import WorkflowKit.Proofs.Catalog.Parameters
import WorkflowKit.Proofs.Catalog.DeviceSelection
import WorkflowKit.Proofs.Catalog.Faithful
import WorkflowKit.Proofs.Changes.Apis
import WorkflowKit.Proofs.Changes.Marks
import WorkflowKit.Proofs.Changes.Platforms
import WorkflowKit.Proofs.Text.Blank
import WorkflowKit.Proofs.Text.Decoding
import WorkflowKit.Proofs.Text.Percent
import WorkflowKit.Proofs.Json.Encoding
import WorkflowKit.Proofs.Json.Texts
import WorkflowKit.Proofs.Json.Tokens
import WorkflowKit.Proofs.Json.Decoding
import WorkflowKit.Proofs.Json.Portions
import WorkflowKit.Proofs.Json.Printing
import WorkflowKit.Proofs.Json.Passing
import WorkflowKit.Proofs.Json.Records
import WorkflowKit.Proofs.CommandLine.Payload
import WorkflowKit.Proofs.Http.Uri
import WorkflowKit.Proofs.GitHub.Endpoints
import WorkflowKit.Proofs.GitHub.Addressing
import WorkflowKit.Proofs.Changes.Requests
import WorkflowKit.Proofs.Catalog.Offences
import WorkflowKit.Proofs.Catalog.Inheritance
import WorkflowKit.Proofs.Catalog.Printing
import WorkflowKit.Proofs.CommandLine.Given
import WorkflowKit.Proofs.GitHub.Placement
import WorkflowKit.Proofs.GitHub.Labels
import WorkflowKit.Proofs.GitHub.Search
import WorkflowKit.Proofs.Json.Spelling
import WorkflowKit.Proofs.Json.Numerals
import WorkflowKit.Proofs.Json.Acceptance
import WorkflowKit.Proofs.Decimal.Nearest
import WorkflowKit.Proofs.Json.Rounding
import WorkflowKit.Proofs.Json.Unambiguous
import WorkflowKit.Proofs.CommandLine.Update
import WorkflowKit.Proofs.Text.Lines
import WorkflowKit.Proofs.Changes.Asking
import WorkflowKit.Proofs.Changes.Listing
import WorkflowKit.Proofs.CommandLine.GitFailures
