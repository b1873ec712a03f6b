import HubContract.Binding.Basic
import HubContract.Binding.Fake
import HubContract.Binding.Interchange
import HubContract.Binding.Origin
import HubContract.Binding.Registration
import HubContract.Binding.Synthesis
import HubContract.Cancellation
import HubContract.Cancellation.Chain
import HubContract.Channel.Basic
import HubContract.Channel.Loop
import HubContract.Client.Basic
import HubContract.Client.Class
import HubContract.Client.Registration
import HubContract.Command.Arguments
import HubContract.Command.Files
import HubContract.Command.Invocation
import HubContract.Command.Session
import HubContract.Contract.Basic
import HubContract.Contract.Interchange
import HubContract.Contract.Walk
import HubContract.Data.Basic
import HubContract.Data.Check
import HubContract.Data.Literal
import HubContract.Diagnostic
import HubContract.Document.Basic
import HubContract.Document.Discovery
import HubContract.Document.Fixing
import HubContract.Document.Interchange
import HubContract.Document.Nesting
import HubContract.Document.Reader
import HubContract.Document.Resolution
import HubContract.Document.Writer
import HubContract.Endpoint.Await
import HubContract.Endpoint.Basic
import HubContract.Endpoint.Blueprint
import HubContract.Endpoint.Call
import HubContract.Endpoint.Interchange
import HubContract.Endpoint.Task
import HubContract.Endpoint.Value
import HubContract.Engine
import HubContract.Fake.Basic
import HubContract.Fake.Class
import HubContract.Json.Basic
import HubContract.Json.Reader
import HubContract.Json.Writer
import HubContract.Log
import HubContract.Main
import HubContract.Naming
import HubContract.Number.Binary64
import HubContract.Number.Layout
import HubContract.Number.Reading
import HubContract.Number.Shortest
import HubContract.Options
import HubContract.Pipeline.Context
import HubContract.Pipeline.Interchange
import HubContract.Pipeline.Pass
import HubContract.Pipeline.Repair
import HubContract.Pipeline.Result
import HubContract.Proofs.Backoff
import HubContract.Proofs.Binding.Fake
import HubContract.Proofs.Binding.Names
import HubContract.Proofs.Binding.Payload
import HubContract.Proofs.Binding.Plain
import HubContract.Proofs.Binding.RoundTrip
import HubContract.Proofs.Cancellation
import HubContract.Proofs.Channel.Attendance
import HubContract.Proofs.Channel.Custody
import HubContract.Proofs.Channel.Dismissal
import HubContract.Proofs.Channel.Fate
import HubContract.Proofs.Channel.Fifo
import HubContract.Proofs.Channel.Operation
import HubContract.Proofs.Channel.Order
import HubContract.Proofs.Channel.Place
import HubContract.Proofs.Channel.PutBack
import HubContract.Proofs.Channel.Run
import HubContract.Proofs.Channel.Settling
import HubContract.Proofs.Channel.Stamp
import HubContract.Proofs.Channel.Wakeup
import HubContract.Proofs.Client.Asking
import HubContract.Proofs.Client.Class
import HubContract.Proofs.Client.Dispatch
import HubContract.Proofs.Client.Lifecycle
import HubContract.Proofs.Client.Serving
import HubContract.Proofs.Client.Use
import HubContract.Proofs.Contract.Distinct
import HubContract.Proofs.Contract.Fitting
import HubContract.Proofs.Contract.RoundTrip
import HubContract.Proofs.Contract.Shape
import HubContract.Proofs.Contract.Sides
import HubContract.Proofs.Contract.Suggestion
import HubContract.Proofs.Data.Reading
import HubContract.Proofs.Document.Canonical
import HubContract.Proofs.Document.Claiming
import HubContract.Proofs.Document.Client
import HubContract.Proofs.Document.Diagnosis
import HubContract.Proofs.Document.Discovery
import HubContract.Proofs.Document.Fixing
import HubContract.Proofs.Document.Graceful
import HubContract.Proofs.Document.Graph
import HubContract.Proofs.Document.Heading
import HubContract.Proofs.Document.Hurdle
import HubContract.Proofs.Document.Module
import HubContract.Proofs.Document.Moving
import HubContract.Proofs.Document.Problem
import HubContract.Proofs.Document.Provenance
import HubContract.Proofs.Document.Reapplying
import HubContract.Proofs.Document.Refusal
import HubContract.Proofs.Document.Resolution
import HubContract.Proofs.Document.RoundTrip
import HubContract.Proofs.Document.Search
import HubContract.Proofs.Document.Suggestion
import HubContract.Proofs.Document.Walking
import HubContract.Proofs.Document.Way
import HubContract.Proofs.Endpoint.Frame
import HubContract.Proofs.Engine.Artifact
import HubContract.Proofs.Engine.Cache
import HubContract.Proofs.Engine.Exports
import HubContract.Proofs.Engine.History
import HubContract.Proofs.Engine.Identity
import HubContract.Proofs.Engine.Imports
import HubContract.Proofs.Engine.Locality
import HubContract.Proofs.Engine.Moving
import HubContract.Proofs.Engine.Package
import HubContract.Proofs.Engine.Registration
import HubContract.Proofs.Engine.Repair
import HubContract.Proofs.Engine.Report
import HubContract.Proofs.Engine.Restoring
import HubContract.Proofs.Engine.Retyping
import HubContract.Proofs.Engine.Rules
import HubContract.Proofs.Engine.Selection
import HubContract.Proofs.Engine.Verdict
import HubContract.Proofs.Fake.Class
import HubContract.Proofs.Fake.Fresh
import HubContract.Proofs.Fake.Machinery
import HubContract.Proofs.Fake.Member
import HubContract.Proofs.Fake.Names
import HubContract.Proofs.Fake.Recording
import HubContract.Proofs.Fake.Use
import HubContract.Proofs.Json.Number
import HubContract.Proofs.Json.Plain
import HubContract.Proofs.Json.RoundTrip
import HubContract.Proofs.Json.Text
import HubContract.Proofs.Naming.Distinct
import HubContract.Proofs.Naming.Module
import HubContract.Proofs.Naming.Shape
import HubContract.Proofs.Naming.Snake
import HubContract.Proofs.Naming.Suffix
import HubContract.Proofs.Number.Rounding
import HubContract.Proofs.Number.Shortest
import HubContract.Proofs.Pipeline.Errors
import HubContract.Proofs.Pipeline.Extensional
import HubContract.Proofs.Pipeline.Numbering
import HubContract.Proofs.Pipeline.Pass
import HubContract.Proofs.Pipeline.Progress
import HubContract.Proofs.Pipeline.RoundTrip
import HubContract.Proofs.Pipeline.Step
import HubContract.Proofs.Reconnect
import HubContract.Proofs.Signature
import HubContract.Proofs.Source.Behavior
import HubContract.Proofs.Source.Class
import HubContract.Proofs.Source.Docstring
import HubContract.Proofs.Source.Import
import HubContract.Proofs.Source.Literal
import HubContract.Proofs.Source.Thunk
import HubContract.Proofs.Text.Blank
import HubContract.Proofs.Text.Line
import HubContract.Proofs.Text.Numeral
import HubContract.Proofs.Text.Parted
import HubContract.Proofs.Text.Quoted
import HubContract.Reconnect
import HubContract.Rule
import HubContract.Signature.Method
import HubContract.Signature.ReturnType
import HubContract.Source.Client
import HubContract.Source.Fake
import HubContract.Source.Registration
import HubContract.Source.Text
import HubContract.Table
import HubContract.Text.Blank
import HubContract.Text.Capital
import HubContract.Text.DecimalDigit
import HubContract.Text.HiddenRange
import HubContract.Text.Identifier
import HubContract.Text.IdentifierRange
import HubContract.Text.Loose
import HubContract.Text.Numeral
import HubContract.Text.Order
import HubContract.Text.Quoted
import HubContract.Yaml.Construction
import HubContract.Yaml.Cursor
import HubContract.Yaml.Node
import HubContract.Yaml.Reader
import HubContract.Yaml.Scalar
import HubContract.Yaml.Tag
import HubContract.Yaml.Token
import HubContract.Yaml.Value
import HubContract.Yaml.Writer
