import AgentHooks.Main
import AgentHooks.Proofs.Event.Binding
import AgentHooks.Proofs.Event.Discriminant
import AgentHooks.Proofs.Event.Integers
import AgentHooks.Proofs.Event.Null
import AgentHooks.Proofs.Event.Spelling
import AgentHooks.Proofs.Event.Unknown
import AgentHooks.Proofs.Files.Append
import AgentHooks.Proofs.Files.Directories
import AgentHooks.Proofs.Files.Hierarchy
import AgentHooks.Proofs.Files.Parents
import AgentHooks.Proofs.Files.Paths
import AgentHooks.Proofs.Host.Accounting
import AgentHooks.Proofs.Host.Concatenation
import AgentHooks.Proofs.Host.Content
import AgentHooks.Proofs.Host.Isolation
import AgentHooks.Proofs.Host.Layout
import AgentHooks.Proofs.Host.Logging
import AgentHooks.Proofs.Host.Malformed
import AgentHooks.Proofs.Host.OneShot
import AgentHooks.Proofs.Host.Segments
import AgentHooks.Proofs.Host.Unfinished
import AgentHooks.Proofs.Json.Coercion
import AgentHooks.Proofs.Json.Containers
import AgentHooks.Proofs.Json.Flags
import AgentHooks.Proofs.Json.Integers
import AgentHooks.Proofs.Json.Literals
import AgentHooks.Proofs.Json.Padding
import AgentHooks.Proofs.Json.Produced
import AgentHooks.Proofs.Json.Records
import AgentHooks.Proofs.Json.RoundTrip
import AgentHooks.Proofs.Json.Scalars
import AgentHooks.Proofs.Json.Shape
import AgentHooks.Proofs.Json.Written
import AgentHooks.Proofs.Message.RoundTrip
import AgentHooks.Proofs.Number.Int64
import AgentHooks.Proofs.Number.Rounding
import AgentHooks.Proofs.Number.Values
import AgentHooks.Proofs.Payload.Canonical
import AgentHooks.Proofs.Payload.Delivery
import AgentHooks.Proofs.Payload.Keys
import AgentHooks.Proofs.Payload.Resolution
import AgentHooks.Proofs.Payload.Spelling
import AgentHooks.Proofs.Payload.View
import AgentHooks.Proofs.Program.Describing
import AgentHooks.Proofs.Program.Failing
import AgentHooks.Proofs.Program.Hosting
import AgentHooks.Proofs.Settings.Arguments
import AgentHooks.Proofs.Settings.Composition
import AgentHooks.Proofs.Settings.Flags
import AgentHooks.Proofs.Settings.Format
import AgentHooks.Proofs.Settings.Home
import AgentHooks.Proofs.Settings.Layers
import AgentHooks.Proofs.Settings.Sources
import AgentHooks.Proofs.Settings.Words
import AgentHooks.Proofs.Sink.Appending
import AgentHooks.Proofs.Sink.EventLog
import AgentHooks.Proofs.Sink.ToolCalls
import AgentHooks.Proofs.Text.Casing
import AgentHooks.Proofs.Text.Excerpt
import AgentHooks.Proofs.Text.Letters
import AgentHooks.Proofs.Text.Lines
import AgentHooks.Proofs.Text.Numerals
import AgentHooks.Proofs.Text.Quoted
import AgentHooks.Proofs.Text.Trim
import AgentHooks.Proofs.Text.Utf8
