import PromptStudio.Backend.Catalog
import PromptStudio.Backend.Change
import PromptStudio.Backend.Envelope
import PromptStudio.Backend.Execution
import PromptStudio.Backend.Query
import PromptStudio.Backend.Reply
import PromptStudio.Backend.Request
import PromptStudio.Backend.Script
import PromptStudio.Backend.Url
import PromptStudio.Backend.Wire
import PromptStudio.Chat.Entry
import PromptStudio.Chat.Item
import PromptStudio.Chat.Panel
import PromptStudio.Command.Args
import PromptStudio.Command.Render
import PromptStudio.Command.Run
import PromptStudio.Event.Build
import PromptStudio.Event.Family
import PromptStudio.Event.Site
import PromptStudio.Event.Tool
import PromptStudio.Failure
import PromptStudio.Frame
import PromptStudio.Graph.Drawing
import PromptStudio.Graph.Layering
import PromptStudio.Graph.Position
import PromptStudio.Json.Basic
import PromptStudio.Json.Decode
import PromptStudio.Json.Reader
import PromptStudio.Json.Source
import PromptStudio.Json.Writer
import PromptStudio.Main
import PromptStudio.Number.Decimal
import PromptStudio.Number.Scaled
import PromptStudio.Proofs.Backend.Below
import PromptStudio.Proofs.Backend.Escape
import PromptStudio.Proofs.Backend.Ids
import PromptStudio.Proofs.Backend.Path
import PromptStudio.Proofs.Backend.Refusal
import PromptStudio.Proofs.Backend.RefusedChange
import PromptStudio.Proofs.Chat.Alongside
import PromptStudio.Proofs.Chat.Apart
import PromptStudio.Proofs.Chat.Changed
import PromptStudio.Proofs.Chat.Content
import PromptStudio.Proofs.Chat.Draft
import PromptStudio.Proofs.Chat.Event
import PromptStudio.Proofs.Chat.Growth
import PromptStudio.Proofs.Chat.Ids
import PromptStudio.Proofs.Chat.Joined
import PromptStudio.Proofs.Chat.Kinds
import PromptStudio.Proofs.Chat.Loaded
import PromptStudio.Proofs.Chat.Panel
import PromptStudio.Proofs.Chat.Percent
import PromptStudio.Proofs.Chat.Repeats
import PromptStudio.Proofs.Chat.Stages
import PromptStudio.Proofs.Chat.Stored
import PromptStudio.Proofs.Chat.Streaming
import PromptStudio.Proofs.Chat.ToolUses
import PromptStudio.Proofs.Chat.Transcript
import PromptStudio.Proofs.Chat.Turn
import PromptStudio.Proofs.Chat.WellFormed
import PromptStudio.Proofs.Command.LogLines
import PromptStudio.Proofs.Event.Grammar
import PromptStudio.Proofs.Event.Reread
import PromptStudio.Proofs.Graph.Drawing
import PromptStudio.Proofs.Graph.Invariant
import PromptStudio.Proofs.Graph.Layer
import PromptStudio.Proofs.Graph.Longest
import PromptStudio.Proofs.Graph.Placing
import PromptStudio.Proofs.Graph.Slots
import PromptStudio.Proofs.Graph.Strict
import PromptStudio.Proofs.Graph.Taking
import PromptStudio.Proofs.Graph.Walk
import PromptStudio.Proofs.Json.Blank
import PromptStudio.Proofs.Json.Fields
import PromptStudio.Proofs.Json.ReadBack
import PromptStudio.Proofs.Lookup
import PromptStudio.Proofs.Session.Alone
import PromptStudio.Proofs.Session.Attachment
import PromptStudio.Proofs.Session.Busy
import PromptStudio.Proofs.Session.Frozen
import PromptStudio.Proofs.Session.Heard
import PromptStudio.Proofs.Session.Holders
import PromptStudio.Proofs.Session.Issue
import PromptStudio.Proofs.Session.Listening
import PromptStudio.Proofs.Session.Moves
import PromptStudio.Proofs.Session.Overtaken
import PromptStudio.Proofs.Session.Quiet
import PromptStudio.Proofs.Session.Reach
import PromptStudio.Proofs.Session.Remembered
import PromptStudio.Proofs.Session.Replies
import PromptStudio.Proofs.Session.Schedule
import PromptStudio.Proofs.Session.Shown
import PromptStudio.Proofs.Session.Step
import PromptStudio.Proofs.Session.Tokens
import PromptStudio.Proofs.Session.Without
import PromptStudio.Proofs.Session.World
import PromptStudio.Proofs.Sse.Apart
import PromptStudio.Proofs.Sse.Chunks
import PromptStudio.Proofs.Sse.Reading
import PromptStudio.Proofs.Sse.Writing
import PromptStudio.Proofs.Steps
import PromptStudio.Proofs.Stream.Control
import PromptStudio.Proofs.Stream.Handles
import PromptStudio.Proofs.Stream.Stops
import PromptStudio.Proofs.Stream.Truncation
import PromptStudio.Proofs.Studio.Events
import PromptStudio.Proofs.Studio.Library
import PromptStudio.Proofs.Studio.Namespaces
import PromptStudio.Proofs.Studio.Preview
import PromptStudio.Proofs.Studio.Tasks
import PromptStudio.Proofs.Studio.Undo
import PromptStudio.Proofs.Text.Lines
import PromptStudio.Proofs.Text.Utf8
import PromptStudio.Session.Drive
import PromptStudio.Session.Lock
import PromptStudio.Session.Operation
import PromptStudio.Session.Rehearsal
import PromptStudio.Session.Schedule
import PromptStudio.Session.World
import PromptStudio.Settings
import PromptStudio.Sse.Decoder
import PromptStudio.Stream.Control
import PromptStudio.Stream.Follow
import PromptStudio.Stream.Outcome
import PromptStudio.Studio.Library
import PromptStudio.Studio.Preview
import PromptStudio.Studio.State
import PromptStudio.Studio.Tasks
import PromptStudio.Text.Blank
import PromptStudio.Text.Lossy
import PromptStudio.Time.Instant
import PromptStudio.Workflow.Detail
import PromptStudio.Workflow.Spec
