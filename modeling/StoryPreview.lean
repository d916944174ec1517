import StoryPreview.Address
import StoryPreview.Allowance
import StoryPreview.App
import StoryPreview.App.Run
import StoryPreview.Arguments.Basic
import StoryPreview.Arguments.Codec
import StoryPreview.Boot
import StoryPreview.Config
import StoryPreview.Controller
import StoryPreview.Document
import StoryPreview.Editor
import StoryPreview.Generation
import StoryPreview.Journal
import StoryPreview.Json.Basic
import StoryPreview.Json.Cursor
import StoryPreview.Json.Error
import StoryPreview.Json.Reader
import StoryPreview.Labels
import StoryPreview.Loader
import StoryPreview.Location
import StoryPreview.Number.Binary64
import StoryPreview.Number.Literal
import StoryPreview.Number.Shortest
import StoryPreview.Number.Spelling
import StoryPreview.OrderedMap
import StoryPreview.Page
import StoryPreview.Panel
import StoryPreview.Preview
import StoryPreview.Problem
import StoryPreview.Query.Form
import StoryPreview.Query.Percent
import StoryPreview.Reactive.Graph
import StoryPreview.Reactive.Program
import StoryPreview.Reactive.Run
import StoryPreview.Reactive.Script
import StoryPreview.Session
import StoryPreview.Settings.Basic
import StoryPreview.Settings.Reader
import StoryPreview.Settings.Toml
import StoryPreview.Signal
import StoryPreview.Storage
import StoryPreview.Stored
import StoryPreview.Story
import StoryPreview.Text.Blank
import StoryPreview.Text.CharMap
import StoryPreview.Text.CharSet
import StoryPreview.Text.ComposedChars
import StoryPreview.Text.Composition
import StoryPreview.Text.Direction
import StoryPreview.Text.Joining
import StoryPreview.Text.Marks
import StoryPreview.Text.Markup
import StoryPreview.Text.Quoted
import StoryPreview.Text.Unprintable
import StoryPreview.Text.Utf8
import StoryPreview.Theme
import StoryPreview.ThemeClasses
import StoryPreview.Toml.Basic
import StoryPreview.Toml.Lexical
import StoryPreview.Toml.Reader
import StoryPreview.Toolbar
import StoryPreview.Url.Basic
import StoryPreview.Url.Domain
import StoryPreview.Url.DomainMapping
import StoryPreview.Url.Fault
import StoryPreview.Url.Host
import StoryPreview.Url.Path
import StoryPreview.Url.Punycode
import StoryPreview.Url.Replacements
import StoryPreview.UrlSync
import StoryPreview.Proofs.Reactive.Ending
import StoryPreview.Proofs.Reactive.Rewiring
import StoryPreview.Proofs.Reactive.Calm
import StoryPreview.Proofs.Duties
import StoryPreview.Proofs.OrderedMap
import StoryPreview.Proofs.Text.Utf8
import StoryPreview.Proofs.Text.Splitting
import StoryPreview.Proofs.Query.Percent
import StoryPreview.Proofs.Query.Form
import StoryPreview.Proofs.Number.Characters
import StoryPreview.Proofs.Arguments.Codec
import StoryPreview.Proofs.Location
import StoryPreview.Proofs.Url.Path
import StoryPreview.Proofs.Url.Origin
import StoryPreview.Proofs.Address
import StoryPreview.Proofs.Pages
import StoryPreview.Proofs.Standing
import StoryPreview.Proofs.Writing
import StoryPreview.Proofs.Acting
import StoryPreview.Proofs.Reactive.Reporting
import StoryPreview.Proofs.Cycles
import StoryPreview.Proofs.Starts
import StoryPreview.Proofs.Steps
import StoryPreview.Proofs.Runs
import StoryPreview.Proofs.Consistency
import StoryPreview.Proofs.Supersession
import StoryPreview.Proofs.Recovery
import StoryPreview.Proofs.Number.Nearest
import StoryPreview.Proofs.Number.Shortest
import StoryPreview.Proofs.Number.Reading
import StoryPreview.Proofs.Text.Trimming
import StoryPreview.Proofs.Arguments.RoundTrip
import StoryPreview.Proofs.Attention
import StoryPreview.Proofs.Recomputing
import StoryPreview.Proofs.Arguments.Surviving
import StoryPreview.Proofs.Returning
import StoryPreview.Proofs.Reactive.Freshness
import StoryPreview.Proofs.Reactive.UpToDate
import StoryPreview.Proofs.Reactive.Log
import StoryPreview.Proofs.Reactive.Logging
import StoryPreview.Proofs.Reactive.Moves
import StoryPreview.Proofs.Reactive.Attending
import StoryPreview.Proofs.Reactive.Bookkeeping
import StoryPreview.Proofs.Reactive.Capturing
import StoryPreview.Proofs.Reactive.Fairness
import StoryPreview.Proofs.Reactive.Laws
import StoryPreview.Proofs.Reactive.ProperRuns
import StoryPreview.Proofs.Reactive.Scheduling
import StoryPreview.Proofs.Reactive.Crediting
import StoryPreview.Proofs.Reactive.Subscribers
import StoryPreview.Proofs.Reactive.Deliveries
import StoryPreview.Proofs.Reactive.Yielding
import StoryPreview.Proofs.Reactive.Courses
import StoryPreview.Proofs.Reactive.Aging
import StoryPreview.Proofs.Tending
import StoryPreview.Proofs.Managing
import StoryPreview.Proofs.Mirroring
import StoryPreview.Proofs.Creating
import StoryPreview.Proofs.Reactive.Retaining
import StoryPreview.Proofs.Reflecting
import StoryPreview.Proofs.Closing
import StoryPreview.Proofs.Number.Stored
import StoryPreview.Proofs.Number.Short
import StoryPreview.Proofs.Json.Reading
import StoryPreview.Proofs.Json.Numbers
import StoryPreview.Proofs.Json.Values
import StoryPreview.Proofs.Json.Entries
import StoryPreview.Proofs.Arguments.Restored
import StoryPreview.Proofs.Kinds
import StoryPreview.Proofs.Opening
import StoryPreview.Proofs.Restoring
import StoryPreview.Proofs.Number.Positional
import StoryPreview.Proofs.Arguments.Located
import StoryPreview.Proofs.Dialogues
import StoryPreview.Proofs.Booting
import StoryPreview.Proofs.Text.Words
import StoryPreview.Proofs.Url.Kept
import StoryPreview.Proofs.Url.Relative
import StoryPreview.Proofs.Assigned
import StoryPreview.Proofs.Dressing
import StoryPreview.Proofs.Overlaying
import StoryPreview.Proofs.Permission
import StoryPreview.Proofs.Merging
import StoryPreview.Proofs.Arguments.Normal
import StoryPreview.Proofs.Parameters
import StoryPreview.Proofs.Resolving
import StoryPreview.Proofs.Number.Grammar
import StoryPreview.Proofs.Number.Closest
import StoryPreview.Proofs.Number.Fewest
import StoryPreview.Proofs.Number.Spelled
import StoryPreview.Proofs.Text.Decoding
import StoryPreview.Proofs.Query.Escapes
import StoryPreview.Proofs.Editing
import StoryPreview.Proofs.Text.Markup
import StoryPreview.Proofs.Panels
