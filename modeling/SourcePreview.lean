import SourcePreview.Highlight.Run
import SourcePreview.Language.Detect
import SourcePreview.Text.Quoted
import SourcePreview.Text.Hex
import SourcePreview.Theme.Color
import SourcePreview.Theme.Palette
import SourcePreview.StyledText
import SourcePreview.Terminal
import SourcePreview.Digest.Sha256
import SourcePreview.Timestamp
import SourcePreview.Cache.Key
import SourcePreview.Json.Basic
import SourcePreview.Json.Printer
import SourcePreview.Json.Parser
import SourcePreview.Json.Members
import SourcePreview.Cache.Entry
import SourcePreview.Cache.Tier
import SourcePreview.Preview.Outcome
import SourcePreview.Preview.Report
import SourcePreview.Preview.Source
import SourcePreview.FileTree.Operations
import SourcePreview.Theme.Document
import SourcePreview.Theme.Shipped
import SourcePreview.Theme.Library
import SourcePreview.Settings
import SourcePreview.CommandLine.Plan
import SourcePreview.Preview.Previewer
import SourcePreview.CommandLine.Program
import SourcePreview.Main
import SourcePreview.Proofs.FileTree.Edits
import SourcePreview.Proofs.Processes.Persistence
import SourcePreview.Proofs.Processes.Transparency
import SourcePreview.Proofs.Cache.Listing
import SourcePreview.Proofs.Cache.Storing
import SourcePreview.Proofs.Cache.FiniteMap
import SourcePreview.Proofs.Cache.LastWrite
import SourcePreview.Proofs.Processes.Actions
import SourcePreview.Proofs.Processes.Attempts
import SourcePreview.Proofs.Cache.Sweeping
import SourcePreview.Proofs.Cache.Growth
import SourcePreview.Proofs.Cache.Recency
import SourcePreview.Proofs.Cache.Inclusion
import SourcePreview.Proofs.Cache.Origins
import SourcePreview.Proofs.Cache.Decoding
import SourcePreview.Proofs.Cache.Clearing
import SourcePreview.Proofs.CommandLine.ClearedCache
import SourcePreview.Proofs.Processes.Freshness
import SourcePreview.Proofs.Preview.Reading
import SourcePreview.Proofs.Cache.Confinement
import SourcePreview.Proofs.Preview.Texts
import SourcePreview.Proofs.CommandLine.Showing
import SourcePreview.Proofs.CommandLine.Histories
import SourcePreview.Proofs.Cache.Truncation
import SourcePreview.Proofs.Cache.UseOrder
import SourcePreview.Proofs.Preview.Accounts
import SourcePreview.Proofs.Settings.Saving
import SourcePreview.Proofs.Terminal.Styles
import SourcePreview.Proofs.Highlight.Ownership
import SourcePreview.Proofs.Highlight.Positions
import SourcePreview.Proofs.Pattern.WholeWords
import SourcePreview.Proofs.Highlight.DataMarkup
import SourcePreview.Proofs.Highlight.JsonTokens
import SourcePreview.Proofs.Cache.Eviction
import SourcePreview.Proofs.Cache.Atomicity
import SourcePreview.Proofs.Cache.NamedLookup
import SourcePreview.Proofs.Cache.SecondLook
import SourcePreview.Proofs.Cache.FewestRemovals
import SourcePreview.Proofs.Language.Sampling
import SourcePreview.Proofs.Language.Interpreters
import SourcePreview.Proofs.Cache.Schedule
import SourcePreview.Proofs.Cache.ForeignFiles
import SourcePreview.Proofs.Theme.Colors
import SourcePreview.Proofs.Theme.Listing
import SourcePreview.Proofs.Language.ObjectOpenings
import SourcePreview.Proofs.Preview.Reports
import SourcePreview.Proofs.Cache.Names
import SourcePreview.Proofs.Settings.SharedPlaces
import SourcePreview.Proofs.Theme.Resolution
import SourcePreview.Proofs.Theme.ListOrder
