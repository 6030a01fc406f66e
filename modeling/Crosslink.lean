import Crosslink.Files.Backend
import Crosslink.Files.Store
import Crosslink.Main
import Crosslink.Proofs.Edit.Simultaneous
import Crosslink.Proofs.Text.Pieces
import Crosslink.Proofs.Link.Target
import Crosslink.Proofs.Href.Kind
import Crosslink.Proofs.Href.Parts
import Crosslink.Proofs.Revision.Generation
import Crosslink.Proofs.Revision.Canonical
import Crosslink.Proofs.Revision.Form
import Crosslink.Proofs.Revision.Stability
import Crosslink.Proofs.Revision.Preservation
import Crosslink.Proofs.Revision.Repair
import Crosslink.Proofs.Revision.Verdict
import Crosslink.Proofs.Config.Settings
import Crosslink.Proofs.Config.Load
import Crosslink.Proofs.Data.Entries
import Crosslink.Proofs.Edit.Tally
import Crosslink.Proofs.Files.Store
import Crosslink.Proofs.Path.Normal
import Crosslink.Proofs.Path.Track
import Crosslink.Proofs.Text.Utf8
import Crosslink.Proofs.Files.Walk
import Crosslink.Proofs.Files.Disk
import Crosslink.Proofs.Files.Shelf
import Crosslink.Proofs.Files.Listing
import Crosslink.Proofs.Revision.Step
import Crosslink.Proofs.Revision.Frame
import Crosslink.Proofs.Revision.Accounts
import Crosslink.Proofs.Revision.Totals
import Crosslink.Proofs.Revision.Steady
import Crosslink.Proofs.Revision.Tree
import Crosslink.Proofs.Command.Check
import Crosslink.Proofs.Revision.Linkwise
import Crosslink.Proofs.Link.Range
import Crosslink.Proofs.Markup.Unescape
import Crosslink.Proofs.Markup.Source
import Crosslink.Proofs.Markup.Destination
import Crosslink.Proofs.Revision.Located
import Crosslink.Proofs.Revision.Losses
import Crosslink.Proofs.Files.Extent
import Crosslink.Proofs.Schema.Shape
import Crosslink.Proofs.Command.Reporting
import Crosslink.Proofs.Markup.Spelling
import Crosslink.Proofs.Text.Breaks
import Crosslink.Proofs.Text.Occurrence
import Crosslink.Proofs.Text.Remainder
import Crosslink.Proofs.Link.Widening
import Crosslink.Proofs.Link.Opening
import Crosslink.Proofs.Link.Nearest
import Crosslink.Proofs.Report.Validation
import Crosslink.Proofs.Config.Roundtrip
import Crosslink.Proofs.Command.Loading
import Crosslink.Proofs.Edit.Search
import Crosslink.Proofs.Edit.Overlap
import Crosslink.Proofs.Edit.OneLine
import Crosslink.Proofs.Edit.Account
import Crosslink.Proofs.Edit.Numbering
import Crosslink.Proofs.Revision.Conservative
import Crosslink.Proofs.Revision.Classes
import Crosslink.Proofs.Revision.Marks
import Crosslink.Proofs.Revision.Query
import Crosslink.Proofs.Revision.Untold
import Crosslink.Proofs.Revision.External
import Crosslink.Proofs.Revision.Refusal
import Crosslink.Proofs.Revision.Exchange
import Crosslink.Proofs.Link.Root
import Crosslink.Proofs.Files.Markdown
import Crosslink.Proofs.Files.Naming
import Crosslink.Proofs.Path.Joining
import Crosslink.Proofs.Link.Carried
import Crosslink.Proofs.Markup.Inline.LinkText
