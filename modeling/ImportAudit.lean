import ImportAudit.Check.Inspection
import ImportAudit.Main
import ImportAudit.Proofs.Analysis.Findings
import ImportAudit.Proofs.Analysis.Interleaving
import ImportAudit.Proofs.Reference.Inert
import ImportAudit.Proofs.Session.Batch
import ImportAudit.Proofs.Problem.Delivery
import ImportAudit.Proofs.Session.Recovery
import ImportAudit.Proofs.Session.Effective
import ImportAudit.Proofs.Session.Precedence
import ImportAudit.Proofs.Session.Cache
import ImportAudit.Proofs.Session.Reread
import ImportAudit.Proofs.Session.Stored
import ImportAudit.Proofs.Session.Traced
import ImportAudit.Proofs.Json.Bounds
import ImportAudit.Proofs.Json.Members
import ImportAudit.Proofs.Json.Written
import ImportAudit.Proofs.Text.Utf8
import ImportAudit.Proofs.Log.Lines
import ImportAudit.Proofs.Manifest.Ascent
import ImportAudit.Proofs.Manifest.Reading
import ImportAudit.Proofs.Manifest.Resolution
import ImportAudit.Proofs.Command.Accepted
import ImportAudit.Proofs.Command.Output
import ImportAudit.Proofs.Command.Discovery
import ImportAudit.Proofs.Report.Listing
import ImportAudit.Proofs.Report.RoundTrip
import ImportAudit.Proofs.Report.Totals
import ImportAudit.Proofs.Manifest.Decoding
import ImportAudit.Proofs.Command.Status
import ImportAudit.Proofs.Command.Validation
import ImportAudit.Proofs.Command.Narrowing
import ImportAudit.Proofs.Settings.Judged
import ImportAudit.Proofs.Settings.Parts
import ImportAudit.Proofs.Text.Pattern
import ImportAudit.Proofs.Specifier.Relative
import ImportAudit.Proofs.Specifier.Package
import ImportAudit.Proofs.Check.Options
import ImportAudit.Proofs.Outline.Insertion
import ImportAudit.Proofs.Reference.Comment
import ImportAudit.Proofs.Log.History
import ImportAudit.Proofs.Command.Flags
import ImportAudit.Proofs.Command.Lines
import ImportAudit.Proofs.Command.Sample
import ImportAudit.Proofs.Settings.CommaList
import ImportAudit.Proofs.Text.Coordinates
import ImportAudit.Proofs.Outline.Search
import ImportAudit.Proofs.Reference.Boundary
