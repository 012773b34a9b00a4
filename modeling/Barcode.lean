import Barcode.Text.Numeral
import Barcode.Number.Shortest
import Barcode.Number.Scaled
import Barcode.Table
import Barcode.Document.Plain
import Barcode.Document.Reader
import Barcode.Document.Writer
import Barcode.Ean.PayloadCheck
import Barcode.Ean.Validation
import Barcode.Template.Embedding
import Barcode.Project.Source
import Barcode.Registry.Lookup
import Barcode.Registry.Log
import Barcode.Report
import Barcode.Settings.Basic
import Barcode.CommandLine.Run
import Barcode.Main
import Barcode.Proofs.Fault.Sequence
import Barcode.Proofs.Text.Digits
import Barcode.Proofs.Template.Slices
import Barcode.Proofs.Template.Compiled
import Barcode.Proofs.Ean.Completion
import Barcode.Proofs.Template.Acceptance
import Barcode.Proofs.Embedding.Put
import Barcode.Proofs.Embedding.Renewal
import Barcode.Proofs.Embedding.Update
import Barcode.Proofs.Embedding.Lens
import Barcode.Proofs.Template.Exchange
import Barcode.Proofs.Embedding.Readback
import Barcode.Proofs.Registry.History
import Barcode.Proofs.Template.Overflow
import Barcode.Proofs.Registry.Loading
import Barcode.Proofs.Instore.Assembly
import Barcode.Proofs.Instore.Layout
import Barcode.Proofs.Instore.Carrying
import Barcode.Proofs.Template.Feasible
import Barcode.Proofs.Template.Pieces
import Barcode.Proofs.Template.Language
import Barcode.Proofs.Template.Rendering
import Barcode.Proofs.Registry.Record
import Barcode.Proofs.Ean.Scanned
import Barcode.Proofs.Embedding.Failure
import Barcode.Proofs.Registry.Outcome
import Barcode.Proofs.Registry.Failure
import Barcode.Proofs.Instore.Agreement
import Barcode.Proofs.Registry.Precedence
import Barcode.Proofs.Registry.Answers
import Barcode.Proofs.Registry.Isolation
import Barcode.Proofs.Report.Order
import Barcode.Proofs.Instore.Synthesis
import Barcode.Proofs.Document.Quoting
import Barcode.Proofs.Document.Readback
import Barcode.Proofs.Report.Decoding
import Barcode.Proofs.Ean.Detection
import Barcode.Proofs.Ean.Parsing
import Barcode.Proofs.Template.Detection
import Barcode.Proofs.Registry.Selection
import Barcode.Proofs.Ean.Validity
import Barcode.Proofs.Template.Flaws
import Barcode.Proofs.Project.Shape
import Barcode.Proofs.Document.Spelling
import Barcode.Proofs.Document.Limits
import Barcode.Proofs.Project.Reporting
import Barcode.Proofs.Template.Extent
import Barcode.Proofs.Template.Lossless
import Barcode.Proofs.Template.Leftmost
import Barcode.Proofs.Report.Decimals
import Barcode.Proofs.Template.Partition
import Barcode.Proofs.Template.Relaxation
import Barcode.Proofs.Template.PatternText
import Barcode.Proofs.Registry.Audit
