import ScriptDelta.Main
import ScriptDelta.Proofs.Block.Grammar
import ScriptDelta.Proofs.Header.Grammar
import ScriptDelta.Proofs.Header.Occurrences
import ScriptDelta.Proofs.Header.Separation
import ScriptDelta.Proofs.Catalog.Lookup
import ScriptDelta.Proofs.Catalog.Recognition
import ScriptDelta.Proofs.Catalog.Concatenation
import ScriptDelta.Proofs.Text.Layout
import ScriptDelta.Proofs.Text.Words
import ScriptDelta.Proofs.Block.Layout
import ScriptDelta.Proofs.Header.Layout
import ScriptDelta.Proofs.Header.Alignment
import ScriptDelta.Proofs.Catalog.Layout
import ScriptDelta.Proofs.Comparison.Partition
import ScriptDelta.Proofs.Edit.Annotated
import ScriptDelta.Proofs.Disk.Route
import ScriptDelta.Proofs.Disk.Change
import ScriptDelta.Proofs.Run.Ending
import ScriptDelta.Proofs.Run.Steps
import ScriptDelta.Proofs.Run.Forecast
import ScriptDelta.Proofs.Run.Account
import ScriptDelta.Proofs.Run.Reports
import ScriptDelta.Proofs.Run.Effect
import ScriptDelta.Proofs.Text.Fields
import ScriptDelta.Proofs.Path.Endings
import ScriptDelta.Proofs.Path.Components
import ScriptDelta.Proofs.Catalog.Names
import ScriptDelta.Proofs.Comparison.Definitions
import ScriptDelta.Proofs.Edit.Trimmed
import ScriptDelta.Proofs.Json.Token
import ScriptDelta.Proofs.Json.Reading
import ScriptDelta.Proofs.Report.Fences
import ScriptDelta.Proofs.Report.Patch
import ScriptDelta.Proofs.Report.Brief
import ScriptDelta.Proofs.Run.Places
import ScriptDelta.Proofs.Run.Passage
import ScriptDelta.Proofs.Run.Collisions
import ScriptDelta.Proofs.Run.Hosting
import ScriptDelta.Proofs.Run.Failing
import ScriptDelta.Proofs.Block.Standalone
import ScriptDelta.Proofs.Block.Nesting
import ScriptDelta.Proofs.Catalog.Bodies
import ScriptDelta.Proofs.Catalog.Methods
import ScriptDelta.Proofs.Text.Utf8
import ScriptDelta.Proofs.Text.Decoding
import ScriptDelta.Proofs.Text.Ascii
import ScriptDelta.Proofs.Comparison.Ignoring
import ScriptDelta.Proofs.Catalog.Searches
import ScriptDelta.Proofs.Report.Outline
import ScriptDelta.Proofs.Report.Account
import ScriptDelta.Proofs.Catalog.History
import ScriptDelta.Proofs.Text.Slice
import ScriptDelta.Proofs.Block.Extent
import ScriptDelta.Proofs.Header.Classes
import ScriptDelta.Proofs.Catalog.Anchors
import ScriptDelta.Proofs.Text.OneLine
import ScriptDelta.Proofs.Block.Reflow
import ScriptDelta.Proofs.Text.Encoding
import ScriptDelta.Proofs.Block.Bytes
import ScriptDelta.Proofs.Block.Lockstep
import ScriptDelta.Proofs.Header.Shift
import ScriptDelta.Proofs.Catalog.Slices
import ScriptDelta.Proofs.Text.Collapsed
import ScriptDelta.Proofs.Text.Utf16
import ScriptDelta.Proofs.Text.ByteOrderMark
import ScriptDelta.Proofs.Text.Trimming
import ScriptDelta.Proofs.Plan.Naming
import ScriptDelta.Proofs.Plan.Outcomes
import ScriptDelta.Proofs.Plan.Faults
