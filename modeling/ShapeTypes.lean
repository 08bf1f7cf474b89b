import ShapeTypes.Main
import ShapeTypes.Proofs.Concrete.Layout
import ShapeTypes.Proofs.Draft.Composed
import ShapeTypes.Proofs.Draft.Depth
import ShapeTypes.Proofs.Draft.Drawn
import ShapeTypes.Proofs.Draft.Outlines
import ShapeTypes.Proofs.Inference.Outlines
import ShapeTypes.Proofs.Inference.Programs
import ShapeTypes.Proofs.Inference.Renaming
import ShapeTypes.Proofs.Inference.Table
import ShapeTypes.Proofs.Inference.Walk
import ShapeTypes.Proofs.Outline.Site
import ShapeTypes.Proofs.Outline.Stored
import ShapeTypes.Proofs.Placeholder.Occurrences
import ShapeTypes.Proofs.QuickFix.Annotations
import ShapeTypes.Proofs.QuickFix.Edits
import ShapeTypes.Proofs.Span
import ShapeTypes.Proofs.Store.Annotations
import ShapeTypes.Proofs.Store.Descent
import ShapeTypes.Proofs.Store.Links
import ShapeTypes.Proofs.Store.Tightest
import ShapeTypes.Proofs.Text.Patch
import ShapeTypes.Proofs.Text.Position
import ShapeTypes.Proofs.Text.Splice
import ShapeTypes.Proofs.Store.Forest
import ShapeTypes.Proofs.Store.PostOrder
import ShapeTypes.Proofs.QuickFix.Placement
import ShapeTypes.Proofs.Descriptor.Reader
import ShapeTypes.Proofs.Descriptor.Unambiguous
import ShapeTypes.Proofs.Inference.History
import ShapeTypes.Proofs.QuickFix.Agreement
import ShapeTypes.Proofs.Placeholder.Count
import ShapeTypes.Proofs.Placeholder.Accounting
import ShapeTypes.Proofs.Descriptor.Names
import ShapeTypes.Proofs.Inference.Closure
import ShapeTypes.Proofs.QuickFix.Leftover
import ShapeTypes.Proofs.Store.Calls
import ShapeTypes.Proofs.Json.Written
import ShapeTypes.Proofs.Config.RoundTrip
import ShapeTypes.Proofs.Command.Arguments
import ShapeTypes.Proofs.Command.Writes
import ShapeTypes.Proofs.Text.Reorder
import ShapeTypes.Proofs.Store.PreOrder
import ShapeTypes.Proofs.Inference.Sharing
import ShapeTypes.Proofs.Inference.Limit
import ShapeTypes.Proofs.Store.Search
import ShapeTypes.Proofs.Inference.Locality
import ShapeTypes.Proofs.Concrete.Places
import ShapeTypes.Proofs.Store.Acceptance
import ShapeTypes.Proofs.Draft.Comments
import ShapeTypes.Proofs.Draft.Growth
import ShapeTypes.Proofs.Store.Growth
import ShapeTypes.Proofs.Text.Boundary
import ShapeTypes.Proofs.Placeholder.Offsets
import ShapeTypes.Proofs.Draft.Slots
import ShapeTypes.Proofs.Placeholder.Spots
import ShapeTypes.Proofs.Inference.Entries
import ShapeTypes.Proofs.Inference.Callee
import ShapeTypes.Proofs.Draft.Words
import ShapeTypes.Proofs.Inference.Keys
