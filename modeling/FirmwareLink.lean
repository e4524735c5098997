import FirmwareLink.Board.Maintenance
import FirmwareLink.Draft.Describe
import FirmwareLink.Endpoint
import FirmwareLink.Proofs.Memory.Words
import FirmwareLink.Proofs.Pool.Headers
import FirmwareLink.Proofs.Pool.Cells
import FirmwareLink.Proofs.Pool.Tiling
import FirmwareLink.Proofs.Pool.Walk
import FirmwareLink.Proofs.Pool.Layout
import FirmwareLink.Proofs.Pool.Splice
import FirmwareLink.Proofs.Pool.Bookkeeping
import FirmwareLink.Proofs.Pool.LayoutSteps
import FirmwareLink.Proofs.Pool.Realize
import FirmwareLink.Proofs.Pool.Allocate
import FirmwareLink.Proofs.Pool.Restore
import FirmwareLink.Proofs.Pool.Free
import FirmwareLink.Proofs.Pool.Register
import FirmwareLink.Proofs.Pool.Payload
import FirmwareLink.Proofs.Pool.Handover
import FirmwareLink.Proofs.Pool.Regular
import FirmwareLink.Proofs.Pool.Run
import FirmwareLink.Proofs.Pool.Representation
import FirmwareLink.Proofs.Pool.Privacy
import FirmwareLink.Proofs.Frame.Grammar
import FirmwareLink.Proofs.Frame.Records
import FirmwareLink.Proofs.Frame.Acceptance
import FirmwareLink.Proofs.Draft.Building
import FirmwareLink.Proofs.Frame.RoundTrip
import FirmwareLink.Proofs.Pool.Foreign
import FirmwareLink.Proofs.Pool.Stretches
import FirmwareLink.Proofs.Pool.Similar
import FirmwareLink.Proofs.Pool.Undoing
import FirmwareLink.Proofs.Pool.Borrowing
import FirmwareLink.Proofs.Pool.Canonical
import FirmwareLink.Proofs.Pool.Reporting
import FirmwareLink.Proofs.Pool.Restoration
import FirmwareLink.Proofs.Pool.FirstFit
import FirmwareLink.Proofs.Pool.Resizing
import FirmwareLink.Proofs.Draft.Refusal
import FirmwareLink.Proofs.Frame.Stream
import FirmwareLink.Proofs.Endpoint.Order
import FirmwareLink.Proofs.Endpoint.Dispatch
import FirmwareLink.Proofs.Draft.Stale
import FirmwareLink.Proofs.Frame.Stale
import FirmwareLink.Proofs.Endpoint.Treatment
import FirmwareLink.Proofs.Endpoint.Accounting
import FirmwareLink.Proofs.Endpoint.Oblivion
import FirmwareLink.Proofs.Draft.Answer
import FirmwareLink.Proofs.Draft.Refinement
import FirmwareLink.Proofs.Endpoint.Correlation
import FirmwareLink.Proofs.Board.Service
import FirmwareLink.Proofs.Board.Answers
import FirmwareLink.Proofs.Board.Programming
import FirmwareLink.Proofs.Checksum.Remainder
import FirmwareLink.Proofs.Checksum.Errors
import FirmwareLink.Proofs.Frame.Detection
import FirmwareLink.Proofs.Draft.Forwarding
import FirmwareLink.Proofs.Draft.Delivery
import FirmwareLink.Proofs.Frame.Echo
import FirmwareLink.Proofs.Endpoint.Listening
import FirmwareLink.Proofs.Pool.Admission
import FirmwareLink.Proofs.Frame.Numerals
import FirmwareLink.Proofs.Draft.Fields
import FirmwareLink.Proofs.Frame.Offsets
import FirmwareLink.Proofs.Pool.Checked
import FirmwareLink.Proofs.Pool.InRange
