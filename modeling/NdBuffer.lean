import NdBuffer.Accelerator
import NdBuffer.Heap.Arena
import NdBuffer.Interchange
import NdBuffer.Names
import NdBuffer.Session.Step
import NdBuffer.Proofs.Buffer.Valid
import NdBuffer.Proofs.Memory.Balance
import NdBuffer.Proofs.Memory.Ledger
import NdBuffer.Proofs.Buffer.Move
import NdBuffer.Proofs.Buffer.Resizing
import NdBuffer.Proofs.Buffer.Operations
import NdBuffer.Proofs.Session.Bench
import NdBuffer.Proofs.Session.Sound
import NdBuffer.Proofs.Buffer.Writing
import NdBuffer.Proofs.Session.Chains
import NdBuffer.Proofs.Session.Reachable
import NdBuffer.Proofs.Session.Failure
import NdBuffer.Proofs.Session.Frame
import NdBuffer.Proofs.Session.Lending
import NdBuffer.Proofs.Session.LentMemory
import NdBuffer.Proofs.Shape.Extents
import NdBuffer.Proofs.Buffer.Refitting
import NdBuffer.Proofs.Session.Refitting
import NdBuffer.Proofs.Buffer.Copying
import NdBuffer.Proofs.Session.Copies
import NdBuffer.Proofs.Binary.Magnitudes
import NdBuffer.Proofs.Binary.Nearest
import NdBuffer.Proofs.Binary.Comparison
import NdBuffer.Proofs.Binary.Widening
import NdBuffer.Proofs.Buffer.Closeness
import NdBuffer.Proofs.Session.Closeness
import NdBuffer.Proofs.Session.Balance
import NdBuffer.Proofs.Session.Borrowing
import NdBuffer.Proofs.Shape.Counting
import NdBuffer.Proofs.Buffer.Unavailable
import NdBuffer.Proofs.Session.Unavailable
import NdBuffer.Proofs.Session.Listings
import NdBuffer.Proofs.Shape.Offsets
import NdBuffer.Proofs.Session.Offsets
import NdBuffer.Proofs.Session.Resizing
import NdBuffer.Proofs.Session.Duplicating
import NdBuffer.Proofs.Buffer.Accessing
import NdBuffer.Proofs.Session.Supply
import NdBuffer.Proofs.Session.Accessing
import NdBuffer.Proofs.Session.Requests
import NdBuffer.Proofs.Memory.Copying
import NdBuffer.Proofs.Session.Overlapping
import NdBuffer.Proofs.Text.DeviceNames
import NdBuffer.Proofs.Memory.Rounding
import NdBuffer.Proofs.Buffer.Refusals
import NdBuffer.Proofs.Shape.Strides
import NdBuffer.Proofs.Session.Axes
