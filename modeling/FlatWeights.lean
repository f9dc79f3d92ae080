import FlatWeights.Config.Writer
import FlatWeights.FileSystem.Disk
import FlatWeights.Main
import FlatWeights.Storage.Reader
import FlatWeights.Storage.Rehearsal
import FlatWeights.Proofs.Disk.Walk
import FlatWeights.Proofs.Disk.Requests
import FlatWeights.Proofs.Conversion.Atomicity
import FlatWeights.Proofs.Conversion.Recovery
import FlatWeights.Proofs.Checkpoint.File
import FlatWeights.Proofs.Conversion.Lossless
import FlatWeights.Proofs.Emitter.Calls
import FlatWeights.Proofs.Emitter.Frame
import FlatWeights.Proofs.Emitter.Collisions
import FlatWeights.Proofs.Conversion.Report
import FlatWeights.Proofs.Conversion.Order
import FlatWeights.Proofs.Verify
import FlatWeights.Proofs.Conversion.Verified
import FlatWeights.Proofs.Conversion.Overflow
import FlatWeights.Proofs.Conversion.Distinct
import FlatWeights.Proofs.Conversion.Prefix
import FlatWeights.Proofs.Conversion.Rerun
import FlatWeights.Proofs.Conversion.Ways
import FlatWeights.Proofs.Config.RoundTrip
import FlatWeights.Proofs.Config.Layers
import FlatWeights.Proofs.Verify.Order
import FlatWeights.Proofs.Conversion.Totals
import FlatWeights.Proofs.Conversion.FirstFailure
import FlatWeights.Proofs.Tensor.Canonical
import FlatWeights.Proofs.Tensor.Places
import FlatWeights.Proofs.Progress
