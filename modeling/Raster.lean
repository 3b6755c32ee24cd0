import Raster.Border.Word
import Raster.Bytes.Descriptor.Word
import Raster.Bytes.Kernels
import Raster.Engine.Text
import Raster.Image
import Raster.Layout.Word
import Raster.Resize.Nearest.Word
import Raster.View.Lemmas
import Raster.Workflow
import Raster.Proofs.Box.DirectSum
import Raster.Proofs.Launch.Finish
import Raster.Proofs.Resize.BlockMean
import Raster.Proofs.Resize.Constant
import Raster.Proofs.Resize.Coverage
import Raster.Proofs.View.Routes
import Raster.Proofs.Kernel.Transform
import Raster.Proofs.Kernel.Layouts
import Raster.Proofs.View.Chunks
import Raster.Proofs.Launch.Footprint
import Raster.Proofs.Launch.Visible
import Raster.Proofs.Launch.Order
import Raster.Proofs.Workflow.Listed
import Raster.Proofs.Workflow.Interleaving
import Raster.Proofs.Bytes.Samples
import Raster.Proofs.Bytes.Threshold
import Raster.Proofs.Bytes.Agreement
import Raster.Proofs.Workflow.Refused
import Raster.Proofs.Binary.Counting
import Raster.Proofs.Norm.Masked
import Raster.Proofs.Norm.Partition
import Raster.Proofs.Box.Locality
import Raster.Proofs.Resize.Idle
import Raster.Proofs.Resize.Duplicates
import Raster.Proofs.Norm.Sequential
import Raster.Proofs.Kernel.Channels
import Raster.Proofs.Kernel.Transpose
import Raster.Proofs.Resize.Footprint
import Raster.Proofs.Resize.Growing
import Raster.Proofs.Resize.WholeFactors
import Raster.Proofs.Binary.Reciprocal
import Raster.Proofs.Box.Exact
import Raster.Proofs.Box.Mean
import Raster.Proofs.Resize.Tiling
import Raster.Proofs.Resize.Identity
import Raster.Proofs.Resize.Ramp
import Raster.Proofs.Resize.Halving
import Raster.Proofs.Resize.Copies
import Raster.Proofs.Box.Digits
import Raster.Proofs.Layout.Requirements
import Raster.Box.Axis.Word
import Raster.Proofs.Border.Mirrored
import Raster.Proofs.Box.Folded
import Raster.Proofs.View.Accesses
import Raster.Proofs.Resize.Partition
import Raster.Proofs.Resize.Ranges
import Raster.Proofs.Launch.Words
