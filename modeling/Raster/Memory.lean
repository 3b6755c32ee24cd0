import Raster.Norm

/-! Memory: named buffers of samples and the results of norms, and the images placed in buffers. -/

namespace Raster

/-- Samples of one depth. -/
structure Buffer where
  depth : Depth
  samples : Array depth.Sample

namespace Buffer

/-- The samples of the buffer, none when it holds another depth. -/
def samplesAt (buffer : Buffer) (depth : Depth) : Array depth.Sample :=
  if same : buffer.depth = depth then same ▸ buffer.samples else #[]

/-- The number of samples of the given depth. -/
def length (buffer : Buffer) (depth : Depth) : Nat :=
  if buffer.depth = depth then buffer.samples.size else 0

end Buffer

/-- What launches read and write: buffers by name, and the results of norms by number. -/
structure Memory where
  buffer : String → Buffer
  norm : Nat → Float

namespace Memory

/-- Replaces the content of a buffer. -/
def setBuffer (memory : Memory) (name : String) (buffer : Buffer) : Memory :=
  { memory with buffer := fun other => if other = name then buffer else memory.buffer other }

/-- Replaces the result of a norm. -/
def setNorm (memory : Memory) (slot : Nat) (value : Float) : Memory :=
  { memory with norm := fun other => if other = slot then value else memory.norm other }

@[simp] theorem buffer_setBuffer (memory : Memory) (name other : String) (buffer : Buffer) :
    (memory.setBuffer name buffer).buffer other =
      if other = name then buffer else memory.buffer other := rfl

@[simp] theorem norm_setBuffer (memory : Memory) (name : String) (buffer : Buffer) :
    (memory.setBuffer name buffer).norm = memory.norm := rfl

@[simp] theorem norm_setNorm (memory : Memory) (slot other : Nat) (value : Float) :
    (memory.setNorm slot value).norm other = if other = slot then value else memory.norm other :=
  rfl

@[simp] theorem buffer_setNorm (memory : Memory) (slot : Nat) (value : Float) :
    (memory.setNorm slot value).buffer = memory.buffer := rfl

/-- The number of samples of each buffer, which no launch changes. -/
def lengths (memory : Memory) (name : String) (depth : Depth) : Nat :=
  (memory.buffer name).length depth

end Memory

/-- An image in a named buffer, from the sample at `offset` on. -/
structure Region where
  buffer : String
  offset : Nat
  height : Nat
  width : Nat
  stride : Option Nat
  deriving DecidableEq, Repr

namespace Region

/-- The layout of the region; it is packed when it names no stride. -/
def layout (region : Region) (channels : Nat) : Layout :=
  Layout.ofStride channels region.height region.width region.stride

/-- Height and width. -/
def extent (region : Region) : Extent := ⟨region.height, region.width⟩

/-- Refuses a region that does not fit into buffers of the given lengths. -/
def check (region : Region) (lengths : String → Depth → Nat) (depth : Depth) (channels : Nat) :
    Except Refusal Unit :=
  (region.layout channels).check channels (lengths region.buffer depth - region.offset)

/-- The samples from the region's offset to the end of its buffer. -/
def part (region : Region) (memory : Memory) (depth : Depth) : Array depth.Sample :=
  let samples := (memory.buffer region.buffer).samplesAt depth
  samples.extract region.offset samples.size

/-- The region as a view of the memory's present samples. -/
def view (region : Region) (memory : Memory) (depth : Depth) (channels : Nat) :
    Except Refusal (View depth.Sample channels) :=
  View.make channels (region.layout channels) (region.part memory depth)

/-- The memory in which the samples from the region's offset on are those of a view. -/
def write (region : Region) (memory : Memory) {depth : Depth} {channels : Nat}
    (view : View depth.Sample channels) : Memory :=
  let samples := (memory.buffer region.buffer).samplesAt depth
  -- What lies before the region is kept; the view holds the rest of the buffer.
  memory.setBuffer region.buffer ⟨depth, samples.extract 0 region.offset ++ view.data⟩

end Region

end Raster
