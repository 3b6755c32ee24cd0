import Raster.Layout

/-! Descriptors of images in byte buffers, and the byte lengths that they need. -/

namespace Raster

/-- The sample type, channel count and layout of an image, known when a program runs. -/
structure Descriptor where
  type : SampleType
  channels : Nat
  height : Nat
  width : Nat
  /-- Samples, not bytes, between the starts of consecutive rows. -/
  stride : Nat
  deriving DecidableEq, Repr

namespace Descriptor

/-- The descriptor of a packed image; a row length beyond the largest word is that word. -/
def packed (type : SampleType) (channels height width : Nat) : Descriptor :=
  ⟨type, channels, height, width, saturate (width * channels)⟩

/-- The descriptor with the given stride, packed when there is none. -/
def ofStride (type : SampleType) (channels height width : Nat) (stride : Option Nat) :
    Descriptor :=
  match stride with
  -- Without a stride the rows follow one another.
  | none => packed type channels height width
  | some stride => ⟨type, channels, height, width, stride⟩

/-- The layout of the described image. -/
def layout (descriptor : Descriptor) : Layout :=
  ⟨descriptor.height, descriptor.width, descriptor.stride⟩

/-- The least bytes that hold the image, every step held at the largest word. -/
def requiredBytes (descriptor : Descriptor) : Nat :=
  if descriptor.height = 0 then 0
  -- Each step saturates, so a size past the words is reported as the largest of them.
  else
    let rows := saturate ((descriptor.height - 1) * descriptor.stride)
    let samples := saturate (rows + saturate (descriptor.width * descriptor.channels))
    saturate (samples * descriptor.type.size)

/-- The bytes of the whole samples in a buffer, refused when they do not hold the image. -/
def checkedLength (descriptor : Descriptor) (depth : Depth) (channels byteLength : Nat) :
    Except Refusal Nat := do
  -- Bytes after the last whole sample are left out.
  let samples := byteLength / depth.size
  descriptor.layout.check channels samples
  return samples * depth.size

/-- The depth at which the image is processed; its channel count is judged once the type is. -/
def depth (descriptor : Descriptor) : Except Refusal Depth :=
  match descriptor.type.depth? with
  -- The type is judged before the number of channels.
  | none => .error (.unsupportedSamples descriptor.type)
  | some depth => do
    checkChannels descriptor.channels
    return depth

/-- Refuses a second image whose samples or channels are not those of the first. -/
def checkSameFormat (first second : Descriptor) : Except Refusal Unit :=
  -- The type is compared first, and the second operand is the one at fault.
  if first.type ≠ second.type then .error (.unsupportedSamples second.type)
  else if first.channels ≠ second.channels then .error (.unsupportedChannels second.channels)
  else .ok ()

end Descriptor

end Raster
