import Raster.Box
import Raster.Bytes.Codec
import Raster.Bytes.Descriptor
import Raster.Norm
import Raster.Resize

/-!
Kernels on byte buffers: a descriptor chooses the samples, and the typed kernel works on the whole
samples that the buffer holds.
-/

namespace Raster

/-- A call on a place that holds a value: it may write there before it answers or is refused, and it
may fault. -/
abbrev Call (β : Type) := ExceptT Refusal (StateT β Option)

namespace Call

variable {β γ : Type}

/-- The answer of a call with what it leaves in its place, a fault when it has none. -/
def after (call : Call β γ) (place : β) : Option (Except Refusal γ × β) :=
  (ExceptT.run call).run place

/-- What a call that is not refused leaves in its place. -/
def outcome (call : Call β γ) (place : β) : Except Refusal (Option β) :=
  -- A refused call is known by its reason; what it leaves is its place as it was.
  match call.after place with
  | none => .ok none
  | some (.error reason, _) => .error reason
  | some (.ok _, left) => .ok (some left)

end Call

/-- A described image in a byte buffer that starts at `address`. -/
structure ByteImage where
  descriptor : Descriptor
  address : Nat
  bytes : List UInt8
  deriving DecidableEq, Repr

namespace ByteImage

/-- The image as a view of whole samples, refused when too short or not aligned for its samples. -/
def view (image : ByteImage) (depth : Depth) (channels : Nat) :
    Except Refusal (View depth.Sample channels) := do
  let length ← image.descriptor.checkedLength depth channels image.bytes.length
  -- The layout is judged before the alignment.
  if image.address % depth.size ≠ 0 then throw .misaligned
  View.make channels image.descriptor.layout (depth.decode (image.bytes.take length)).toArray

/-- The buffer with the samples of a view in place of its own whole samples. -/
def withSamples (image : ByteImage) (depth : Depth) (samples : Array depth.Sample) : List UInt8 :=
  let encoded := depth.encode samples.toList
  encoded ++ image.bytes.drop encoded.length

/-- Runs a kernel on the whole samples of an image and of the one in the place, and stores its
result there; the depth is judged first. -/
def onto (source : ByteImage)
    (kernel : (depth : Depth) → View depth.Sample source.descriptor.channels →
      View depth.Sample source.descriptor.channels →
      Except Refusal (Option (View depth.Sample source.descriptor.channels))) :
    Call ByteImage Unit := do
  -- All judgements come before the only store, so a refusal finds nothing written.
  let target ← get
  let depth ← source.descriptor.depth
  let sourceView ← source.view depth source.descriptor.channels
  let targetView ← target.view depth source.descriptor.channels
  let written ← (← kernel depth sourceView targetView)
  set { target with bytes := target.withSamples depth written.data }

/-- Resizes a byte image onto the one in the place. -/
def resizeOnto (mode : Resampling) (source : ByteImage) : Call ByteImage Unit := do
  let target ← get
  source.descriptor.checkSameFormat target.descriptor
  source.onto fun _ => Raster.resize mode

/-- Resizes one byte image onto another; the answer is the other's buffer. -/
def resize (mode : Resampling) (source target : ByteImage) :
    Except Refusal (Option (List UInt8)) :=
  (Option.map bytes) <$> (resizeOnto mode source).outcome target

/-- The window for signed sides, of which negative ones count as zero. -/
def window (width height border : Int) (normalize : Bool) (source target : ByteImage) :
    Except Refusal BoxWindow := do
  -- The window is judged first, then the format, then the border.
  let window ← BoxWindow.make width.toNat height.toNat
  source.descriptor.checkSameFormat target.descriptor
  let border ← Border.ofCode border
  return { window with border, normalize }

/-- Filters a byte image onto the one in the place. -/
def boxFilterOnto (width height border : Int) (normalize : Bool) (source : ByteImage) :
    Call ByteImage Unit := do
  let target ← get
  let window ← window width height border normalize source target
  source.onto fun _ => Raster.boxFilter window

/-- Filters one byte image onto another; the answer is the other's buffer. -/
def boxFilter (width height border : Int) (normalize : Bool) (source target : ByteImage) :
    Except Refusal (Option (List UInt8)) :=
  (Option.map bytes) <$> (boxFilterOnto width height border normalize source).outcome target

/-- The image as a mask, which has single bytes for pixels. -/
def maskView (mask : ByteImage) : Except Refusal (View UInt8 1) :=
  match mask.descriptor.type with
  | .u8 =>
    if mask.descriptor.channels = 1 then mask.view .byte 1
    else .error (.unsupportedChannels mask.descriptor.channels)
  -- A mask is bytes of one channel, whatever the image is.
  | type => .error (.unsupportedSamples type)

/-- What a view of a mask makes of one that need not be there. -/
def marksBy (view : ByteImage → Except Refusal (View UInt8 1)) :
    Option ByteImage → Except Refusal (Option (View UInt8 1))
  | none => .ok none
  -- Without a mask there is nothing to judge.
  | some mask => do
    let marks ← view mask
    return some marks

/-- Puts the norm of a byte image, or of the pixels that a mask selects, in the place of a
number. -/
def normInto (code : Int) (limit : Nat) (source : ByteImage) (mask : Option ByteImage) :
    Call Float Unit := do
  let kind ← NormKind.ofCode code
  let marks ← marksBy maskView mask
  let depth ← source.descriptor.depth
  let sourceView ← source.view depth source.descriptor.channels
  let value ← (← Raster.norm kind limit sourceView marks)
  set value

/-- The norm of a byte image, or of the pixels that a mask selects. -/
def norm (code : Int) (limit : Nat) (source : ByteImage) (mask : Option ByteImage) :
    Except Refusal (Option Float) :=
  (normInto code limit source mask).outcome 0

end ByteImage

end Raster
