import Raster.Box
import Raster.Norm
import Raster.Resize

/-!
Owned images and sequences of operations on them: each operation answers for itself, and one that
is refused leaves the image as it was.
-/

namespace Raster

/-- An image that owns its samples, packed row after row. -/
structure Image (α : Type) (channels : Nat) where
  width : Nat
  height : Nat
  samples : Array α
  deriving DecidableEq, Repr

namespace Image

/-- Groups into which rows are divided when an image is summed. -/
def rowGroupLimit : Nat := 256

section

variable {α : Type} {channels : Nat}

/-- The image as a view, refused when it is empty or its samples do not fill it. -/
def view (image : Image α channels) : Except Refusal (View α channels) :=
  View.make channels (Layout.packed channels image.height image.width) image.samples

/-- The image as a view of pixels with `expected` samples, refused when its pixels have others. -/
def viewAs (image : Image α channels) (expected : Nat) : Except Refusal (View α expected) :=
  if same : channels = expected then same ▸ image.view
  else .error (.unsupportedChannels channels)

/-- The image of the given size with the samples of a view. -/
def ofView (width height : Nat) (view : View α channels) : Image α channels :=
  ⟨width, height, view.data⟩

end

variable {α S D : Type} [Scalar S] [Wide D S] [Element α S D] {channels : Nat}

/-- An image of the given size whose samples are all zero. -/
def blank (α : Type) {S D : Type} [Scalar S] [Element α S D] (channels width height : Nat) :
    Image α channels :=
  ⟨width, height, Array.replicate (width * height * channels) (Element.ofSingle Scalar.zero)⟩

/-- The image resized to the given size. -/
def resized (image : Image α channels) (width height : Nat) (mode : Resampling) :
    Except Refusal (Option (Image α channels)) := do
  let source ← image.view
  -- The image stays as it is: the result is written to a fresh one.
  let target ← (blank α channels width height).view
  let result ← resize mode source target
  return result.map (ofView width height)

/-- The image filtered by a window. -/
def boxFiltered (image : Image α channels) (window : BoxWindow) :
    Except Refusal (Option (Image α channels)) := do
  let source ← image.view
  -- The result has the extent of the image, so no mismatch can be refused here.
  let target ← (blank α channels image.width image.height).view
  let result ← boxFilter window source target
  return result.map (ofView image.width image.height)

end Image

/-- An operation on an owned image. -/
inductive ImageStep where
  | resized (width height : Nat) (mode : Resampling)
  | boxFiltered (request : WindowRequest)
  | norm (code : Int)
  | normMasked (code : Int) (mask : Image UInt8 1)
  deriving Repr

/-- What an operation yields: a new current image, or a number about the current one. -/
inductive ImageAnswer (α : Type) (channels : Nat) where
  | image (image : Image α channels)
  | norm (value : Float)

namespace ImageStep

variable {α : Type} [Element α Float32 Float] {channels : Nat}

/-- Performs one operation on an image; `none` is a fault. -/
def perform (image : Image α channels) : ImageStep →
    Except Refusal (Option (ImageAnswer α channels))
  | .resized width height mode => do
    return (← image.resized width height mode).map .image
  -- The window is checked before the image is viewed, and so is the kind of a norm.
  | .boxFiltered request => do
    let window ← request.window
    return (← image.boxFiltered window).map .image
  | .norm code => do
    let kind ← NormKind.ofCode code
    let source ← image.view
    return (← Raster.norm kind Image.rowGroupLimit source none).map .norm
  | .normMasked code mask => do
    let kind ← NormKind.ofCode code
    let source ← image.view
    let marks ← mask.view
    return (← Raster.norm kind Image.rowGroupLimit source (some marks)).map .norm

/-- The image that is current after an operation has answered. -/
def next (image : Image α channels) :
    Except Refusal (Option (ImageAnswer α channels)) → Image α channels
  -- Only a new image takes the place of the old one; a refusal leaves it.
  | .ok (some (.image fresh)) => fresh
  | _ => image

/-- The answers of operations performed one after another, each on the image then current. -/
def performAll (image : Image α channels) :
    List ImageStep → List (Except Refusal (Option (ImageAnswer α channels)))
  | [] => []
  | step :: rest =>
    let answer := step.perform image
    answer :: performAll (next image answer) rest

end ImageStep

end Raster
