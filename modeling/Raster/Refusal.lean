import Raster.SampleType

/-! The reasons for which a view, a launch or an engine is refused, and their wording. -/

namespace Raster

/-- The height and width of an image. -/
structure Extent where
  height : Nat
  width : Nat
  deriving DecidableEq, Repr

/-- A reason for refusing work; refused work leaves every buffer as it was. -/
inductive Refusal where
  | emptyImage (extent : Extent)
  | shortStride (stride minimum : Nat)
  | emptyWindow (width height : Nat)
  | unknownNorm (code : Int)
  | unknownBorder (code : Int)
  | extentMismatch (expected actual : Extent)
  | unsupportedChannels (channels : Nat)
  | unsupportedSamples (type : SampleType)
  | noBuffer
  | shortBuffer (required actual : Nat)
  | misaligned
  | badSettings (reason : String)
  | startFailed (reason : String)
  | streamClosed
  deriving DecidableEq, Repr

/-- An extent as messages show it: height first, in parentheses. -/
def Extent.text (extent : Extent) : String :=
  s!"({extent.height}, {extent.width})"

/-- The text reported for a refusal. -/
def Refusal.message : Refusal → String
  | .emptyImage extent =>
    s!"Invalid image dimensions: {extent.height}x{extent.width} (height x width) must be non-zero"
  | .shortStride stride minimum =>
    s!"Invalid stride: {stride} elements, at least {minimum} required"
  | .emptyWindow width height => s!"Invalid kernel size: {width}x{height} must be non-zero"
  | .unknownNorm code => s!"Invalid norm kind: {code}"
  | .unknownBorder code => s!"Invalid border type: {code}"
  | .extentMismatch expected actual =>
    s!"Image and mask dimensions do not match: expected {expected.text}, actual {actual.text}"
  | .unsupportedChannels channels =>
    s!"Unsupported channel count: {channels} (1, 3 and 4 are supported)"
  | .unsupportedSamples type => s!"Unsupported element type: {type.name}"
  | .noBuffer => "Null buffer pointer"
  | .shortBuffer required actual =>
    s!"Buffer too small: {required} elements required, got {actual}"
  | .misaligned => "Buffer is not aligned for its element type"
  | .badSettings reason => s!"Invalid context configuration: {reason}"
  | .startFailed reason => s!"Failed to create execution context: {reason}"
  | .streamClosed => "Stream terminated"

/-- The channel counts that kernels process. -/
def supportedChannels : List Nat := [1, 3, 4]

/-- Refuses a channel count that kernels do not process. -/
def checkChannels (channels : Nat) : Except Refusal Unit :=
  if channels ∈ supportedChannels then .ok () else .error (.unsupportedChannels channels)

/-- Refuses an image or mask whose extent is not the expected one. -/
def checkExtent (expected actual : Extent) : Except Refusal Unit :=
  if expected = actual then .ok () else .error (.extentMismatch expected actual)

end Raster
