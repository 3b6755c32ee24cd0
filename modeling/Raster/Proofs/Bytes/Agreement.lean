import Raster.Proofs.Bytes.Samples
import Raster.Proofs.Kernel.Transform

/-!
Untyped calls and typed ones.  Main statement: `untyped_agrees_typed`, a kernel on byte buffers is
accepted when the formats agree, the buffers are aligned and the typed kernel on their whole
samples is accepted, and then it leaves the bytes of what the typed kernel leaves.
-/

namespace Raster

section

variable {β γ σ : Type}

/-- What a call does that is decided before it writes: a refusal, a fault or the value written. -/
def decided (place : β) : Except Refusal (Option β) → Option (Except Refusal Unit × β)
  -- Until it writes, a call has done nothing to its place.
  | .error reason => some (.error reason, place)
  | .ok none => none
  | .ok (some left) => some (.ok (), left)

/-- A call that looks at its place starts with what is there. -/
theorem Call.after_get (rest : β → Call β Unit) (place : β) :
    Call.after (get >>= rest) place = (rest place).after place := rfl

/-- A judgement at the start of a call is one at the start of the decision. -/
theorem Call.after_judged {judgement : Except Refusal γ} {rest : γ → Call β Unit}
    {decision : γ → Except Refusal (Option β)} {place : β}
    (later : ∀ given, (rest given).after place = decided place (decision given)) :
    Call.after (monadLift judgement >>= rest) place = decided place (judgement >>= decision) := by
  -- A refusal ends both at once; otherwise both go on with what was judged.
  cases judgement with
  | error reason => rfl
  | ok given => exact later given

/-- A call that has its result writes it, and faults when there is none. -/
theorem Call.after_written (result : Option γ) (written : γ → β) (place : β) :
    Call.after (do let value ← monadLift result; set (written value)) place =
      decided place (.ok (result.map written)) := by
  cases result with
  | none => rfl
  | some value => rfl

/-- An untyped call does to its place what its selectors, the formats of its images and a typed call
decide: it finishes, it is accepted when they permit it, and writes only then. -/
structure Agrees (call : Call β Unit) (place : β) (selection : Except Refusal σ) (matched : Prop)
    (typed : σ → Except Refusal (Option γ)) (leaves : γ → β → Prop) : Prop where
  -- Whatever the place holds, the call has an answer.
  finishes : ∃ answer left, call.after place = some (answer, left)
  accepts : (∃ left, call.after place = some (.ok (), left)) ↔
    ∃ selected, selection = .ok selected ∧ matched ∧ ∃ outcome, typed selected = .ok outcome
  accepted : ∀ selected left, selection = .ok selected →
    call.after place = some (.ok (), left) →
    ∃ value, typed selected = .ok (some value) ∧ leaves value left
  refused : ∀ reason left, call.after place = some (.error reason, left) → left = place

/-- A call agrees with typed calls that finish when it is decided before it writes, and decided as
they are, as far as all else permits. -/
theorem Agrees.of_decided {call : Call β Unit} {place : β} {decision : Except Refusal (Option β)}
    {selection : Except Refusal σ} {matched : Prop} {typed : σ → Except Refusal (Option γ)}
    {leaves : γ → β → Prop} (written : γ → β) (performs : call.after place = decided place decision)
    (settles : ∀ outcome, decision = .ok outcome ↔ ∃ selected, selection = .ok selected ∧ matched ∧
      ∃ result, typed selected = .ok result ∧ outcome = result.map written)
    (ends : ∀ selected outcome, typed selected = .ok outcome →
      ∃ value, outcome = some value ∧ leaves value (written value)) :
    Agrees call place selection matched typed leaves := by
  cases decision with
  | error reason =>
    -- A refusal is answered with the place as it was, and no typed call is permitted.
    refine ⟨⟨_, _, performs⟩, ⟨?_, ?_⟩, ?_, ?_⟩
    · -- The answer is a refusal, so the call was not accepted.
      rintro ⟨left, accepted⟩
      rw [performs] at accepted
      cases accepted
    · -- What the typed call permits would have been the decision.
      rintro ⟨selected, chosen, held, result, run⟩
      cases (settles _).mpr ⟨selected, chosen, held, result, run, rfl⟩
    · intro selected left chosen accepted
      rw [performs] at accepted
      cases accepted
    · -- Nothing was written before the refusal, whatever its reason.
      intro other left refusal
      rw [performs] at refusal
      cases refusal
      rfl
  | ok outcome =>
    -- The typed call that permits the outcome has a value, which is what is written.
    obtain ⟨selected, chosen, held, result, run, rfl⟩ := (settles outcome).mp rfl
    obtain ⟨value, rfl, kept⟩ := ends selected result run
    refine ⟨⟨_, _, performs⟩, ⟨?_, ?_⟩, ?_, ?_⟩
    · intro _
      exact ⟨selected, chosen, held, _, run⟩
    · intro _
      exact ⟨_, performs⟩
    · -- Only one selection succeeds, and what was decided for it is what is found in the place.
      intro other left again accepted
      rw [chosen, Except.ok.injEq] at again
      subst again
      rw [performs] at accepted
      cases accepted
      exact ⟨value, run, kept⟩
    · intro reason left refusal
      rw [performs] at refusal
      cases refusal

end

namespace ByteImage

/-- The typed call of a kernel that writes: views of whole samples, then the kernel. -/
def typedWrite (writer : Writer) (source target : ByteImage) (depth : Depth) :
    Except Refusal (Option (View depth.Sample source.descriptor.channels)) := do
  -- The channel count is that of the source, which has to be the target's.
  let sourceView ← source.typed depth source.descriptor.channels
  let targetView ← target.typed depth source.descriptor.channels
  writer.run sourceView targetView

/-- The typed call of a norm: views of whole samples, then the norm. -/
def typedNorm (kind : NormKind) (limit : Nat) (source : ByteImage) (mask : Option ByteImage)
    (depth : Depth) : Except Refusal (Option Float) := do
  let sourceView ← source.typed depth source.descriptor.channels
  -- A mask has single bytes, whatever the samples of the image are.
  let marks ← marksBy (typed · .byte 1) mask
  Raster.norm kind limit sourceView marks

/-- Two images of one sample type and channel count in buffers aligned for their samples. -/
structure Matched (source target : ByteImage) (depth : Depth) : Prop where
  type : source.descriptor.type = target.descriptor.type
  -- Alignment is asked of the buffers and not of the views, which have whole samples.
  channels : source.descriptor.channels = target.descriptor.channels
  aligned : source.Aligned depth
  targetAligned : target.Aligned depth

/-- A mask has single bytes for pixels. -/
def IsMask (image : ByteImage) : Prop :=
  -- Any other format is refused before the mask is looked at.
  image.descriptor.type = .u8 ∧ image.descriptor.channels = 1 ∧ image.Aligned .byte

variable {source target : ByteImage} {depth : Depth} {limit : Nat}

/-- Formats are the same when the types and the channel counts are. -/
theorem checkSameFormat_eq_ok_iff {first second : Descriptor} :
    first.checkSameFormat second = .ok () ↔
      first.type = second.type ∧ first.channels = second.channels := by
  -- The types are compared before the counts.
  unfold Descriptor.checkSameFormat
  by_cases types : first.type = second.type
  · by_cases counts : first.channels = second.channels <;> simp [types, counts]
  · simp [types]

/-- An image is taken for a mask exactly when it is one and its typed view can be made. -/
theorem maskView_eq_ok_iff {mask : ByteImage} {marks : View UInt8 1} :
    mask.maskView = .ok marks ↔ mask.IsMask ∧ mask.typed .byte 1 = .ok marks := by
  -- Only bytes may be marks, and only one to a pixel; then the view is that of any image.
  unfold maskView IsMask
  cases type : mask.descriptor.type with
  | u8 =>
    by_cases single : mask.descriptor.channels = 1
    · simp only [single, if_true, true_and]
      exact view_eq_ok_iff
    · simp [single]
  | u16 => simp
  | i16 => simp
  | f32 => simp
  | f64 => simp

/-- Views of a mask are taken exactly when it is one, if it is there, and can be seen typed. -/
theorem marksBy_maskView {mask : Option ByteImage} {marks : Option (View UInt8 1)} :
    marksBy maskView mask = .ok marks ↔
      (∀ image ∈ mask, image.IsMask) ∧ marksBy (typed · .byte 1) mask = .ok marks := by
  cases mask with
  | none => simp [marksBy]
  | some mask =>
    constructor
    · -- A mask that is there was judged and seen.
      intro seen
      obtain ⟨view, seen, same⟩ := judged seen
      obtain ⟨isMask, made⟩ := maskView_eq_ok_iff.mp seen
      refine ⟨?_, judged_iff.mpr ⟨view, made, same⟩⟩
      rintro _ ⟨⟩
      exact isMask
    -- Conversely an image that is a mask passes the judgement and is seen.
    · rintro ⟨isMask, seen⟩
      obtain ⟨view, made, same⟩ := judged seen
      exact judged_iff.mpr ⟨view, maskView_eq_ok_iff.mpr ⟨isMask mask rfl, made⟩, same⟩

/-- A typed call of a kernel that writes finishes when it is not refused. -/
theorem typedWrite_finishes {writer : Writer}
    {outcome : Option (View depth.Sample source.descriptor.channels)}
    (accepted : typedWrite writer source target depth = .ok outcome) :
    ∃ written, outcome = some written ∧ written.data.size = (target.samples depth).size := by
  -- The kernel runs on views that were made, and what it writes has the size of its target.
  obtain ⟨sourceView, -, accepted⟩ := judged accepted
  obtain ⟨targetView, made, accepted⟩ := judged accepted
  obtain ⟨written, finished, kept, -⟩ := Writer.overwrites accepted
  refine ⟨written, finished, ?_⟩
  rw [kept.size, (View.of_make made).2.2]

/-- A typed norm finishes when it is not refused. -/
theorem typedNorm_finishes {kind : NormKind} (positive : 0 < limit) {mask : Option ByteImage}
    {outcome : Option Float}
    (accepted : typedNorm kind limit source mask depth = .ok outcome) :
    ∃ value, outcome = some value := by
  -- Views that were made have rows, which is all that the reduction needs.
  obtain ⟨_, -, accepted⟩ := judged accepted
  obtain ⟨_, -, accepted⟩ := judged accepted
  exact norm_finishes positive accepted

/-- The decision of an untyped call that writes, once the format is known: views of the byte
buffers, then the kernel. -/
def untypedWrite (writer : Writer) (source target : ByteImage) (depth : Depth) :
    Except Refusal (Option ByteImage) := do
  let sourceView ← source.view depth source.descriptor.channels
  let targetView ← target.view depth source.descriptor.channels
  let result ← writer.run sourceView targetView
  return result.map fun written => { target with bytes := target.withSamples depth written.data }

/-- Running a kernel onto an image is decided before anything is written. -/
theorem onto_after (writer : Writer) (source target : ByteImage) :
    (source.onto fun _ => writer.run).after target =
      decided target (source.descriptor.depth >>= untypedWrite writer source target) := by
  rw [onto, Call.after_get]
  -- One judgement after another, and then the result of the kernel.
  apply Call.after_judged
  intro depth
  apply Call.after_judged
  intro sourceView
  apply Call.after_judged
  intro targetView
  apply Call.after_judged
  intro result
  exact Call.after_written result _ target

/-- Once the format is known, an untyped call differs from a typed one by alignment and encoding. -/
theorem untypedWrite_eq_ok_iff {writer : Writer} {outcome : Option ByteImage} :
    untypedWrite writer source target depth = .ok outcome ↔
      (source.Aligned depth ∧ target.Aligned depth) ∧ ∃ result,
        typedWrite writer source target depth = .ok result ∧
        outcome = result.map fun written =>
          { target with bytes := target.withSamples depth written.data } := by
  constructor
  · -- What passed the judgements of the byte buffers passes those of the whole samples.
    intro accepted
    obtain ⟨sourceView, seen, accepted⟩ := judged accepted
    obtain ⟨targetView, held, accepted⟩ := judged accepted
    obtain ⟨result, run, same⟩ := judged accepted
    cases same
    obtain ⟨aligned, made⟩ := view_eq_ok_iff.mp seen
    obtain ⟨targetAligned, targetMade⟩ := view_eq_ok_iff.mp held
    refine ⟨⟨aligned, targetAligned⟩, result, ?_, rfl⟩
    refine judged_iff.mpr ⟨sourceView, made, ?_⟩
    exact judged_iff.mpr ⟨targetView, targetMade, run⟩
  · -- The same kernel runs on the same views, so its result is stored.
    rintro ⟨⟨aligned, targetAligned⟩, result, typed, rfl⟩
    obtain ⟨sourceView, made, typed⟩ := judged typed
    obtain ⟨targetView, targetMade, run⟩ := judged typed
    refine judged_iff.mpr ⟨sourceView, view_eq_ok_iff.mpr ⟨aligned, made⟩, ?_⟩
    refine judged_iff.mpr ⟨targetView, view_eq_ok_iff.mpr ⟨targetAligned, targetMade⟩, ?_⟩
    exact judged_iff.mpr ⟨result, run, rfl⟩

/-- An untyped call whose selection succeeds with the formats agreeing agrees with the typed calls
of the selected kernel. -/
theorem write_agrees {σ : Type} {call : Call ByteImage Unit}
    {decision : Except Refusal (Option ByteImage)} {selection : Except Refusal σ}
    (writer : σ → Writer) (performs : call.after target = decided target decision)
    (settles : ∀ outcome, decision = .ok outcome ↔ ∃ selected, selection = .ok selected ∧
      source.descriptor.checkSameFormat target.descriptor = .ok () ∧
      untypedWrite (writer selected) source target depth = .ok outcome) :
    Agrees call target selection (Matched source target depth)
      (fun selected => typedWrite (writer selected) source target depth)
      fun written => target.Rewritten depth written.data := by
  -- The format is judged with the selectors, and alignment with the views.
  apply Agrees.of_decided
    (fun written => { target with bytes := target.withSamples depth written.data }) performs
  · intro outcome
    rw [settles]
    apply exists_congr
    intro selected
    rw [checkSameFormat_eq_ok_iff, untypedWrite_eq_ok_iff]
    constructor
    · rintro ⟨chosen, ⟨type, channels⟩, ⟨aligned, targetAligned⟩, run⟩
      exact ⟨chosen, ⟨type, channels, aligned, targetAligned⟩, run⟩
    · rintro ⟨chosen, ⟨type, channels, aligned, targetAligned⟩, run⟩
      exact ⟨chosen, ⟨type, channels⟩, ⟨aligned, targetAligned⟩, run⟩
  · -- A typed call that is accepted has written as many samples as the target holds.
    intro selected outcome accepted
    obtain ⟨written, finished, size⟩ := typedWrite_finishes accepted
    exact ⟨written, finished, rewritten_withSamples size⟩

variable (supported : source.descriptor.depth = .ok depth)
include supported

/-- Resizing byte images agrees with resizing typed ones. -/
theorem resizeOnto_agrees (mode : Resampling) (target : ByteImage) :
    Agrees (resizeOnto mode source) target (.ok mode) (Matched source target depth)
      (fun mode => typedWrite (.resize mode) source target depth)
      fun written => target.Rewritten depth written.data := by
  -- The format is judged first, and then the images are as for any kernel.
  have performs : (resizeOnto mode source).after target = decided target
      (source.descriptor.checkSameFormat target.descriptor >>= fun _ =>
        source.descriptor.depth >>= untypedWrite (.resize mode) source target) := by
    rw [resizeOnto, Call.after_get]
    apply Call.after_judged
    intro _
    exact onto_after (.resize mode) source target
  apply write_agrees _ performs
  intro outcome
  constructor
  · -- The depth is the one that is supported, so the rest is the typed call.
    intro accepted
    obtain ⟨_, same, accepted⟩ := judged accepted
    obtain ⟨own, found, accepted⟩ := judged accepted
    rw [supported, Except.ok.injEq] at found
    subst found
    exact ⟨mode, rfl, same, accepted⟩
  · rintro ⟨_, ⟨⟩, same, accepted⟩
    refine judged_iff.mpr ⟨(), same, ?_⟩
    exact judged_iff.mpr ⟨depth, supported, accepted⟩

/-- Filtering byte images agrees with filtering typed ones by the window that is asked for. -/
theorem boxFilterOnto_agrees (width height border : Int) (normalize : Bool) (target : ByteImage) :
    Agrees (boxFilterOnto width height border normalize source) target
      (WindowRequest.window ⟨width.toNat, height.toNat, some border, normalize⟩)
      (Matched source target depth)
      (fun window => typedWrite (.boxFilter window) source target depth)
      fun written => target.Rewritten depth written.data := by
  -- The window is judged first, and the format of the images as part of it.
  have performs : (boxFilterOnto width height border normalize source).after target =
      decided target (window width height border normalize source target >>= fun window =>
        source.descriptor.depth >>= untypedWrite (.boxFilter window) source target) := by
    rw [boxFilterOnto, Call.after_get]
    apply Call.after_judged
    intro window
    exact onto_after (.boxFilter window) source target
  apply write_agrees _ performs
  intro outcome
  constructor
  · intro accepted
    obtain ⟨window, selected, accepted⟩ := judged accepted
    obtain ⟨own, found, accepted⟩ := judged accepted
    rw [supported, Except.ok.injEq] at found
    subst found
    -- The format is judged between the sides of the window and its border.
    obtain ⟨sides, positive, selected⟩ := judged selected
    obtain ⟨_, same, selected⟩ := judged selected
    obtain ⟨policy, known, selected⟩ := judged selected
    refine ⟨window, ?_, same, accepted⟩
    refine judged_iff.mpr ⟨sides, positive, ?_⟩
    exact judged_iff.mpr ⟨policy, known, selected⟩
  · rintro ⟨window, selected, same, accepted⟩
    -- Judgements that all pass may be made in either order.
    obtain ⟨sides, positive, selected⟩ := judged selected
    obtain ⟨policy, known, selected⟩ := judged selected
    refine judged_iff.mpr ⟨window, ?_, judged_iff.mpr ⟨depth, supported, accepted⟩⟩
    refine judged_iff.mpr ⟨sides, positive, ?_⟩
    refine judged_iff.mpr ⟨(), same, ?_⟩
    exact judged_iff.mpr ⟨policy, known, selected⟩

omit supported in
/-- An untyped norm is decided by its selector, its mask and its image, in this order. -/
theorem normInto_after (code : Int) (limit : Nat) (source : ByteImage) (mask : Option ByteImage)
    (out : Float) :
    (normInto code limit source mask).after out = decided out (do
      let kind ← NormKind.ofCode code
      let marks ← marksBy maskView mask
      let depth ← source.descriptor.depth
      let sourceView ← source.view depth source.descriptor.channels
      let result ← Raster.norm kind limit sourceView marks
      return result.map id) := by
  -- Five judgements, the last one that of the reduction, come before the number is stored.
  rw [normInto]
  apply Call.after_judged
  intro kind
  apply Call.after_judged
  intro marks
  apply Call.after_judged
  intro depth
  apply Call.after_judged
  intro sourceView
  apply Call.after_judged
  intro result
  exact Call.after_written result id out

/-- The norm of a byte image agrees with that of the typed image, under a mask or without one. -/
theorem normInto_agrees (code : Int) (positive : 0 < limit) (mask : Option ByteImage)
    (out : Float) :
    Agrees (normInto code limit source mask) out (NormKind.ofCode code)
      (source.Aligned depth ∧ ∀ image ∈ mask, image.IsMask)
      (fun kind => typedNorm kind limit source mask depth) fun value left => left = value := by
  apply Agrees.of_decided id (normInto_after code limit source mask out)
  · intro outcome
    constructor
    · intro accepted
      obtain ⟨kind, known, accepted⟩ := judged accepted
      obtain ⟨marks, masked, accepted⟩ := judged accepted
      obtain ⟨own, found, accepted⟩ := judged accepted
      rw [supported, Except.ok.injEq] at found
      subst found
      obtain ⟨sourceView, seen, accepted⟩ := judged accepted
      obtain ⟨result, run, same⟩ := judged accepted
      cases same
      -- The views are typed ones of an aligned image and of a mask that is one.
      obtain ⟨aligned, made⟩ := view_eq_ok_iff.mp seen
      obtain ⟨isMask, typed⟩ := marksBy_maskView.mp masked
      refine ⟨kind, known, ⟨aligned, isMask⟩, result, ?_, rfl⟩
      refine judged_iff.mpr ⟨sourceView, made, ?_⟩
      exact judged_iff.mpr ⟨marks, typed, run⟩
    · rintro ⟨kind, known, ⟨aligned, isMask⟩, result, accepted, rfl⟩
      obtain ⟨sourceView, made, accepted⟩ := judged accepted
      obtain ⟨marks, typed, run⟩ := judged accepted
      refine judged_iff.mpr ⟨kind, known, ?_⟩
      refine judged_iff.mpr ⟨marks, marksBy_maskView.mpr ⟨isMask, typed⟩, ?_⟩
      refine judged_iff.mpr ⟨depth, supported, ?_⟩
      refine judged_iff.mpr ⟨sourceView, view_eq_ok_iff.mpr ⟨aligned, made⟩, ?_⟩
      exact judged_iff.mpr ⟨result, run, rfl⟩
  · -- A norm of rows that could be seen is a number, which is what is stored.
    intro kind outcome accepted
    obtain ⟨value, finished⟩ := typedNorm_finishes positive accepted
    exact ⟨value, finished, rfl⟩

end ByteImage

/--
Untyped calls agree with typed ones.

The typed views are over the whole samples that a buffer spells, lowest byte first. For a source of
a supported format a call on byte buffers is accepted exactly when its selectors are valid, the
formats agree, the buffers are aligned and the typed call is accepted. An accepted call leaves bytes
that spell the typed result, with those past the last whole sample as they were, or the typed norm;
a refused one leaves everything as it was.
-/
theorem untyped_agrees_typed {source : ByteImage} {depth : Depth}
    (supported : source.descriptor.depth = .ok depth) {limit : Nat} (positive : 0 < limit) :
    (∀ (image : ByteImage) (depth : Depth),
      (image.samples depth).size = image.bytes.length / depth.size ∧
      depth.Spells image.bytes (image.samples depth).toList) ∧
    (∀ mode target, Agrees (ByteImage.resizeOnto mode source) target (.ok mode)
      (source.Matched target depth)
      (fun mode => ByteImage.typedWrite (.resize mode) source target depth)
      fun written => target.Rewritten depth written.data) ∧
    (∀ width height border normalize target,
      Agrees (ByteImage.boxFilterOnto width height border normalize source) target
      (WindowRequest.window ⟨width.toNat, height.toNat, some border, normalize⟩)
      (source.Matched target depth)
      (fun window => ByteImage.typedWrite (.boxFilter window) source target depth)
      fun written => target.Rewritten depth written.data) ∧
    ∀ code mask (out : Float), Agrees (ByteImage.normInto code limit source mask) out
      (NormKind.ofCode code) (source.Aligned depth ∧ ∀ image ∈ mask, ByteImage.IsMask image)
      (fun kind => ByteImage.typedNorm kind limit source mask depth)
      fun value left => left = value := by
  refine ⟨?_, ?_, ?_, ?_⟩
  · intro image depth
    exact ⟨image.size_samples depth, depth.spells_decode image.bytes⟩
  · intro mode target
    exact ByteImage.resizeOnto_agrees supported mode target
  · intro width height border normalize target
    exact ByteImage.boxFilterOnto_agrees supported width height border normalize target
  · intro code mask out
    exact ByteImage.normInto_agrees supported code positive mask out

/-- Two rows of two singles with a single between them, and two bytes that belong to none. -/
def fourSingles : ByteImage where
  descriptor := ⟨.f32, 1, 2, 2, 3⟩
  address := 8
  bytes := [0, 0, 128, 63, 0, 0, 0, 64, 9, 9, 9, 9, 0, 0, 64, 64, 0, 0, 192, 64, 5, 6]

/-- Two rows of one single, with a single between them and a byte after them. -/
def columnOfSingles (first second : List UInt8) : ByteImage where
  descriptor := ⟨.f32, 1, 2, 1, 2⟩
  address := 16
  bytes := first ++ [1, 2, 3, 4] ++ second ++ [7]

/-- Bytes that show two rows of two bytes, at a distance of their own. -/
def bytesApart (stride : Nat) (bytes : List UInt8) : ByteImage :=
  ⟨⟨.u8, 1, 2, 2, stride⟩, 3, bytes⟩

/-- On padded rows: means of two singles, 1.5 and 4.5, means over windows of four bytes and the norm
of two marked bytes are stored, and what lies between and after the samples stays. So does a number
in the place of an unknown norm. -/
theorem untyped_agrees_typed_paddedRows :
    (∃ written, ByteImage.typedWrite (.resize .linear) fourSingles
        (columnOfSingles [1, 1, 1, 1] [2, 2, 2, 2]) .single = .ok (some written) ∧
      Depth.single.Spells [0, 0, 192, 63, 1, 2, 3, 4, 0, 0, 144, 64, 7] written.data.toList ∧
      (ByteImage.resizeOnto .linear fourSingles).after
          (columnOfSingles [1, 1, 1, 1] [2, 2, 2, 2]) =
        some (.ok (), columnOfSingles [0, 0, 192, 63] [0, 0, 144, 64])) ∧
    (∃ written, ByteImage.typedWrite (.boxFilter ⟨2, 2, true, .replicate⟩)
        (bytesApart 3 [10, 20, 99, 30, 40]) (bytesApart 4 [0, 0, 1, 2, 0, 0, 8]) .byte =
          .ok (some written) ∧
      Depth.byte.Spells [10, 15, 1, 2, 20, 25, 8] written.data.toList ∧
      (ByteImage.boxFilterOnto 2 2 1 true (bytesApart 3 [10, 20, 99, 30, 40])).after
          (bytesApart 4 [0, 0, 1, 2, 0, 0, 8]) =
        some (.ok (), bytesApart 4 [10, 15, 1, 2, 20, 25, 8])) ∧
    ByteImage.typedNorm .l2 2 (bytesApart 3 [30, 20, 99, 10, 40])
        (some (bytesApart 2 [1, 0, 0, 255])) .byte = .ok (some 50) ∧
    (ByteImage.normInto 4 2 (bytesApart 3 [30, 20, 99, 10, 40])
      (some (bytesApart 2 [1, 0, 0, 255]))).after 7 = some (.ok (), 50) ∧
    (ByteImage.normInto 3 2 (bytesApart 3 [30, 20, 99, 10, 40]) none).after 7 =
      some (.error (.unknownNorm 3), 7) := by
  obtain ⟨-, resizes, -, -⟩ := @untyped_agrees_typed fourSingles .single rfl 1 (by decide)
  obtain ⟨-, -, filters, -⟩ :=
    @untyped_agrees_typed (bytesApart 3 [10, 20, 99, 30, 40]) .byte rfl 1 (by decide)
  obtain ⟨-, -, -, norms⟩ :=
    @untyped_agrees_typed (bytesApart 3 [30, 20, 99, 10, 40]) .byte rfl 2 (by decide)
  refine ⟨?_, ?_, ?_⟩
  · -- Each stored single lies beside the space between the rows, which is left as it was.
    have resized := resizes .linear (columnOfSingles [1, 1, 1, 1] [2, 2, 2, 2])
    obtain ⟨left, ran⟩ := resized.accepts.mpr ⟨.linear, rfl, ⟨rfl, rfl, rfl, rfl⟩, _, rfl⟩
    obtain ⟨written, typed, rewritten⟩ := resized.accepted _ _ rfl ran
    have stored : ((ByteImage.resizeOnto .linear fourSingles).after
        (columnOfSingles [1, 1, 1, 1] [2, 2, 2, 2])).map (·.2) =
      some (columnOfSingles [0, 0, 192, 63] [0, 0, 144, 64]) := by decide +kernel
    rw [ran, Option.map_some, Option.some.injEq] at stored
    subst stored
    exact ⟨written, typed, rewritten.spelled, ran⟩
  · -- An even window reaches back, so that the first column sees its own sample twice.
    have filtered := filters 2 2 1 true (bytesApart 4 [0, 0, 1, 2, 0, 0, 8])
    obtain ⟨left, ran⟩ := filtered.accepts.mpr
      ⟨⟨2, 2, true, .replicate⟩, rfl, ⟨rfl, rfl, rfl, rfl⟩, _, rfl⟩
    obtain ⟨written, typed, rewritten⟩ := filtered.accepted _ _ rfl ran
    have stored : ((ByteImage.boxFilterOnto 2 2 1 true (bytesApart 3 [10, 20, 99, 30, 40])).after
        (bytesApart 4 [0, 0, 1, 2, 0, 0, 8])).map (·.2) =
      some (bytesApart 4 [10, 15, 1, 2, 20, 25, 8]) := by decide +kernel
    rw [ran, Option.map_some, Option.some.injEq] at stored
    subst stored
    exact ⟨written, typed, rewritten.spelled, ran⟩
  · -- The marked samples are 30 and 40, one in each row.
    have masked := norms 4 (some (bytesApart 2 [1, 0, 0, 255])) 7
    have isMask : ∀ image ∈ some (bytesApart 2 [1, 0, 0, 255]), ByteImage.IsMask image := by
      rintro _ ⟨⟩
      exact ⟨rfl, rfl, rfl⟩
    obtain ⟨left, ran⟩ := masked.accepts.mpr ⟨.l2, rfl, ⟨rfl, isMask⟩, _, rfl⟩
    obtain ⟨value, typed, rfl⟩ := masked.accepted _ _ rfl ran
    have stored : ((ByteImage.normInto 4 2 (bytesApart 3 [30, 20, 99, 10, 40])
      (some (bytesApart 2 [1, 0, 0, 255]))).after 7).map (·.2) = some 50 := by decide +kernel
    rw [ran, Option.map_some, Option.some.injEq] at stored
    subst stored
    exact ⟨typed, ran, rfl⟩

end Raster
