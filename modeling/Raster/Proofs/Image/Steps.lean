import Raster.Image
import Raster.Proofs.Kernel.Transform

/-!
Sequences of operations on an owned image.  Main statements: `ImageStep.outcome`, an operation is
refused or gives a number or a whole image, `ImageStep.performAll_kept`, operations do not notice
that refused ones are gone, and `ImageStep.current_whole`, the current image stays whole.
-/

namespace Raster

/-- The image has exactly the samples of its size. -/
def Image.Whole {α : Type} {channels : Nat} (image : Image α channels) : Prop :=
  image.samples.size = image.width * image.height * channels

namespace ImageStep

variable {α : Type} {channels : Nat}

/-- What an operation can yield: a refusal, a number or a whole image, and never a fault. -/
inductive Outcome : Except Refusal (Option (ImageAnswer α channels)) → Prop where
  | refused (reason : Refusal) : Outcome (.error reason)
  | norm (value : Float) : Outcome (.ok (some (.norm value)))
  | image (fresh : Image α channels) (whole : fresh.Whole) : Outcome (.ok (some (.image fresh)))

/-- An outcome is reached through a judgement when it is reached after the judgement is passed. -/
theorem Outcome.bind {β : Type} {first : Except Refusal β}
    {rest : β → Except Refusal (Option (ImageAnswer α channels))}
    (passed : ∀ given, first = .ok given → Outcome (rest given)) : Outcome (first >>= rest) := by
  -- What comes after a refusal is never asked for.
  cases first with
  | error reason => exact .refused reason
  | ok given => exact passed given rfl

/-- The image that is current after operations have answered. -/
def current (image : Image α channels)
    (answers : List (Except Refusal (Option (ImageAnswer α channels)))) : Image α channels :=
  answers.foldl next image

/-- Whether an operation was accepted, judged by its answer. -/
def accepted (answer : Except Refusal (Option (ImageAnswer α channels))) : Bool :=
  answer.toOption.isSome

/-- A refused operation leaves the current image as it is. -/
theorem next_of_refused {answer : Except Refusal (Option (ImageAnswer α channels))}
    (refused : accepted answer = false) (image : Image α channels) : next image answer = image := by
  -- Only an answer with an image is another image.
  cases answer with
  | error reason => rfl
  | ok result => cases refused

/-- The current image does not notice that refused operations are gone. -/
theorem current_filter (image : Image α channels)
    (answers : List (Except Refusal (Option (ImageAnswer α channels)))) :
    current image (answers.filter accepted) = current image answers := by
  -- By induction on the answers, from whichever image they start.
  induction answers generalizing image with
  | nil => rfl
  | cons answer rest ih =>
    by_cases passed : accepted answer
    · rw [List.filter_cons_of_pos passed]
      exact ih _
    -- An answer that is left out would not have changed the image.
    · rw [List.filter_cons_of_neg passed, ih, current, current, List.foldl_cons,
        next_of_refused (by simpa using passed)]

/-- A step from a whole image leads to a whole image. -/
theorem next_whole {image : Image α channels} (whole : image.Whole)
    {answer : Except Refusal (Option (ImageAnswer α channels))} (given : Outcome answer) :
    (next image answer).Whole := by
  -- Of the three outcomes only an image takes the place of the current one.
  cases given with
  | refused reason => exact whole
  | norm value => exact whole
  | image fresh filled => exact filled

/-- After any operations on a whole image the current image is whole. -/
theorem current_whole {image : Image α channels} (whole : image.Whole)
    {answers : List (Except Refusal (Option (ImageAnswer α channels)))}
    (given : ∀ answer ∈ answers, Outcome answer) : (current image answers).Whole := by
  -- Every answer before has left a whole image.
  induction answers generalizing image with
  | nil => exact whole
  | cons answer rest ih =>
    exact ih (next_whole whole (given answer (by simp))) fun later member =>
      given later (by simp [member])

variable [Element α Float32 Float]

/-- A kernel that writes over a blank image of some size gives a whole image of that size. -/
theorem Outcome.ofView (writer : Writer) (source target : View α channels) {width height : Nat}
    (blank : (Image.blank α channels width height).view = .ok target) :
    Outcome (writer.run source target >>= fun result =>
      pure ((result.map (Image.ofView width height)).map ImageAnswer.image)) := by
  refine Outcome.bind fun result accepted => ?_
  obtain ⟨written, rfl, left, -⟩ := Writer.overwrites accepted
  -- Overwriting keeps the number of samples, which is that of the blank image.
  refine .image _ ?_
  show written.data.size = width * height * channels
  rw [left.size, (View.of_make blank).2.2]
  exact Array.size_replicate

/-- An operation on an image is refused or gives a number or a whole image. -/
theorem outcome (step : ImageStep) (image : Image α channels) : Outcome (step.perform image) := by
  -- Each step judges its selectors and its views, and then runs a kernel that finishes.
  cases step with
  | resized width height mode =>
    simp only [perform, Image.resized, bind_assoc, pure_bind]
    exact .bind fun source _ => .bind fun target blank =>
      .ofView (.resize mode) source target blank
  | boxFiltered request =>
    simp only [perform, Image.boxFiltered, bind_assoc, pure_bind]
    exact .bind fun window _ => .bind fun source _ => .bind fun target blank =>
      .ofView (.boxFilter window) source target blank
  | norm code =>
    refine .bind fun kind _ => .bind fun source _ => .bind fun outcome accepted => ?_
    -- The groups of an image kernel are a fixed number, which is not zero.
    obtain ⟨value, rfl⟩ := norm_finishes (by decide) accepted
    exact .norm value
  | normMasked code mask =>
    refine .bind fun kind _ => .bind fun source _ => .bind fun marks _ =>
      .bind fun outcome accepted => ?_
    obtain ⟨value, rfl⟩ := norm_finishes (by decide) accepted
    exact .norm value

/-- The operations of a sequence that are accepted when the sequence is performed on an image. -/
def kept (image : Image α channels) (steps : List ImageStep) : List ImageStep :=
  ((steps.zip (performAll image steps)).filter (accepted ·.2)).map Prod.fst

/-- Operations do not notice that refused ones are gone. -/
theorem performAll_kept (image : Image α channels) (steps : List ImageStep) :
    performAll image (kept image steps) = (performAll image steps).filter accepted := by
  -- The images that later steps see are the same, because a refused step makes none.
  induction steps generalizing image with
  | nil => rfl
  | cons step rest ih =>
    by_cases passed : accepted (step.perform image)
    · have keeps : kept image (step :: rest) =
          step :: kept (next image (step.perform image)) rest := by
        simp [kept, performAll, passed]
      rw [keeps, performAll, performAll, ih, List.filter_cons_of_pos passed]
    · have drops : kept image (step :: rest) = kept image rest := by
        simp [kept, performAll, passed, next_of_refused]
      rw [drops, ih, performAll, List.filter_cons_of_neg passed,
        next_of_refused (by simpa using passed)]

/-- Every answer of a sequence is a refusal, a number or a whole image. -/
theorem outcome_of_mem {image : Image α channels} {steps : List ImageStep}
    {answer : Except Refusal (Option (ImageAnswer α channels))}
    (member : answer ∈ performAll image steps) : Outcome answer := by
  -- Each step sees the image that the ones before it left.
  induction steps generalizing image with
  | nil => cases member
  | cons step rest ih =>
    rcases List.mem_cons.mp member with rfl | later
    · exact step.outcome image
    · exact ih later

end ImageStep

end Raster
