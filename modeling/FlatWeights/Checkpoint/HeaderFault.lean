import FlatWeights.Text.Quoted

/-!
The reasons for which the header of a checkpoint is refused.
-/

set_option autoImplicit false

namespace FlatWeights

/-- What is wrong with the header of a checkpoint. -/
inductive HeaderFault where
  /-- The file ends before the length of the header. -/
  | tooSmall
  /-- The length of the header is above the permitted one. -/
  | tooLarge
  /-- The file ends before the header does. -/
  | pastEnd
  /-- The header is no text. -/
  | notText
  /-- The text describes no tensors. -/
  | notDescription
  /-- The bytes of a tensor do not follow those of the one before it. -/
  | misplaced (name : String)
  /-- A tensor would have more bytes than a size can count. -/
  | oversized
  /-- The bytes of a tensor are more or fewer than its shape asks for. -/
  | wrongLength
  /-- The tensors do not end where the file ends. -/
  | uncovered
deriving DecidableEq, Repr

/-- The word that stands for a fault in messages. -/
def HeaderFault.word : HeaderFault → String
  | tooSmall => "HeaderTooSmall"
  | tooLarge => "HeaderTooLarge"
  | pastEnd => "InvalidHeaderLength"
  | notText => "InvalidHeader"
  | notDescription => "InvalidHeaderDeserialization"
  | misplaced name => "InvalidOffset(" ++ Text.quoted name ++ ")"
  | oversized => "ValidationOverflow"
  | wrongLength => "TensorInvalidInfo"
  | uncovered => "MetadataIncompleteBuffer"

end FlatWeights
