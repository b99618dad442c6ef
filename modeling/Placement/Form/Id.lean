/-
JSON forms of identifiers: their texts.
-/
import Placement.Form
import Placement.Id.TaskId
import Placement.Id.VolumeId

namespace Placement

/-- The value of a string that a reader of texts accepts. -/
def Json.parsed? {α ε : Type} (parse : String → Except ε α) : Json → Option α
  | .str s => (parse s).toOption
  | _ => none

instance {kind : IdKind} : JsonForm (GeneratedId kind) where
  toJson id := .str id.text
  ofJson? := Json.parsed? GeneratedId.parse

instance : JsonForm RunSpecId where
  toJson id := .str id.path
  ofJson? := Json.parsed? RunSpecId.parse

instance : JsonForm TaskId where
  toJson id := .str id.text
  ofJson? := Json.parsed? TaskId.parse

instance : JsonForm VolumeId where
  toJson id := .str id.text
  ofJson? := Json.parsed? VolumeId.parse

end Placement
