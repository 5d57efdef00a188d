import Packetry.Packet

/-!
# Conventional replies

The reply to a packet is found by its name: `Pong` answers `Ping`, `…Response` answers
`…Request` and `…Res` answers `…Req`. No other name has a conventional reply.
-/

namespace Packetry

/-- What stands before an ending, if the text has that ending. -/
def stem? (text ending : List Char) : Option (List Char) :=
  if ending.isSuffixOf text then some (text.take (text.length - ending.length)) else none

/-- A text with one ending put for another, if it has the first. -/
def withEnding? (text : String) (old new : String) : Option String :=
  (stem? text.toList old.toList).map fun stem => String.ofList (stem ++ new.toList)

/-- The name of the packet that answers a packet of that name. -/
def replyName? (request : String) : Option String :=
  if request = "Ping" then some "Pong"
  else withEnding? request "Request" "Response" <|> withEnding? request "Req" "Res"

/-- The stem and the ending make up the text. -/
theorem stem?_eq_some_iff {text ending stem : List Char} :
    stem? text ending = some stem ↔ text = stem ++ ending := by
  unfold stem?
  constructor
  · intro h
    split at h
    · rename_i hs
      obtain ⟨pre, rfl⟩ := List.isSuffixOf_iff_suffix.1 hs
      simp at h
      rw [h]
    · exact absurd h (by simp)
  · rintro rfl
    simp

end Packetry
