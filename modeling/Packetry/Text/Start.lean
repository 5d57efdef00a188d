/-!
# The start of a text

Reading a text from left to right: a literal that is expected at its start is taken off.
-/

namespace Packetry.Text

/-- The text behind a literal it starts with. -/
def behind? : List Char → List Char → Option (List Char)
  | [], text => some text
  | l :: literal, c :: text => if l = c then behind? literal text else none
  | _ :: _, [] => none

/-- A literal is taken off exactly where it was put. -/
theorem behind?_eq_some_iff {literal text rest : List Char} :
    behind? literal text = some rest ↔ text = literal ++ rest := by
  fun_induction behind? literal text with
  | case1 text => simp
  | case2 l literal text ih => simpa using ih
  | case3 l literal c text h => simp [Ne.symm h]
  | case4 => simp

end Packetry.Text
