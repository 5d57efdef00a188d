import Packetry.Proofs.Additions

/-!
# Editing in place

Whoever works on a document holds one and puts another one into its place: an edit is a program
with a document as its state, which answers with a fault if the region is not found
(`Packetry.Document.Editing`). A document is edited again and again, whatever the answers are
(`Packetry.Document.editAll`).

The region is looked for before anything is put. So an edit that fails leaves the document as it was
(`Packetry.Document.edit_of_error`), and one that succeeds puts a new interior between the sentinels
of the region and changes nothing else (`Packetry.Document.edit_of_splits`).
-/

namespace Packetry.Document

open Region

/-! ### Edits -/

/-- Programs that edit a document in place. -/
abbrev Editing :=
  ExceptT Region.Fault (StateM Document)

/-- Put a new text for the interior of a region. -/
def replaceInPlace (r : Region) (text : List Char) : Editing Unit := do
  set (← (← get).replace r text)

/-- Add the entries that a region lacks. The answer is their number. -/
def mergeInPlace (r : Region) (entries : List Entry) (form : HandlerForm) : Editing Nat := do
  let (d, added) ← (← get).merge r entries form
  set d
  return added.length

/-- What can be done to a document. -/
inductive Edit where
  /-- A new text for the interior of a region. -/
  | replace (r : Region) (text : List Char)
  /-- Entries that are added to a region, as far as it lacks them. -/
  | merge (r : Region) (entries : List Entry) (form : HandlerForm)

/-- The region that is edited. -/
def Edit.region : Edit → Region
  | replace r _ => r
  | merge r _ _ => r

/-- The interior that an edit puts in the place of another one. -/
def Edit.interior (old : List Char) : Edit → List Char
  | replace _ text => text
  | merge _ entries form => old ++ textOf (missing (form.names old) entries)

/-- The document after an edit, whether that succeeds or fails. -/
def edit (d : Document) : Edit → Document
  | .replace r text => ((replaceInPlace r text).run d).2
  | .merge r entries form => ((mergeInPlace r entries form).run d).2

/-- The document after some edits, each of which may succeed or fail. -/
def editAll (d : Document) (edits : List Edit) : Document :=
  edits.foldl edit d

/-! ### Answers -/

section Answers

variable {α β : Type} {d : Document} {l : Location}

/-- An edit that goes on only after a success, run on a document. -/
theorem run_lift_bind (x : Except Fault α) (f : α → Editing β) (d : Document) :
    ((liftM x : Editing α) >>= f).run d =
      match x with
      | .ok value => (f value).run d
      | .error fault => (.error fault, d) := by
  cases x with
  | ok value => rfl
  | error fault => rfl

/-- A replacement, in a document whose region was found. -/
theorem replace_eq {r : Region} (h : r.Splits d.text l) (text : List Char) :
    d.replace r text = .ok { d with text := l.around text } := by
  have hlocate : d.locate r = .ok l := locate_eq_ok_iff.mpr h
  rw [replace, hlocate]
  rfl

/-- **A replacement in place** leaves what `Packetry.Document.replace` gives, or the document as it
was if that is a fault. -/
theorem replaceInPlace_run (d : Document) (r : Region) (text : List Char) :
    (replaceInPlace r text).run d =
      match d.replace r text with
      | .ok d' => (.ok (), d')
      | .error fault => (.error fault, d) := by
  refine (run_lift_bind (d.replace r text) (fun d' => set d') d).trans ?_
  cases d.replace r text with
  | ok d' => rfl
  | error fault => rfl

/-- **A merge in place** leaves what `Packetry.Document.merge` gives, or the document as it was if
that is a fault. -/
theorem mergeInPlace_run (d : Document) (r : Region) (entries : List Entry) (form : HandlerForm) :
    (mergeInPlace r entries form).run d =
      match d.merge r entries form with
      | .ok (d', added) => (.ok added.length, d')
      | .error fault => (.error fault, d) := by
  refine (run_lift_bind (d.merge r entries form)
    (fun answer => do set answer.1; return answer.2.length) d).trans ?_
  cases d.merge r entries form with
  | ok answer => rfl
  | error fault => rfl

/-- An edit that does not find its region changes nothing. -/
theorem edit_of_error {e : Edit} {fault : Fault} (h : d.locate e.region = .error fault) :
    d.edit e = d := by
  cases e with
  | replace r text =>
    have hreplace : d.replace r text = .error fault := by
      rw [replace, show d.locate r = .error fault from h]
      rfl
    rw [edit, replaceInPlace_run, hreplace]
  | merge r entries form =>
    have hmerge : d.merge r entries form = .error fault := by
      rw [merge, show d.locate r = .error fault from h]
      rfl
    rw [edit, mergeInPlace_run, hmerge]

/-- **An edit that finds its region** puts a new interior between the sentinels. -/
theorem edit_of_splits {e : Edit} (h : e.region.Splits d.text l) :
    d.edit e = { d with text := l.around (e.interior l.interior) } := by
  cases e with
  | replace r text =>
    have hr : r.Splits d.text l := h
    rw [edit, replaceInPlace_run, replace_eq hr, Edit.interior]
  | merge r entries form =>
    have hr : r.Splits d.text l := h
    rw [edit, mergeInPlace_run, merge_eq hr, Edit.interior]

end Answers

end Packetry.Document
