import Packetry.Disk.Tree
import Mathlib.Logic.Function.Basic

/-!
# Trees seen through their places

A tree is a list of entries, but nobody looks at the list: what can be seen of a tree is what
is at each place, `Packetry.Disk.Tree.lookup`, and the working directory. This file says what
each primitive change of the list does to that view. Putting and erasing an entry change one
place; moving an entry that has nothing below it changes two.

A tree is *well formed* if every entry lies in a directory. All that is above an entry then
is a directory (`Packetry.Disk.Tree.WellFormed.directory_of_suffix`), so that nothing lies
below a file, and a file can be moved without anything else coming along.
-/

namespace Packetry.Disk

/-- A library may bring another instance for the same type. -/
local instance decidableEqBytes : DecidableEq ByteArray := ByteArray.instDecidableEq

deriving instance DecidableEq for Entry

deriving instance DecidableEq for Tree

namespace Tree

variable {t t' : Tree} {p q : Place} {e : Entry}

/-! ### Association lists -/

section Association

variable {κ β : Type} [BEq κ] [LawfulBEq κ]

/-- Every key of the list has a value. -/
theorem lookup_ne_none {l : List (κ × β)} {x : κ × β} (h : x ∈ l) :
    l.lookup x.1 ≠ none := by
  intro hnone
  simpa using List.lookup_eq_none_iff.mp hnone x h

/-- A value of a key is in the list. -/
theorem mem_of_lookup {l : List (κ × β)} {k : κ} {v : β} (h : l.lookup k = some v) :
    (k, v) ∈ l := by
  obtain ⟨before, after, rfl, -⟩ := List.lookup_eq_some_iff.mp h
  exact List.mem_append_right _ List.mem_cons_self

variable [DecidableEq κ]

/-- The value of a key, entry by entry. -/
theorem lookup_cons_eq (k : κ) (v : β) (l : List (κ × β)) (r : κ) :
    ((k, v) :: l).lookup r = if r = k then some v else l.lookup r := by
  rw [List.lookup_cons]
  by_cases hr : r = k
  · simp [hr]
  · have hb : (r == k) = false := beq_eq_false_iff_ne.mpr hr
    simp [hb, hr]

/-- Erasing one key from an association list leaves the values of the others. -/
theorem lookup_filter_ne (l : List (κ × β)) (k r : κ) :
    (l.filter (·.1 ≠ k)).lookup r = if r = k then none else l.lookup r := by
  induction l with
  | nil => simp
  | cons x l ih =>
    obtain ⟨k', v⟩ := x
    rw [lookup_cons_eq]
    by_cases hk : k' = k
    · subst hk
      rw [List.filter_cons_of_neg (by simp), ih]
      by_cases hr : r = k' <;> simp [hr]
    · rw [List.filter_cons_of_pos (by simpa using hk), lookup_cons_eq, ih]
      by_cases hr : r = k'
      · simp [hr, hk]
      · simp [hr]

/-- Renaming one key of a list to another that no entry has. -/
theorem lookup_map_key {l : List (κ × β)} {f : κ × β → κ × β} {s d : κ}
    (hs : ∀ x ∈ l, x.1 = s → f x = (d, x.2)) (ho : ∀ x ∈ l, x.1 ≠ s → f x = x)
    (hd : ∀ x ∈ l, x.1 ≠ d) (hsd : s ≠ d) (r : κ) :
    (l.map f).lookup r = if r = d then l.lookup s else if r = s then none else l.lookup r := by
  induction l with
  | nil => simp
  | cons x l ih =>
    have ih := ih (fun y hy => hs y (by simp [hy])) (fun y hy => ho y (by simp [hy]))
      (fun y hy => hd y (by simp [hy]))
    obtain ⟨k, v⟩ := x
    rw [List.map_cons, lookup_cons_eq k v l s, lookup_cons_eq k v l r]
    by_cases hk : k = s
    · subst hk
      rw [hs _ (by simp) rfl, lookup_cons_eq, ih]
      by_cases hr : r = d
      · simp [hr]
      · by_cases hrk : r = k <;> simp [hr, hrk, hsd]
    · have hkd : k ≠ d := hd (k, v) (by simp)
      rw [ho _ (by simp) hk, lookup_cons_eq, ih]
      by_cases hrk : r = k
      · simp [hrk, hkd, hk]
      · simp [hrk, Ne.symm hk]

end Association

/-! ### The primitive changes -/

/-- The root is a directory. -/
@[simp] theorem lookup_nil : t.lookup [] = some .directory := rfl

/-- Below the root, what is at a place is what the list says. -/
theorem lookup_eq (hp : p ≠ []) : t.lookup p = t.entries.lookup p := by
  cases p with
  | nil => exact absurd rfl hp
  | cons _ _ => rfl

/-- Erasing changes one place. -/
theorem lookup_erase (hp : p ≠ []) : (t.erase p).lookup = Function.update t.lookup p none := by
  funext r
  by_cases hr : r = []
  · subst hr
    rw [Function.update_of_ne (Ne.symm hp), lookup_nil, lookup_nil]
  · rw [lookup_eq hr, Function.update_apply, lookup_eq hr]
    exact lookup_filter_ne t.entries p r

/-- Putting an entry changes one place. -/
theorem lookup_insert (hp : p ≠ []) :
    (t.insert p e).lookup = Function.update t.lookup p (some e) := by
  funext r
  by_cases hr : r = []
  · subst hr
    rw [Function.update_of_ne (Ne.symm hp), lookup_nil, lookup_nil]
  · have h : (t.insert p e).entries.lookup r =
        ((t.entries.filter (·.1 ≠ p)).lookup r).or ([(p, e)].lookup r) :=
      List.lookup_append
    rw [lookup_eq hr, Function.update_apply, lookup_eq hr, h, lookup_filter_ne]
    by_cases hrp : r = p
    · simp [hrp]
    · have hb : (r == p) = false := beq_eq_false_iff_ne.mpr hrp
      simp [hrp, hb, List.lookup_cons]

/-- Nothing strictly below the place. -/
def Childless (t : Tree) (place : Place) : Prop :=
  ∀ r, place <:+ r → t.lookup r ≠ none → r = place

/-- Moving an entry that has nothing below it changes two places. -/
theorem lookup_move {s d : Place} (hs : s ≠ []) (hd : d ≠ []) (hsd : s ≠ d)
    (hc : t.Childless s) :
    (t.move s d).lookup =
      Function.update (Function.update t.lookup s none) d (t.lookup s) := by
  funext r
  by_cases hr : r = []
  · subst hr
    rw [Function.update_of_ne (Ne.symm hd), Function.update_of_ne (Ne.symm hs), lookup_nil,
      lookup_nil]
  · -- Nothing is below the entry, so that its own key is the only one that is changed.
    have hkey : ∀ x ∈ (t.erase d).entries, s <:+ x.1 → x.1 = s := by
      intro x hx hsx
      refine hc x.1 hsx ?_
      have hx' : x ∈ t.entries := (List.mem_filter.mp hx).1
      rw [lookup_eq (fun h => hs (List.suffix_nil.mp (h ▸ hsx)))]
      exact lookup_ne_none hx'
    have hmove : (t.move s d).entries.lookup r =
        if r = d then (t.erase d).entries.lookup s
        else if r = s then none else (t.erase d).entries.lookup r := by
      refine lookup_map_key ?_ ?_ ?_ hsd r
      · intro x _ hxs
        simp [hxs]
      · intro x hx hxs
        rw [if_neg fun h => hxs (hkey x hx h)]
      · intro x hx
        simpa using (List.mem_filter.mp hx).2
    rw [lookup_eq hr, hmove, ← lookup_eq hr, ← lookup_eq hs, lookup_erase hd]
    by_cases hrd : r = d
    · subst hrd
      rw [if_pos rfl, Function.update_self, Function.update_of_ne hsd]
    · rw [if_neg hrd, Function.update_of_ne hrd, Function.update_of_ne hrd,
        Function.update_apply]

/-! ### Well-formed trees -/

/-- Every entry lies in a directory. -/
def WellFormed (t : Tree) : Prop :=
  ∀ name place, t.lookup (name :: place) ≠ none → t.lookup place = some .directory

/-- Whether a place is a directory, by what is there. -/
theorem isDirectoryAt_iff : t.isDirectoryAt p = true ↔ t.lookup p = some .directory := by
  unfold isDirectoryAt
  rcases t.lookup p with _ | (_ | _ | _) <;> simp [Entry.isDirectory]

/-- It can be read off the list whether a tree is well formed. -/
theorem wellFormed_iff :
    t.WellFormed ↔ t.entries.all (fun entry => t.isDirectoryAt entry.1.tail) = true := by
  rw [List.all_eq_true]
  constructor
  · rintro hw ⟨place, e⟩ hmem
    rw [isDirectoryAt_iff]
    cases place with
    | nil => rfl
    | cons name place =>
      refine hw name place ?_
      rw [lookup_eq (by simp)]
      exact lookup_ne_none hmem
  · intro h name place hne
    rw [lookup_eq (by simp)] at hne
    obtain ⟨e, he⟩ := Option.ne_none_iff_exists'.mp hne
    have hmem : (name :: place, e) ∈ t.entries := mem_of_lookup he
    exact isDirectoryAt_iff.mp (h _ hmem)

instance : Decidable t.WellFormed := decidable_of_iff _ wellFormed_iff.symm


/-- All that is above an entry is a directory. -/
theorem WellFormed.directory_of_suffix (hw : t.WellFormed) (hp : t.lookup p ≠ none)
    (hq : q <:+ p) (hne : q ≠ p) : t.lookup q = some .directory := by
  induction p with
  | nil => exact absurd (List.suffix_nil.mp hq) hne
  | cons name p ih =>
    have hdir := hw name p hp
    rcases List.suffix_cons_iff.mp hq with rfl | hq
    · exact absurd rfl hne
    · by_cases hqp : q = p
      · rw [hqp, hdir]
      · exact ih (by simp [hdir]) hq hqp

/-- Nothing lies below what is not a directory. -/
theorem WellFormed.childless (hw : t.WellFormed) (hp : t.lookup p ≠ some .directory) :
    t.Childless p := by
  intro r hr hne
  by_contra hrp
  exact hp (hw.directory_of_suffix hne hr fun h => hrp h.symm)

/-- The directory of a directory is a directory. -/
theorem WellFormed.tail (hw : t.WellFormed) (hp : t.lookup p ≠ none) :
    t.lookup p.tail = some .directory := by
  cases p with
  | nil => rfl
  | cons name p => exact hw name p hp

/-- A change that keeps the directories, and puts nothing but into directories, keeps the tree
well formed. -/
theorem WellFormed.of_directories (hw : t.WellFormed)
    (hdir : ∀ r, t.lookup r = some .directory → t'.lookup r = some .directory)
    (hnew : ∀ name place, t'.lookup (name :: place) ≠ none →
      t.lookup (name :: place) ≠ none ∨ t.lookup place = some .directory) : t'.WellFormed := by
  intro name place hne
  rcases hnew name place hne with h | h
  · exact hdir place (hw name place h)
  · exact hdir place h

end Tree

end Packetry.Disk
