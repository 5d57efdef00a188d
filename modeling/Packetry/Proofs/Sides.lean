import Packetry.Proofs.Walk
import Packetry.Transaction

/-!
# Copies and backups

The copy and the backup of a file are beside it: their paths differ from the path of the file
in an ending of the last name. So their places tell the file, and each other, apart.
-/

namespace Packetry

open Disk

namespace Path

theorem isProperName_append (name : String) {ending : String} (h : 2 < ending.length) :
    isProperName (name ++ ending) := by
  have hlength : 2 < (name ++ ending).length := by
    rw [String.length_append]
    omega
  have hne : ∀ short : String, short.length ≤ 2 → name ++ ending ≠ short := by
    rintro short hshort rfl
    omega
  simp only [isProperName, isVoidName, Bool.and_eq_true, Bool.not_eq_true', Bool.or_eq_false_iff,
    beq_eq_false_iff_ne, bne_iff_ne]
  exact ⟨⟨hne "" (by decide), hne "." (by decide)⟩, hne ".." (by decide)⟩

end Path

namespace Disk.Tree

variable {t : Tree} {p p' : Path} {ending : String}

theorem base_withEnding (t : Tree) (p : Path) (h : '/' ∉ ending.toList) :
    t.base (p.withEnding ending) = t.base p := by
  have hhead : ending.toList.head? ≠ some '/' := fun heq => h (List.mem_of_mem_head? heq)
  simp only [base, Path.isAbsolute_withEnding p hhead]

/-- The ending of a path is at the end of the name at its place. -/
theorem placeOf_withEnding (t : Tree) (p : Path) (h : '/' ∉ ending.toList)
    (hlength : 2 < ending.length) : t.placeOf (p.withEnding ending) =
      (p.lastName ++ ending) :: (t.base p).follow p.directoryNames := by
  obtain ⟨hlast, hdir⟩ := Path.lastName_withEnding p h
  rw [t.placeOf_eq_cons (hlast ▸ Path.isProperName_append _ hlength), hlast, hdir,
    t.base_withEnding p h]

/-- The place of a copy. -/
theorem placeOf_stagingPath (t : Tree) (p : Path) : t.placeOf (stagingPath p) =
    (p.lastName ++ ".pktgen.tmp") :: (t.base p).follow p.directoryNames :=
  t.placeOf_withEnding p (by decide) (by decide)

/-- The place of a backup. -/
theorem placeOf_backupPath (t : Tree) (p : Path) : t.placeOf (backupPath p) =
    (p.lastName ++ ".pktgen.bak") :: (t.base p).follow p.directoryNames :=
  t.placeOf_withEnding p (by decide) (by decide)

/-- A file and its copy are at different places. -/
theorem placeOf_ne_stagingPath (t : Tree) (h : Path.isProperName p.lastName) :
    t.placeOf p ≠ t.placeOf (stagingPath p) := by
  rw [t.placeOf_eq_cons h, t.placeOf_stagingPath]
  intro heq
  have hlength := congrArg String.length (List.cons.inj heq).1
  rw [String.length_append, show ".pktgen.tmp".length = 11 from rfl] at hlength
  omega

/-- No copy is a backup. -/
theorem placeOf_stagingPath_ne_backupPath (t : Tree) (p p' : Path) :
    t.placeOf (stagingPath p) ≠ t.placeOf (backupPath p') := by
  rw [placeOf_stagingPath, placeOf_backupPath]
  intro heq
  have hname := congrArg String.toList (List.cons.inj heq).1
  rw [String.toList_append, String.toList_append] at hname
  have hending := List.append_inj_right' hname (by decide)
  exact absurd hending (by decide)

/-- The copies, or the backups, of files are at one place if the files are. -/
theorem placeOf_stagingPath_eq_iff (hp : Path.isProperName p.lastName)
    (hp' : Path.isProperName p'.lastName) :
    (t.placeOf (stagingPath p) = t.placeOf (stagingPath p') ↔ t.placeOf p = t.placeOf p') ∧
      (t.placeOf (backupPath p) = t.placeOf (backupPath p') ↔ t.placeOf p = t.placeOf p') := by
  rw [placeOf_stagingPath, placeOf_stagingPath, placeOf_backupPath, placeOf_backupPath,
    t.placeOf_eq_cons hp, t.placeOf_eq_cons hp', List.cons.injEq, List.cons.injEq,
    List.cons.injEq, String.append_left_inj, String.append_left_inj]
  exact ⟨Iff.rfl, Iff.rfl⟩

/-- A backup can be reached if the copy can. -/
theorem Reaches.backup (h : t.Reaches (stagingPath p)) : t.Reaches (backupPath p) := by
  obtain ⟨d, ⟨⟨hzero, -, hlength⟩, -, hwalk, hd⟩, hs⟩ := h
  obtain ⟨hlast, hdir⟩ : (stagingPath p).lastName = p.lastName ++ ".pktgen.tmp" ∧
    (stagingPath p).directoryNames = p.directoryNames := p.lastName_withEnding (by decide)
  obtain ⟨hlast', hdir'⟩ : (backupPath p).lastName = p.lastName ++ ".pktgen.bak" ∧
    (backupPath p).directoryNames = p.directoryNames := p.lastName_withEnding (by decide)
  have hbase : t.base (backupPath p) = t.base (stagingPath p) :=
    (t.base_withEnding p (by decide)).trans (t.base_withEnding p (by decide)).symm
  have htext : (backupPath p).text = p.text ++ ".pktgen.bak" := rfl
  -- The endings of the copy and of the backup are equally long, so that no limit tells them apart.
  refine ⟨d, ⟨⟨?_, ?_, ?_⟩, ?_, ?_, hd⟩, ?_⟩
  · rw [htext, String.toList_append, List.mem_append, not_or]
    refine ⟨fun hmem => hzero ?_, by decide⟩
    rw [stagingPath, Path.withEnding, String.toList_append]
    exact List.mem_append_left _ hmem
  · rw [htext]
    intro hempty
    have hlength := congrArg String.length hempty
    rw [String.length_append, show ".pktgen.bak".length = 11 from rfl] at hlength
    simp at hlength
  · rw [htext, String.utf8ByteSize_append]
    rw [stagingPath, Path.withEnding, String.utf8ByteSize_append] at hlength
    exact hlength
  · rw [hlast']
    exact Path.isProperName_append _ (by decide)
  · rw [hbase, hdir', ← hdir]
    exact hwalk
  · rw [hlast', String.utf8ByteSize_append]
    rw [hlast, String.utf8ByteSize_append] at hs
    exact hs

end Disk.Tree

end Packetry
