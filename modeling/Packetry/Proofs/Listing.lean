import Packetry.Proofs.Reading
import Mathlib.Data.List.Nodup
import Mathlib.Data.List.Perm.Basic

/-!
# The order of a directory

A directory is listed in some order, and two disks that hold the same files may list them in
different orders (`Packetry.Disk.Tree.Relisted`). Nothing but a listing tells such disks apart
(`Packetry.Disk.Tree.Relisted.find_eq` and what follows from it).

The templates of the user are the one thing that is read off a listing. They are registered under
their names in lower case, so that two files may have one name, and then the one that is listed last
counts (`Packetry.lookup_registered`). Hence what is registered is the same for every order exactly
if files of one name have the same text (`Packetry.registered_unordered_iff`): any file can be the
one that is listed last.
-/

namespace Packetry

open Disk Program

namespace Disk.Tree

variable {t t' : Tree}

/-! ### Entries in another order -/

/-- Every place is that of one entry only. -/
def IsMap (t : Tree) : Prop :=
  (t.entries.map (·.1)).Nodup

/-- The same entries, in an order that may be another one. -/
structure Relisted (t t' : Tree) : Prop where
  /-- The entries are the same. -/
  entries : t.entries.Perm t'.entries
  /-- So is the working directory. -/
  workingDirectory : t'.workingDirectory = t.workingDirectory

section Association

variable {κ β : Type} [BEq κ] [LawfulBEq κ] {l l' : List (κ × β)}

/-- Where every key has one entry, its value is that of the entry. -/
theorem lookup_eq_some_iff_of_nodup (h : (l.map (·.1)).Nodup) {k : κ} {v : β} :
    l.lookup k = some v ↔ (k, v) ∈ l := by
  refine ⟨mem_of_lookup, fun hmem => ?_⟩
  obtain ⟨w, hw⟩ := Option.ne_none_iff_exists'.mp (lookup_ne_none hmem)
  have hsame := List.inj_on_of_nodup_map h (mem_of_lookup hw) hmem rfl
  rw [hw, (Prod.mk.inj hsame).2]

theorem lookup_perm (h : (l.map (·.1)).Nodup) (hperm : l.Perm l') (k : κ) :
    l'.lookup k = l.lookup k := by
  refine Option.ext fun v => ?_
  rw [lookup_eq_some_iff_of_nodup h,
    lookup_eq_some_iff_of_nodup ((hperm.map (·.1)).nodup_iff.mp h), hperm.mem_iff]

end Association

namespace Relisted

/-- The same is at every place. -/
theorem lookup_eq (h : t.Relisted t') (hmap : t.IsMap) : t'.lookup = t.lookup := by
  funext place
  cases place with
  | nil => rfl
  | cons name place => exact lookup_perm hmap h.entries _

theorem walk_eq (h : t.Relisted t') (hmap : t.IsMap) (place : Place) (segments : List String) :
    t'.walk place segments = t.walk place segments := by
  induction segments generalizing place with
  | nil => rfl
  | cons segment rest ih =>
    have hstep : t'.step place segment = t.step place segment := by
      unfold step isDirectoryAt
      rw [h.lookup_eq hmap]
    simp only [walk, hstep, ih]

/-- Paths lead to the same places. -/
theorem find_eq (h : t.Relisted t') (hmap : t.IsMap) : t'.find = t.find := by
  funext p
  have hstart : t'.start p = t.start p := by
    simp only [start, h.workingDirectory]
  simp only [find, hstart, h.walk_eq hmap]

theorem isFile_eq (h : t.Relisted t') (hmap : t.IsMap) (p : Path) : t'.isFile p = t.isFile p := by
  rw [isFile, isFile, h.find_eq hmap, h.lookup_eq hmap]

theorem read_eq (h : t.Relisted t') (hmap : t.IsMap) (p : Path) : t'.read p = t.read p := by
  rw [read, read, h.find_eq hmap, h.lookup_eq hmap]

end Relisted

/-- What is listed are the names in the directory that a path leads to. -/
theorem list_of_find {p : Path} {place : Place} (hfind : t.find p = .ok place)
    (hplace : t.isDirectoryAt place = true) : t.list p = .ok (t.namesIn place) := by
  unfold list
  rw [hfind]
  exact if_pos hplace

theorem find_of_list {p : Path} {names : List String} (h : t.list p = .ok names) :
    ∃ place, t.find p = .ok place ∧ t.isDirectoryAt place = true ∧ t.namesIn place = names := by
  obtain ⟨place, hfind, hnames⟩ := bind_ok h
  split at hnames
  · rename_i hplace
    exact ⟨place, hfind, hplace, Except.ok.inj hnames⟩
  · cases hnames

/-- A directory has the same names. -/
theorem Relisted.list_perm (h : t.Relisted t') (hmap : t.IsMap) {p : Path} {names : List String}
    (hlist : t.list p = .ok names) : ∃ names', t'.list p = .ok names' ∧ names.Perm names' := by
  obtain ⟨place, hfind, hplace, rfl⟩ := find_of_list hlist
  refine ⟨_, list_of_find ?_ ?_, h.entries.filterMap _⟩
  · rw [h.find_eq hmap, hfind]
  · rw [isDirectoryAt, h.lookup_eq hmap]
    exact hplace

/-- Any entry can be the last one. -/
theorem relisted_insert (hmap : t.IsMap) {place : Place} {e : Entry} (h : (place, e) ∈ t.entries) :
    t.Relisted (t.insert place e) := by
  refine ⟨?_, rfl⟩
  obtain ⟨s₁, s₂, hs⟩ := List.append_of_mem h
  unfold IsMap at hmap
  rw [hs, List.map_append, List.map_cons, List.nodup_middle, ← List.map_append] at hmap
  have hothers : ∀ entry ∈ s₁ ++ s₂, decide (entry.1 ≠ place) = true := by
    intro entry hentry
    rw [decide_eq_true_eq]
    rintro rfl
    exact (List.nodup_cons.mp hmap).1 (List.mem_map.mpr ⟨entry, hentry, rfl⟩)
  have hfilter : t.entries.filter (·.1 ≠ place) = s₁ ++ s₂ := by
    rw [← List.filter_eq_self.mpr hothers, hs, List.filter_append, List.filter_cons,
      if_neg (by simp), List.filter_append]
  have hinsert : (t.insert place e).entries = s₁ ++ s₂ ++ [(place, e)] := by
    rw [← hfilter]
    rfl
  rw [hinsert, hs]
  exact List.perm_middle.trans (List.perm_append_singleton _ _).symm

/-- Any name in a directory can be listed last. -/
theorem exists_relisted_last (hmap : t.IsMap) {p : Path} {names : List String}
    (hlist : t.list p = .ok names) {name : String} (hname : name ∈ names) :
    ∃ t' front, t.Relisted t' ∧ t'.list p = .ok (front ++ [name]) := by
  obtain ⟨place, hfind, hplace, rfl⟩ := find_of_list hlist
  obtain ⟨⟨place', e⟩, hentry, hmatch⟩ := List.mem_filterMap.mp hname
  obtain rfl : place' = name :: place := by
    cases place' with
    | nil => cases hmatch
    | cons name' place' =>
      obtain ⟨rfl, heq⟩ := Option.ite_none_right_eq_some.mp hmatch
      rw [Option.some.inj heq]
  have hrelisted := relisted_insert hmap hentry
  have hlast : (t.insert (name :: place) e).namesIn place =
      (t.erase (name :: place)).namesIn place ++ [name] := by
    rw [namesIn, insert, List.filterMap_append, List.filterMap_cons, hmatch]
    rfl
  refine ⟨_, _, hrelisted, hlast ▸ list_of_find ?_ ?_⟩
  · rw [hrelisted.find_eq hmap, hfind]
  · rw [isDirectoryAt, hrelisted.lookup_eq hmap]
    exact hplace

end Disk.Tree

/-! ### What is registered -/

section Registered

variable {α : Type} {xs : List (String × α)} {name : String} {x : α}

/-- **The last pair of a name** is registered. -/
theorem lookup_registered (xs : List (String × α)) (name : String) :
    (registered xs).lookup name = xs.reverse.lookup name := by
  fun_induction registered xs with
  | case1 => rfl
  | case2 name' x rest hmem ih =>
    obtain ⟨pair, hpair, rfl⟩ := List.mem_map.mp hmem
    have hsome := Tree.lookup_ne_none (List.mem_reverse.mpr hpair)
    obtain ⟨y, hy⟩ := Option.ne_none_iff_exists'.mp hsome
    rw [ih, List.reverse_cons, List.lookup_append, Tree.lookup_cons_eq]
    by_cases hname : name = pair.1
    · rw [hname, hy, Option.some_or]
    · rw [if_neg hname, List.lookup_nil, Option.or_none]
  | case3 name' x rest hmem ih =>
    rw [Tree.lookup_cons_eq, ih, List.reverse_cons, List.lookup_append, Tree.lookup_cons_eq]
    by_cases hname : name = name'
    · have hnone : rest.reverse.lookup name = none := by
        refine Option.eq_none_iff_forall_ne_some.mpr fun y hy => hmem ?_
        rw [← hname]
        exact List.mem_map.mpr ⟨_, List.mem_reverse.mp (Tree.mem_of_lookup hy), rfl⟩
      rw [if_pos hname, if_pos hname, hnone, Option.none_or]
    · rw [if_neg hname, if_neg hname, List.lookup_nil, Option.or_none]

theorem registered_sublist (xs : List (String × α)) : (registered xs).Sublist xs := by
  fun_induction registered xs with
  | case1 => exact List.Sublist.slnil
  | case2 name' x rest hmem ih => exact ih.cons _
  | case3 name' x rest hmem ih => exact ih.cons_cons _

/-- Every name is registered once. -/
theorem nodup_registered (xs : List (String × α)) : ((registered xs).map (·.1)).Nodup := by
  fun_induction registered xs with
  | case1 => exact List.nodup_nil
  | case2 name' x rest hmem ih => exact ih
  | case3 name' x rest hmem ih =>
    exact List.nodup_cons.mpr ⟨fun h => hmem (((registered_sublist rest).map _).subset h), ih⟩

theorem mem_of_lookup_registered (h : (registered xs).lookup name = some x) : (name, x) ∈ xs :=
  (registered_sublist xs).subset (Tree.mem_of_lookup h)

/-- If pairs of one name are the same, then it does not matter which is the last. -/
theorem lookup_registered_eq_some_iff (h : ∀ y ∈ xs, ∀ z ∈ xs, y.1 = z.1 → y.2 = z.2) :
    (registered xs).lookup name = some x ↔ (name, x) ∈ xs := by
  refine ⟨mem_of_lookup_registered, fun hx => ?_⟩
  have hsome : (registered xs).lookup name ≠ none := by
    rw [lookup_registered]
    exact Tree.lookup_ne_none (List.mem_reverse.mpr hx)
  obtain ⟨y, hy⟩ := Option.ne_none_iff_exists'.mp hsome
  rw [hy]
  exact congrArg some (h _ (mem_of_lookup_registered hy) _ hx rfl)

end Registered

/-! ### Scaffolds from what is registered -/

section Values

variable {α β : Type} {f : α → Option β} {xs : List (String × α)}

/-- A pair without a value spoils the whole list. -/
theorem mapM_values_of_none {x : String × α} (hx : x ∈ xs) (hnone : f x.2 = none) :
    (xs.mapM fun x => (f x.2).map (x.1, ·)) = none := by
  induction xs with
  | nil => cases hx
  | cons y xs ih =>
    rw [List.mapM_cons]
    rcases List.mem_cons.mp hx with rfl | hx
    · rw [hnone]
      rfl
    · rw [ih hx]
      cases f y.2 with
      | none => rfl
      | some v => rfl

/-- Otherwise every name has the value of what it had before. -/
theorem mapM_values_of_some (h : ∀ x ∈ xs, (f x.2).isSome = true) :
    ∃ ys, (xs.mapM fun x => (f x.2).map (x.1, ·)) = some ys ∧
      ∀ name, ys.lookup name = (xs.lookup name).bind f := by
  induction xs with
  | nil => exact ⟨[], rfl, fun name => rfl⟩
  | cons y xs ih =>
    obtain ⟨ys, hys, hlookup⟩ := ih fun x hx => h x (List.mem_cons_of_mem _ hx)
    obtain ⟨v, hv⟩ := Option.isSome_iff_exists.mp (h y List.mem_cons_self)
    refine ⟨(y.1, v) :: ys, ?_, fun name => ?_⟩
    · rw [List.mapM_cons, hv, hys]
      rfl
    · rw [Tree.lookup_cons_eq, Tree.lookup_cons_eq, hlookup]
      split
      · exact hv.symm
      · rfl

end Values

/-- Scaffolds depend on what is registered only. -/
theorem fill_ofTexts_congr {config : Config} {xs ys : List (String × String)}
    (h : ∀ name, (registered xs).lookup name = (registered ys).lookup name) (name : String)
    (standard : Template) (region : Config → Template.Value) :
    ((Scaffolds.ofTexts config xs).bind fun s =>
        s.fill (s.template name standard) (region s.config)) =
      (Scaffolds.ofTexts config ys).bind fun s =>
        s.fill (s.template name standard) (region s.config) := by
  have hmem : ∀ x, x ∈ registered xs ↔ x ∈ registered ys := by
    intro x
    rw [← Tree.lookup_eq_some_iff_of_nodup (nodup_registered xs), h,
      Tree.lookup_eq_some_iff_of_nodup (nodup_registered ys)]
  unfold Scaffolds.ofTexts
  dsimp only
  by_cases hread : ∀ x ∈ registered xs, (Template.ofText? x.2).isSome = true
  · obtain ⟨ts, hts, hlookup⟩ := mapM_values_of_some hread
    obtain ⟨us, hus, hlookup'⟩ :=
      mapM_values_of_some fun x hx => hread x ((hmem x).mpr hx)
    have htemplate : (⟨config, ts⟩ : Scaffolds).template name standard =
        (⟨config, us⟩ : Scaffolds).template name standard := by
      rw [Scaffolds.template, Scaffolds.template, hlookup, hlookup', h]
    rw [hts, hus]
    exact congrArg (fun t => (⟨config, ts⟩ : Scaffolds).fill t (region config)) htemplate
  · obtain ⟨x, hx, hnone⟩ : ∃ x ∈ registered xs, Template.ofText? x.2 = none := by
      simpa using hread
    rw [mapM_values_of_none hx hnone, mapM_values_of_none ((hmem x).mp hx) hnone]

/-! ### The templates of a directory -/

namespace Disk.Tree

/-- A file of a directory that holds a template. -/
def IsTemplateIn (t : Tree) (directory : Path) (fileName : String) : Prop :=
  (directory.join ⟨fileName⟩).extension? = some templateEnding ∧
    t.isFile (directory.join ⟨fileName⟩) = true

instance (t : Tree) (directory : Path) (fileName : String) :
    Decidable (t.IsTemplateIn directory fileName) :=
  inferInstanceAs (Decidable (_ ∧ _))

/-- The text of a file in a directory, if it can be read and is text. -/
def textIn? (t : Tree) (directory : Path) (fileName : String) : Option String :=
  (t.read (directory.join ⟨fileName⟩)).toOption.bind String.fromUTF8?

/-- The templates among the files of a directory, each with its name and in the order of the
files. -/
def templatesIn (t : Tree) (directory : Path) (fileNames : List String) :
    List (String × String) :=
  fileNames.filterMap fun fileName =>
    if t.IsTemplateIn directory fileName then
      (t.textIn? directory fileName).map (templateName fileName, ·)
    else none

/-- All templates can be read. -/
def CanRead (t : Tree) (directory : Path) (fileNames : List String) : Prop :=
  ∀ fileName ∈ fileNames, t.IsTemplateIn directory fileName →
    (t.textIn? directory fileName).isSome = true

/-- Templates of one name have the same text. -/
def TemplatesAgree (t : Tree) (directory : Path) (fileNames : List String) : Prop :=
  ∀ first ∈ fileNames, ∀ second ∈ fileNames, t.IsTemplateIn directory first →
    t.IsTemplateIn directory second → templateName first = templateName second →
      t.textIn? directory first = t.textIn? directory second

variable {t t' : Tree} {directory : Path} {fileNames fileNames' : List String}

theorem readText_run {fileName text : String} (h : t.textIn? directory fileName = some text) :
    (readText (directory.join ⟨fileName⟩)).run t = (.ok text, t) := by
  obtain ⟨bytes, hbytes, htext⟩ := Option.bind_eq_some_iff.mp h
  have hread : t.read (directory.join ⟨fileName⟩) = .ok bytes := by
    cases hread : t.read (directory.join ⟨fileName⟩) with
    | error e =>
      rw [hread] at hbytes
      cases hbytes
    | ok bytes' =>
      rw [hread] at hbytes
      exact congrArg Except.ok (Option.some.inj hbytes)
  have hrun : (Program.read (directory.join ⟨fileName⟩)).run t = (.ok bytes, t) := by
    rw [← hread]
    rfl
  unfold readText
  rw [run_bind, hrun]
  dsimp only
  rw [htext]
  rfl

/-- The templates are read off in the order of the listing. -/
theorem templateTexts_run (h : t.CanRead directory fileNames) :
    (templateTexts directory fileNames).run t = (.ok (t.templatesIn directory fileNames), t) := by
  induction fileNames with
  | nil => rfl
  | cons fileName rest ih =>
    have hrest := ih fun name hname => h name (List.mem_cons_of_mem _ hname)
    have hfile : ∀ p, (Program.isFile p).run t = (t.isFile p, t) := fun p => rfl
    unfold templateTexts
    rw [run_bind, hfile]
    by_cases htemplate : t.IsTemplateIn directory fileName
    · obtain ⟨text, htext⟩ := Option.isSome_iff_exists.mp (h fileName List.mem_cons_self htemplate)
      have hpairs : t.templatesIn directory (fileName :: rest) =
          (templateName fileName, text) :: t.templatesIn directory rest := by
        rw [templatesIn, List.filterMap_cons, if_pos htemplate, htext]
        rfl
      rw [hpairs, if_pos (by simpa [IsTemplateIn] using htemplate), run_bind, readText_run htext]
      dsimp only
      rw [run_bind, hrest]
      rfl
    · have hpairs : t.templatesIn directory (fileName :: rest) = t.templatesIn directory rest := by
        rw [templatesIn, List.filterMap_cons, if_neg htemplate]
        rfl
      rw [hpairs, if_neg (by simpa [IsTemplateIn] using htemplate)]
      exact hrest

theorem mem_templatesIn_iff {name text : String} :
    (name, text) ∈ t.templatesIn directory fileNames ↔
      ∃ fileName ∈ fileNames, t.IsTemplateIn directory fileName ∧ templateName fileName = name ∧
        t.textIn? directory fileName = some text := by
  rw [templatesIn, List.mem_filterMap]
  refine exists_congr fun fileName => and_congr_right fun _ => ?_
  rw [Option.ite_none_right_eq_some, Option.map_eq_some_iff]
  refine and_congr_right fun _ => ?_
  constructor
  · rintro ⟨text', htext, heq⟩
    obtain ⟨rfl, rfl⟩ := Prod.mk.inj heq
    exact ⟨rfl, htext⟩
  · rintro ⟨rfl, htext⟩
    exact ⟨text, htext, rfl⟩

/-- If templates of one name have the same text, then so have pairs of one name. -/
theorem TemplatesAgree.templatesIn (h : t.TemplatesAgree directory fileNames) :
    ∀ y ∈ t.templatesIn directory fileNames, ∀ z ∈ t.templatesIn directory fileNames,
      y.1 = z.1 → y.2 = z.2 := by
  rintro ⟨name, text⟩ hy ⟨name', text'⟩ hz hname
  obtain ⟨first, hfirst, htemplate, hname₁, htext⟩ := mem_templatesIn_iff.mp hy
  obtain ⟨second, hsecond, htemplate', hname₂, htext'⟩ := mem_templatesIn_iff.mp hz
  have hsame := h first hfirst second hsecond htemplate htemplate'
    (hname₁.trans (hname.trans hname₂.symm))
  rw [htext, htext'] at hsame
  exact Option.some.inj hsame

/-- What is read off a listing depends on the listing only. -/
theorem Relisted.templatesIn_eq (h : t.Relisted t') (hmap : t.IsMap) (fileNames : List String) :
    t'.templatesIn directory fileNames = t.templatesIn directory fileNames := by
  refine List.filterMap_congr fun fileName _ => if_congr ?_ ?_ rfl
  · rw [IsTemplateIn, IsTemplateIn, h.isFile_eq hmap]
  · rw [textIn?, textIn?, h.read_eq hmap]

theorem Relisted.canRead (h : t.Relisted t') (hmap : t.IsMap)
    (hread : t.CanRead directory fileNames) (hperm : fileNames.Perm fileNames') :
    t'.CanRead directory fileNames' := by
  intro fileName hfileName htemplate
  rw [IsTemplateIn, h.isFile_eq hmap] at htemplate
  rw [textIn?, h.read_eq hmap]
  exact hread fileName (hperm.mem_iff.mpr hfileName) htemplate

end Disk.Tree

/-! ### Templates in another order -/

namespace Config

/-- The text that is registered under a name when the templates of a user are read. -/
def registeredText? (config : Config) (t : Tree) (name : String) : Option String :=
  match ((userTemplateTexts config).run t).1 with
  | .ok texts => (registered texts).lookup name
  | .error _ => none

/-- What an artifact starts from, if it is missing. -/
def scaffoldOf (config : Config) (t : Tree) (a : Artifact) : Except ScaffoldFault String :=
  ((Scaffolds.load config).run t).1.bind (·.ofArtifact a)

/-- What the schema starts from, if it is missing. -/
def schemaScaffold (config : Config) (t : Tree) : Except ScaffoldFault String :=
  ((Scaffolds.load config).run t).1.bind (·.ofSchema)

end Config

section Unordered

variable {config : Config} {t t' : Tree} {directory : Path} {fileNames : List String}

theorem userTemplateTexts_run (hdirectory : config.templateDirectory? = some directory)
    (hlist : t.list directory = .ok fileNames) (hread : t.CanRead directory fileNames) :
    (userTemplateTexts config).run t = (.ok (t.templatesIn directory fileNames), t) := by
  obtain ⟨place, hfind, -, -⟩ := Tree.find_of_list hlist
  have hexists : (Program.exists? directory).run t = (true, t) := by
    have hthere : t.exists? directory = true := by
      rw [Tree.exists?, hfind]
      rfl
    rw [← hthere]
    rfl
  have hnames : (Program.list directory).run t = (.ok fileNames, t) := by
    rw [← hlist]
    rfl
  unfold userTemplateTexts
  rw [hdirectory]
  dsimp only
  rw [run_bind, hexists, if_pos rfl, run_bind, hnames]
  exact Tree.templateTexts_run hread

theorem registeredText?_eq (hdirectory : config.templateDirectory? = some directory)
    (hlist : t.list directory = .ok fileNames) (hread : t.CanRead directory fileNames)
    (name : String) : config.registeredText? t name =
      (registered (t.templatesIn directory fileNames)).lookup name := by
  rw [Config.registeredText?, userTemplateTexts_run hdirectory hlist hread]

theorem load_run (hdirectory : config.templateDirectory? = some directory)
    (hlist : t.list directory = .ok fileNames) (hread : t.CanRead directory fileNames) :
    ((Scaffolds.load config).run t).1 =
      Scaffolds.ofTexts config (t.templatesIn directory fileNames) := by
  unfold Scaffolds.load
  rw [run_bind, userTemplateTexts_run hdirectory hlist hread]
  rfl

/-- What is read from the disk, if its directories are listed in another order. -/
theorem exists_listing (h : t.Relisted t') (hmap : t.IsMap)
    (hlist : t.list directory = .ok fileNames) (hread : t.CanRead directory fileNames) :
    ∃ fileNames', t'.list directory = .ok fileNames' ∧ t'.CanRead directory fileNames' ∧
      (t.templatesIn directory fileNames).Perm (t'.templatesIn directory fileNames') := by
  obtain ⟨fileNames', hlist', hperm⟩ := h.list_perm hmap hlist
  refine ⟨fileNames', hlist', h.canRead hmap hread hperm, ?_⟩
  rw [h.templatesIn_eq hmap]
  exact hperm.filterMap _

/-- If templates of one name have the same text, then another order registers the same. -/
theorem lookup_registered_perm {xs ys : List (String × String)}
    (hagree : ∀ y ∈ xs, ∀ z ∈ xs, y.1 = z.1 → y.2 = z.2) (hperm : xs.Perm ys) (name : String) :
    (registered ys).lookup name = (registered xs).lookup name := by
  refine Option.ext fun text => ?_
  rw [lookup_registered_eq_some_iff hagree, lookup_registered_eq_some_iff, hperm.mem_iff]
  intro y hy z hz
  exact hagree y (hperm.mem_iff.mpr hy) z (hperm.mem_iff.mpr hz)

/-- The template that is listed last is registered. -/
theorem lookup_registered_last {front : List String} {fileName text : String}
    (htemplate : t.IsTemplateIn directory fileName)
    (htext : t.textIn? directory fileName = some text) :
    (registered (t.templatesIn directory (front ++ [fileName]))).lookup (templateName fileName) =
      some text := by
  have hlast : t.templatesIn directory (front ++ [fileName]) =
      t.templatesIn directory front ++ [(templateName fileName, text)] := by
    rw [Tree.templatesIn, List.filterMap_append, List.filterMap_cons, if_pos htemplate, htext]
    rfl
  rw [lookup_registered, hlast, List.reverse_append, List.reverse_singleton, List.singleton_append,
    Tree.lookup_cons_eq, if_pos rfl]

/-- The templates of a user, when directories may be listed in any order. -/
structure Unordered (config : Config) (t : Tree) (directory : Path) (fileNames : List String) :
    Prop where
  /-- They are registered whatever the order is. -/
  reads : ∀ t', t.Relisted t' → ∃ texts, (userTemplateTexts config).run t' = (.ok texts, t')
  /-- What is registered is the same for every order exactly if templates of one name agree. -/
  registered_iff :
    (∀ t', t.Relisted t' → ∀ name, config.registeredText? t' name = config.registeredText? t name) ↔
      t.TemplatesAgree directory fileNames
  /-- If they do, then a template is registered under its name. -/
  registered : t.TemplatesAgree directory fileNames → ∀ name text,
    config.registeredText? t name = some text ↔ ∃ fileName ∈ fileNames,
      t.IsTemplateIn directory fileName ∧ templateName fileName = name ∧
        t.textIn? directory fileName = some text
  /-- And all scaffolds are the same for every order. -/
  scaffolds : t.TemplatesAgree directory fileNames → ∀ t', t.Relisted t' →
    (∀ a, config.scaffoldOf t' a = config.scaffoldOf t a) ∧
      config.schemaScaffold t' = config.schemaScaffold t

/-- **What is registered does not depend on the order of a directory** exactly if no two templates
have one name, letter case apart, and different texts. -/
theorem unordered_of_canRead (hmap : t.IsMap)
    (hdirectory : config.templateDirectory? = some directory)
    (hlist : t.list directory = .ok fileNames) (hread : t.CanRead directory fileNames) :
    Unordered config t directory fileNames := by
  have hlookup : t.TemplatesAgree directory fileNames → ∀ t', t.Relisted t' →
      ∃ fileNames', t'.list directory = .ok fileNames' ∧ t'.CanRead directory fileNames' ∧
        ∀ name, (registered (t'.templatesIn directory fileNames')).lookup name =
          (registered (t.templatesIn directory fileNames)).lookup name := by
    intro hagree t' h
    obtain ⟨fileNames', hlist', hread', hperm⟩ := exists_listing h hmap hlist hread
    exact ⟨fileNames', hlist', hread', lookup_registered_perm hagree.templatesIn hperm⟩
  refine ⟨?reads, ⟨?differ, ?same⟩, ?registered, ?scaffolds⟩
  case reads =>
    intro t' h
    obtain ⟨fileNames', hlist', hread', -⟩ := exists_listing h hmap hlist hread
    exact ⟨_, userTemplateTexts_run hdirectory hlist' hread'⟩
  case differ =>
    -- Each of two templates with one name can be listed last.
    intro hsame
    have hlast : ∀ fileName ∈ fileNames, t.IsTemplateIn directory fileName →
        config.registeredText? t (templateName fileName) = t.textIn? directory fileName := by
      intro fileName hmem htemplate
      obtain ⟨text, htext⟩ := Option.isSome_iff_exists.mp (hread fileName hmem htemplate)
      obtain ⟨t', front, h, hlist'⟩ := Tree.exists_relisted_last hmap hlist hmem
      obtain ⟨fileNames', hlist'', hread', -⟩ := exists_listing h hmap hlist hread
      obtain rfl := Except.ok.inj (hlist'.symm.trans hlist'')
      rw [← hsame t' h, registeredText?_eq hdirectory hlist' hread', h.templatesIn_eq hmap,
        lookup_registered_last htemplate htext, htext]
    intro first hfirst second hsecond htemplate htemplate' hname
    rw [← hlast first hfirst htemplate, hname, hlast second hsecond htemplate']
  case same =>
    intro hagree t' h name
    obtain ⟨fileNames', hlist', hread', hsame⟩ := hlookup hagree t' h
    rw [registeredText?_eq hdirectory hlist' hread', registeredText?_eq hdirectory hlist hread,
      hsame]
  case registered =>
    intro hagree name text
    rw [registeredText?_eq hdirectory hlist hread,
      lookup_registered_eq_some_iff hagree.templatesIn, Tree.mem_templatesIn_iff]
  case scaffolds =>
    intro hagree t' h
    obtain ⟨fileNames', hlist', hread', hsame⟩ := hlookup hagree t' h
    unfold Config.scaffoldOf Config.schemaScaffold
    rw [load_run hdirectory hlist' hread', load_run hdirectory hlist hread]
    exact ⟨fun a => fill_ofTexts_congr hsame _ _ fun c => (c.region a).value,
      fill_ofTexts_congr hsame _ _ fun _ => .null⟩

end Unordered

/-- A configuration with a directory of templates. -/
def Config.templated : Config :=
  { templates := some ⟨"t"⟩ }

/-- A disk with two templates for the enumeration in that directory. -/
def Disk.Tree.twoSpellings : Tree :=
  ⟨[(["t"], .directory), (["packet_id.h.tera", "t"], .file "exact".toUTF8),
    (["Packet_ID.h.tera", "t"], .file "other".toUTF8)], []⟩

/-- Which of them is registered is a matter of the order. -/
theorem unordered_of_canRead_twoSpellings : Tree.twoSpellings.IsMap ∧
    Config.templated.templateDirectory? = some ⟨"./t"⟩ ∧
    Tree.twoSpellings.list ⟨"./t"⟩ = .ok ["packet_id.h.tera", "Packet_ID.h.tera"] ∧
    Tree.twoSpellings.CanRead ⟨"./t"⟩ ["packet_id.h.tera", "Packet_ID.h.tera"] ∧
    ¬∀ t', Tree.twoSpellings.Relisted t' → ∀ name,
      Config.templated.registeredText? t' name =
        Config.templated.registeredText? Tree.twoSpellings name := by
  have hmap : Tree.twoSpellings.IsMap := by
    unfold Tree.IsMap
    decide
  have hlist : Tree.twoSpellings.list ⟨"./t"⟩ = .ok ["packet_id.h.tera", "Packet_ID.h.tera"] := by
    decide
  have hread : Tree.twoSpellings.CanRead ⟨"./t"⟩ ["packet_id.h.tera", "Packet_ID.h.tera"] := by
    unfold Tree.CanRead
    decide
  have hdiffer :
      ¬Tree.twoSpellings.TemplatesAgree ⟨"./t"⟩ ["packet_id.h.tera", "Packet_ID.h.tera"] := by
    unfold Tree.TemplatesAgree
    decide
  have hunordered : Unordered Config.templated _ _ _ := unordered_of_canRead hmap rfl hlist hread
  exact ⟨hmap, rfl, hlist, hread, fun hsame => hdiffer (hunordered.registered_iff.mp hsame)⟩

end Packetry
