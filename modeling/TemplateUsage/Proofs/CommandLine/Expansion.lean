import Mathlib.Data.List.Lex
import Mathlib.Data.List.Nodup
import Mathlib.Data.String.Basic
import TemplateUsage.CommandLine.Files
import TemplateUsage.Proofs.CommandLine.Paths

set_option autoImplicit false

/-!
# The templates that paths stand for

A file system is what stands at each path and what each folder lists, such that a folder
is found with the files that a walk below it comes to (`FileSystem`). A walk does not go
into links, and a folder that cannot be listed lists nothing. In every file system a folder
stands for the templates below it, each once and in the order of their names, and any
other path for itself (`FileSystem.Expands`); what is read for a path is what stands there
(`FileSystem.exists_expansion`). A tree of files, seen from any working folder, is a file
system (`FileTree.system`).
-/

namespace TemplateUsage.CommandLine

/-! ## File systems -/

/-- What a file or a folder may be called. -/
def IsFileName (name : String) : Prop :=
  Path.isName name.toList = true ∧ '/' ∉ name.toList ∧ name ≠ ".."

instance (name : String) : Decidable (IsFileName name) := inferInstanceAs (Decidable (_ ∧ _ ∧ _))

/-- Something that a folder lists. -/
structure Entry where
  name : String
  /-- Whether a walk goes on in it: it is a folder, and no link to one. -/
  isEntered : Bool

/-- The names that a walk below a path comes to, when each folder lists its entries. -/
inductive Walks (entries : Path → List Entry) : Path → List String → Prop where
  | entry {path : Path} {entry : Entry} : entry ∈ entries path → Walks entries path [entry.name]
  | enter {path : Path} {entry : Entry} {names : List String} : entry ∈ entries path →
      entry.isEntered = true → Walks entries (path.below [entry.name]) names →
      Walks entries path (entry.name :: names)

/-- What stands at each path, and what the folders list. -/
structure FileSystem where
  look : Path → Found
  /-- What the folder at a path lists; nothing if it cannot be listed. -/
  entries : Path → List Entry
  named : ∀ path, ∀ entry ∈ entries path, IsFileName entry.name
  distinct : ∀ {path files}, look path = .folder files → (files.map StoredFile.names).Nodup
  /-- A folder is found with the files that a walk below it comes to. -/
  walked : ∀ {path files}, look path = .folder files → ∀ names content,
    ⟨names, content⟩ ∈ files ↔
      Walks entries path names ∧ look (path.below names) = .file content

theorem Path.below_below (path : Path) (front back : List String) :
    (path.below front).below back = path.below (front ++ back) := by
  rw [below, below, below, List.append_assoc]

section

variable {entries : Path → List Entry} {path : Path} {names : List String}

theorem Walks.ne_nil (h : Walks entries path names) : names ≠ [] := by
  cases h with
  | entry hentry => exact List.cons_ne_nil _ _
  | enter hentry hentered hwalks => exact List.cons_ne_nil _ _

theorem Walks.forall_names {property : String → Prop}
    (hentries : ∀ path, ∀ entry ∈ entries path, property entry.name)
    (h : Walks entries path names) : ∀ name ∈ names, property name := by
  induction h with
  | entry hentry => exact List.forall_mem_singleton.2 (hentries _ _ hentry)
  | enter hentry _ _ ih => exact List.forall_mem_cons.2 ⟨hentries _ _ hentry, ih⟩

end

/-! ## Expansions -/

namespace FileSystem

variable {system : FileSystem} {path : Path} {files : List StoredFile}

/-- There is a file at the path. -/
def IsFile (system : FileSystem) (path : Path) : Prop :=
  ∃ content, system.look path = .file content

/-- The paths that a path stands for. A folder stands for the files below it, at any
depth, that have the name of a template, each once and in the order of their names;
anything else stands for itself. -/
def Expands (system : FileSystem) (path : Path) (found : List Path) : Prop :=
  match system.look path with
  | .folder _ =>
      found.Pairwise (fun first second => first.names < second.names) ∧
        ∀ other, other ∈ found ↔ ∃ names, Walks system.entries path names ∧
          system.IsFile (path.below names) ∧ (∃ name ∈ names.getLast?, IsTemplateName name) ∧
          other = path.below names
  | _ => found = [path]

/-- What there is to read at a path. -/
def sourceAt (system : FileSystem) (path : Path) : Source :=
  ⟨path, match system.look path with
    | .file content => some content
    | _ => none⟩

/-- Files with names of their own are sorted strictly. -/
theorem pairwise_mergeSort_names (hdistinct : (files.map StoredFile.names).Nodup) :
    (files.mergeSort fun a b => namesLe a.names b.names).Pairwise
      fun first second => first.names < second.names := by
  have hle (a b : StoredFile) : namesLe a.names b.names = true ↔ a.names ≤ b.names := by
    rw [namesLe, Bool.not_eq_true', decide_eq_false_iff_not, not_lt]
  have htrans (a b c : StoredFile) (hab : namesLe a.names b.names = true)
      (hbc : namesLe b.names c.names = true) : namesLe a.names c.names = true := by
    rw [hle] at hab hbc ⊢
    exact hab.trans hbc
  have htotal (a b : StoredFile) :
      (namesLe a.names b.names || namesLe b.names a.names) = true := by
    rw [Bool.or_eq_true, hle, hle]
    exact le_total _ _
  have hsorted := List.pairwise_mergeSort htrans htotal files
  have hne : (files.mergeSort fun a b => namesLe a.names b.names).Pairwise
      fun first second => first.names ≠ second.names :=
    (List.mergeSort_perm files _).pairwise_iff (fun h => h.symm) |>.2
      (List.pairwise_map.1 hdistinct)
  exact (hsorted.and hne).imp fun {first second} h => lt_of_le_of_ne ((hle _ _).1 h.1) h.2

/-- The templates among the files below a folder, in the order in which they are read. -/
def templatesBelow (path : Path) (files : List StoredFile) : List Path :=
  ((files.mergeSort fun a b => namesLe a.names b.names).filter fun file =>
    isTemplatePath (path.below file.names).text).map fun file => path.below file.names

theorem pairwise_templatesBelow (hdistinct : (files.map StoredFile.names).Nodup) (path : Path) :
    (templatesBelow path files).Pairwise fun first second => first.names < second.names := by
  rw [templatesBelow, List.pairwise_map]
  refine ((pairwise_mergeSort_names hdistinct).sublist List.filter_sublist).imp
    fun {first second} hlt => ?_
  exact List.append_left_lt hlt

/-- The templates below a folder are what a walk comes to that is a file with the name of a
template. -/
theorem mem_templatesBelow (hlook : system.look path = .folder files) (other : Path) :
    other ∈ templatesBelow path files ↔ ∃ names, Walks system.entries path names ∧
      system.IsFile (path.below names) ∧ (∃ name ∈ names.getLast?, IsTemplateName name) ∧
      other = path.below names := by
  have hlast {names : List String} {name : String} (h : names.getLast? = some name) :
      (path.below names).names.getLast? = some name := by
    rw [Path.below, List.getLast?_append, h]
    rfl
  constructor
  · intro hmem
    obtain ⟨⟨names, content⟩, hfile, rfl⟩ := List.mem_map.1 hmem
    obtain ⟨hsorted, htemplate⟩ := List.mem_filter.1 hfile
    obtain ⟨hwalks, hfound⟩ :=
      (system.walked hlook names content).1 (List.mem_mergeSort.1 hsorted)
    have hname := List.getLast?_eq_some_getLast hwalks.ne_nil
    exact ⟨names, hwalks, ⟨content, hfound⟩,
      ⟨_, hname, (isTemplatePath_text_iff (hlast hname)).1 htemplate⟩, rfl⟩
  · rintro ⟨names, hwalks, ⟨content, hfound⟩, ⟨name, hname, htemplate⟩, rfl⟩
    refine List.mem_map.2 ⟨⟨names, content⟩, List.mem_filter.2 ⟨?_, ?_⟩, rfl⟩
    · exact List.mem_mergeSort.2 ((system.walked hlook names content).2 ⟨hwalks, hfound⟩)
    · exact (isTemplatePath_text_iff (hlast hname)).2 htemplate

/-- What is read for a folder is what stands at the paths of the templates below it. -/
theorem sources_folder (hlook : system.look path = .folder files) :
    (Found.folder files).sources path = (templatesBelow path files).map system.sourceAt := by
  rw [Found.sources, List.filter_map, templatesBelow, List.map_map]
  refine List.map_congr_left fun file hfile => ?_
  have hmem : ⟨file.names, file.content⟩ ∈ files :=
    List.mem_mergeSort.1 (List.mem_filter.1 hfile).1
  have hfound := ((system.walked hlook _ _).1 hmem).2
  rw [Function.comp_apply, sourceAt, hfound]

/-- A path is expanded, and what is read for each of the paths it stands for is what
stands there. -/
theorem exists_expansion (system : FileSystem) (hpath : path.Clean) :
    ∃ found, system.Expands path found ∧ (∀ other ∈ found, other.Clean) ∧
      (system.look path).sources path = found.map system.sourceAt := by
  cases hlook : system.look path with
  | nothing =>
      refine ⟨[path], ?_, by simpa using hpath, ?_⟩
      · rw [Expands, hlook]
      · rw [List.map_singleton, sourceAt, hlook]
        rfl
  | file content =>
      refine ⟨[path], ?_, by simpa using hpath, ?_⟩
      · rw [Expands, hlook]
      · rw [List.map_singleton, sourceAt, hlook]
        rfl
  | folder files =>
      refine ⟨templatesBelow path files, ?_, ?_, sources_folder hlook⟩
      · rw [Expands, hlook]
        exact ⟨pairwise_templatesBelow (system.distinct hlook) path, mem_templatesBelow hlook⟩
      · intro other hother
        obtain ⟨names, hwalks, -, -, rfl⟩ := (mem_templatesBelow hlook other).1 hother
        refine hpath.below (hwalks.forall_names fun path entry hentry => ?_)
        exact ⟨(system.named path entry hentry).1, (system.named path entry hentry).2.1⟩

end FileSystem

/-! ## Trees of files -/

namespace FileTree

variable {tree : FileTree}

/-- Files and folders are called what they may be called, and no two files stand at one
place. -/
structure WellFormed (tree : FileTree) : Prop where
  named : ∀ names ∈ tree.files.map StoredFile.names ++ tree.folders, ∀ name ∈ names,
    IsFileName name
  distinct : (tree.files.map StoredFile.names).Nodup

theorem WellFormed.eq_of_names (hwell : tree.WellFormed) {first second : StoredFile}
    (hfirst : first ∈ tree.files) (hsecond : second ∈ tree.files)
    (hnames : first.names = second.names) : first = second :=
  List.inj_on_of_nodup_map hwell.distinct hfirst hsecond hnames

/-- A file is found where its names lead. -/
theorem WellFormed.foundAt_eq_file_iff (hwell : tree.WellFormed) {names : List String}
    {content : Content} :
    tree.foundAt names = .file content ↔ ⟨names, content⟩ ∈ tree.files := by
  rw [foundAt]
  cases hfind : tree.files.find? fun file => file.names == names with
  | none =>
      have hnone : ⟨names, content⟩ ∉ tree.files := fun hmem =>
        absurd (List.find?_eq_none.1 hfind _ hmem) (by simp)
      refine iff_of_false ?_ hnone
      dsimp only
      split <;> nofun
  | some file =>
      have hnames : file.names = names := by simpa using List.find?_some hfind
      have hmem := List.mem_of_find?_eq_some hfind
      subst hnames
      constructor
      · intro h
        cases h
        exact hmem
      · intro hother
        have heq := hwell.eq_of_names hmem hother rfl
        exact congrArg (fun found : StoredFile => Found.file found.content) heq

/-- A folder is found where names lead to no file, with the files below it. -/
theorem eq_inside_of_foundAt {names : List String} {files : List StoredFile}
    (h : tree.foundAt names = .folder files) :
    (∀ file ∈ tree.files, file.names ≠ names) ∧ files = tree.inside names := by
  unfold foundAt at h
  split at h
  · cases h
  · rename_i hnone
    split at h
    · cases h
      refine ⟨fun file hfile hnames => ?_, rfl⟩
      exact absurd (List.find?_eq_none.1 hnone file hfile) (by simp [hnames])
    · cases h

theorem mem_inside {here names : List String} {content : Content} :
    ⟨names, content⟩ ∈ tree.inside here ↔ ⟨here ++ names, content⟩ ∈ tree.files := by
  constructor
  · intro hmem
    obtain ⟨file, hfile, heq⟩ := List.mem_map.1 hmem
    obtain ⟨hfile, hbelow⟩ := List.mem_filter.1 hfile
    obtain ⟨rest, hrest⟩ := List.isPrefixOf_iff_prefix.1 hbelow
    cases heq
    rw [← hrest, List.drop_left, hrest]
    exact hfile
  · intro hmem
    refine List.mem_map.2 ⟨_, List.mem_filter.2 ⟨hmem, ?_⟩, ?_⟩
    · exact List.isPrefixOf_iff_prefix.2 (List.prefix_append here names)
    · rw [List.drop_left]

theorem WellFormed.nodup_inside (hwell : tree.WellFormed) (here : List String) :
    ((tree.inside here).map StoredFile.names).Nodup := by
  have hdistinct : (tree.files.filter fun file => here.isPrefixOf file.names).Pairwise
      fun first second => first.names ≠ second.names :=
    (List.pairwise_map.1 hwell.distinct).sublist List.filter_sublist
  rw [inside, List.map_map, List.Nodup, List.pairwise_map]
  refine hdistinct.imp_of_mem fun {first second} hfirst hsecond hne heq => hne ?_
  obtain ⟨front, hfront⟩ := List.isPrefixOf_iff_prefix.1 (List.mem_filter.1 hfirst).2
  obtain ⟨back, hback⟩ := List.isPrefixOf_iff_prefix.1 (List.mem_filter.1 hsecond).2
  dsimp only [Function.comp_apply] at heq
  rw [← hfront, ← hback, List.drop_left, List.drop_left] at heq
  rw [← hfront, ← hback, heq]

/-! ## Walks in a tree -/

/-- What the folder at the end of names lists. -/
def children (tree : FileTree) (here : List String) : List Entry :=
  ((tree.files.map StoredFile.names ++ tree.folders).filterMap fun names =>
    if here.isPrefixOf names then (names.drop here.length).head? else none).map fun name =>
      ⟨name, tree.isFolder (here ++ [name])⟩

/-- What the folder at a path lists, given the working folder. -/
def entriesFrom (tree : FileTree) (home : List String) (path : Path) : List Entry :=
  match tree.follow? (origin home path.root) path.names with
  | some here => tree.children here
  | none => []

theorem mem_children {here : List String} {entry : Entry} :
    entry ∈ tree.children here ↔
      (∃ more, here ++ entry.name :: more ∈ tree.files.map StoredFile.names ++ tree.folders) ∧
        entry.isEntered = tree.isFolder (here ++ [entry.name]) := by
  constructor
  · intro hmem
    obtain ⟨name, hname, rfl⟩ := List.mem_map.1 hmem
    obtain ⟨names, hnames, hhead⟩ := List.mem_filterMap.1 hname
    obtain ⟨hbelow, hhead⟩ := Option.ite_none_right_eq_some.1 hhead
    obtain ⟨rest, rfl⟩ := List.isPrefixOf_iff_prefix.1 hbelow
    rw [List.drop_left] at hhead
    obtain ⟨more, rfl⟩ := List.head?_eq_some_iff.1 hhead
    exact ⟨⟨more, hnames⟩, rfl⟩
  · rintro ⟨⟨more, hmore⟩, hentered⟩
    obtain ⟨name, isEntered⟩ := entry
    dsimp only at hmore hentered
    subst hentered
    refine List.mem_map.2 ⟨name, List.mem_filterMap.2 ⟨_, hmore, ?_⟩, rfl⟩
    rw [if_pos (List.isPrefixOf_iff_prefix.2 (List.prefix_append _ _)), List.drop_left]
    rfl

/-- What is on the way to something is a folder. -/
theorem isFolder_of_mem {here more : List String} {name : String}
    (h : here ++ name :: more ∈ tree.files.map StoredFile.names ++ tree.folders) :
    tree.isFolder here = true := by
  have hbelow : here.isPrefixOf (here ++ name :: more) = true :=
    List.isPrefixOf_iff_prefix.2 (List.prefix_append _ _)
  rw [isFolder, Bool.or_eq_true, Bool.or_eq_true]
  rcases List.mem_append.1 h with hfile | hfolder
  · obtain ⟨file, hfile, hnames⟩ := List.mem_map.1 hfile
    refine .inr (List.any_eq_true.2 ⟨file, hfile, ?_⟩)
    rw [hnames, hbelow, Bool.true_and, bne_iff_ne]
    simp
  · exact .inl (.inr (List.any_eq_true.2 ⟨_, hfolder, hbelow⟩))

theorem follow?_append (here front back : List String) :
    tree.follow? here (front ++ back) = (tree.follow? here front).bind (tree.follow? · back) := by
  induction front generalizing here with
  | nil => rfl
  | cons name rest ih =>
      rw [List.cons_append, follow?, follow?]
      split
      · rfl
      · split
        · exact ih _
        · exact ih _

section

variable {home here names : List String} {path : Path}

theorem mem_entriesFrom (hfollow : tree.follow? (origin home path.root) path.names = some here)
    {entry : Entry} : entry ∈ tree.entriesFrom home path ↔ entry ∈ tree.children here := by
  rw [entriesFrom, hfollow]

/-- An entry of a folder is found below it. -/
theorem WellFormed.follow?_entry (hwell : tree.WellFormed)
    (hfollow : tree.follow? (origin home path.root) path.names = some here) {entry : Entry}
    (hentry : entry ∈ tree.children here) :
    tree.follow? (origin home (path.below [entry.name]).root) (path.below [entry.name]).names =
      some (here ++ [entry.name]) := by
  obtain ⟨⟨more, hmore⟩, -⟩ := mem_children.1 hentry
  have hname : (entry.name == "..") = false := by
    simpa using (hwell.named _ hmore entry.name (by simp)).2.2
  have hstep : tree.follow? here [entry.name] = some (here ++ [entry.name]) := by
    rw [follow?, isFolder_of_mem hmore, hname]
    rfl
  rw [Path.below, follow?_append, hfollow]
  exact hstep

/-- What a walk comes to is found below the folder it started from. -/
theorem WellFormed.follow?_of_walks (hwell : tree.WellFormed)
    (hwalks : Walks (tree.entriesFrom home) path names)
    (hfollow : tree.follow? (origin home path.root) path.names = some here) :
    tree.follow? (origin home (path.below names).root) (path.below names).names =
      some (here ++ names) := by
  induction hwalks generalizing here with
  | entry hentry => exact hwell.follow?_entry hfollow ((mem_entriesFrom hfollow).1 hentry)
  | enter hentry _ _ ih =>
      have hstep := hwell.follow?_entry hfollow ((mem_entriesFrom hfollow).1 hentry)
      have hrest := ih hstep
      rw [Path.below_below, List.singleton_append, List.append_assoc] at hrest
      exact hrest

/-- A walk comes to every file below the folder it started from. -/
theorem WellFormed.walks_of_mem (hwell : tree.WellFormed) (hne : names ≠ [])
    (hfile : here ++ names ∈ tree.files.map StoredFile.names)
    (hfollow : tree.follow? (origin home path.root) path.names = some here) :
    Walks (tree.entriesFrom home) path names := by
  induction names generalizing path here with
  | nil => exact absurd rfl hne
  | cons name rest ih =>
      have hentry : ⟨name, tree.isFolder (here ++ [name])⟩ ∈ tree.children here :=
        mem_children.2 ⟨⟨rest, List.mem_append_left _ hfile⟩, rfl⟩
      have hlisted := (mem_entriesFrom hfollow).2 hentry
      cases rest with
      | nil => exact .entry hlisted
      | cons next rest =>
          have hsplit : (here ++ [name]) ++ next :: rest ∈ tree.files.map StoredFile.names := by
            rw [List.append_assoc]
            exact hfile
          -- the name leads to a folder, since there is a file below it
          have hfolder : tree.isFolder (here ++ [name]) = true :=
            isFolder_of_mem (List.mem_append_left _ hsplit)
          exact .enter hlisted hfolder
            (ih (List.cons_ne_nil _ _) hsplit (hwell.follow?_entry hfollow hentry))

end

/-- A tree of files, seen from a working folder. -/
def system (tree : FileTree) (hwell : tree.WellFormed) (home : List String) : FileSystem where
  look := tree.lookFrom home
  entries := tree.entriesFrom home
  named path entry hentry := by
    unfold entriesFrom at hentry
    split at hentry
    · obtain ⟨⟨more, hmore⟩, -⟩ := mem_children.1 hentry
      exact hwell.named _ hmore entry.name (by simp)
    · cases hentry
  distinct {path files} hlook := by
    unfold lookFrom at hlook
    split at hlook
    · obtain ⟨-, rfl⟩ := eq_inside_of_foundAt hlook
      exact hwell.nodup_inside _
    · cases hlook
  walked {path files} hlook names content := by
    rw [lookFrom] at hlook
    cases hfollow : tree.follow? (origin home path.root) path.names with
    | none => rw [hfollow] at hlook; cases hlook
    | some here =>
        rw [hfollow] at hlook
        obtain ⟨hnone, rfl⟩ := eq_inside_of_foundAt hlook
        rw [mem_inside]
        constructor
        · intro hfile
          have hne : names ≠ [] := by
            rintro rfl
            exact hnone _ hfile (List.append_nil here)
          have hwalks := hwell.walks_of_mem hne (List.mem_map_of_mem hfile) hfollow
          refine ⟨hwalks, ?_⟩
          rw [lookFrom, hwell.follow?_of_walks hwalks hfollow]
          exact hwell.foundAt_eq_file_iff.2 hfile
        · rintro ⟨hwalks, hfound⟩
          rw [lookFrom, hwell.follow?_of_walks hwalks hfollow] at hfound
          exact hwell.foundAt_eq_file_iff.1 hfound

end FileTree

end TemplateUsage.CommandLine
