/-
What the walk of a workspace takes along, leaves out and comes by.

`included` and `leftOut` say of a tree what `walkWorkspace` finds in it.  Together they are
what is `visited`, each entry once; no visited entry is below another one, so a regular file
is included unless it, or a directory that it is in, is left out.
-/
import Diri.Node.Walk

namespace Diri

open Handler List

namespace Listing

/-! ### A tree, entry by entry -/

/-- The same entries, one directory further up. -/
def within {β : Type} (name : FileName) (entries : List (List FileName × β)) :
    List (List FileName × β) :=
  entries.map fun entry => (name :: entry.1, entry.2)

def regular : Listing → List (List FileName × RestoredFile)
  | nil => []
  | file name contents mode rest => ([name], ⟨contents, some (mode &&& 0o777)⟩) :: rest.regular
  | directory name children rest => within name children.regular ++ rest.regular
  | other _ rest => rest.regular

def paths : Listing → List (List FileName)
  | nil => []
  | file name _ _ rest => [[name]] ++ rest.paths
  | directory name children rest => ([name] :: children.paths.map (name :: ·)) ++ rest.paths
  | other name rest => [[name]] ++ rest.paths

/-- What the walk comes by, but for the directories that it goes into. -/
def visited : Listing → List (List FileName)
  | nil => []
  | file name _ _ rest => [[name]] ++ rest.visited
  | directory name children rest =>
    (if shouldExclude name true then [[name]] else children.visited.map (name :: ·)) ++ rest.visited
  | other name rest => [[name]] ++ rest.visited

def included : Listing → List (List FileName × RestoredFile)
  | nil => []
  | file name contents mode rest =>
    if shouldExclude name false ∨ maxFileBytes < contents.length then rest.included
    else ([name], ⟨contents, some (mode &&& 0o777)⟩) :: rest.included
  | directory name children rest =>
    if shouldExclude name true then rest.included
    else within name children.included ++ rest.included
  | other _ rest => rest.included

def leftOut : Listing → List (List FileName)
  | nil => []
  | file name contents _ rest =>
    if shouldExclude name false ∨ maxFileBytes < contents.length then [name] :: rest.leftOut
    else rest.leftOut
  | directory name children rest =>
    if shouldExclude name true then [name] :: rest.leftOut
    else children.leftOut.map (name :: ·) ++ rest.leftOut
  | other name rest => [name] :: rest.leftOut

@[simp] theorem map_within {β : Type} (name : FileName) (entries : List (List FileName × β)) :
    (within name entries).map Prod.fst = (entries.map Prod.fst).map (name :: ·) := by
  simp [within, Function.comp_def]

theorem mem_within {β : Type} {name : FileName} {entries : List (List FileName × β)}
    {path : List FileName} {value : β} :
    (path, value) ∈ within name entries ↔ ∃ rest, path = name :: rest ∧
    (rest, value) ∈ entries := by
  simp only [within, mem_map, Prod.mk.injEq, Prod.exists]
  constructor
  · rintro ⟨rest, _, hmem, rfl, rfl⟩
    exact ⟨rest, rfl, hmem⟩
  · rintro ⟨rest, rfl, hmem⟩
    exact ⟨rest, value, hmem, rfl, rfl⟩

/-! ### The walk finds them -/

end Listing

open Listing

def walkedFile (directory : List FileName) (entry : List FileName × RestoredFile) : WalkedFile :=
  ⟨toStringLossy (joined (directory ++ entry.1)), entry.2.contents, entry.2.contents,
    entry.2.unixMode⟩

/-- What the walk writes down of an entry that is left out. -/
def written (directory path : List FileName) : String :=
  toStringLossy (joined (directory ++ path))

theorem takeFile_ok {path : List FileName} {contents : List UInt8} {mode : Nat}
    {walk walk' : WorkspaceWalk} (h : exec (takeFile path contents mode) walk = (.ok ⟨⟩, walk')) :
    (maxFileBytes < contents.length ∧ walk'.files = walk.files ∧
      walk'.excluded = walk.excluded ++ [toStringLossy (joined path)]) ∨
    (¬maxFileBytes < contents.length ∧ walk'.excluded = walk.excluded ∧ walk'.files = walk.files ++
        [⟨toStringLossy (joined path), contents, contents, some (mode &&& 0o777)⟩]) := by
  unfold takeFile at h
  rw [exec_bind_ok (exec_get walk)] at h
  split at h
  · cases h
  split at h
  · obtain ⟨-, rfl⟩ := Prod.mk.inj h
    exact .inl ⟨‹_›, rfl, rfl⟩
  rw [exec_bind_ok (exec_modify _ _)] at h
  split at h
  · cases h
  · obtain ⟨-, rfl⟩ := Prod.mk.inj h
    exact .inr ⟨‹_›, rfl, rfl⟩

/-- What the walk found before it went on is still there. -/
structure Finds (directory : List FileName) (files : List (List FileName × RestoredFile))
    (excluded : List (List FileName)) (before after : WorkspaceWalk) : Prop where
  files : after.files = before.files ++ files.map (walkedFile directory)
  excluded : after.excluded = before.excluded ++ excluded.map (written directory)

theorem Finds.nil (directory : List FileName) (walk : WorkspaceWalk) : Finds directory []
    [] walk walk :=
  ⟨by simp, by simp⟩

variable {directory : List FileName}

theorem Finds.append {files more : List (List FileName × RestoredFile)}
    {excluded others : List (List FileName)} {first second third : WorkspaceWalk}
    (h : Finds directory files excluded first second)
    (hmore : Finds directory more others second third) :
    Finds directory (files ++ more) (excluded ++ others) first third := by
  refine ⟨?_, ?_⟩
  · rw [hmore.files, h.files, map_append, append_assoc]
  · rw [hmore.excluded, h.excluded, map_append, append_assoc]

theorem Finds.within {name : FileName}
    {files : List (List FileName × RestoredFile)} {excluded : List (List FileName)}
    {before after : WorkspaceWalk} (h : Finds (directory ++ [name]) files excluded before after) :
    Finds directory (within name files) (excluded.map (name :: ·)) before after := by
  refine ⟨?_, ?_⟩
  · simp [h.files, Listing.within, walkedFile, Function.comp_def]
  · simp [h.excluded, written, Function.comp_def]

theorem exec_leaveOut (path : List FileName) (walk : WorkspaceWalk) : exec (leaveOut path) walk =
      (.ok ⟨⟩, { walk with excluded := walk.excluded ++ [toStringLossy (joined path)] }) := rfl

theorem leaveOut_finds (directory : List FileName) (name : FileName) (walk : WorkspaceWalk) :
    Finds directory [] [[name]] walk
      { walk with excluded := walk.excluded ++ [toStringLossy (joined (directory ++ [name]))] } :=
  ⟨by simp, by simp [written]⟩

theorem walkWorkspace_ok {tree : Listing} {walk walk' : WorkspaceWalk}
    (h : exec (walkWorkspace directory tree) walk = (.ok ⟨⟩, walk')) :
    Finds directory tree.included tree.leftOut walk walk' := by
  induction tree generalizing directory walk walk' with
  | nil =>
    obtain ⟨-, rfl⟩ := Prod.mk.inj h
    exact .nil directory walk
  | file name contents mode rest ih =>
    rw [walkWorkspace] at h
    simp only [included, leftOut]
    split at h
    · rw [if_pos (.inl ‹_›), if_pos (.inl ‹_›)]
      exact (leaveOut_finds directory name walk).append (ih h)
    obtain ⟨⟨⟩, walk₁, hfirst, hrest⟩ := exec_bind_of_ok h
    rcases takeFile_ok hfirst with ⟨hlarge, hfiles, hexcluded⟩ | ⟨hsmall, hexcluded, hfiles⟩
    · rw [if_pos (.inr hlarge), if_pos (.inr hlarge)]
      have hfound : Finds directory [] [[name]] walk walk₁ :=
        ⟨by simp [hfiles], by simp [hexcluded, written]⟩
      exact hfound.append (ih hrest)
    have hneither : ¬(shouldExclude name false ∨ maxFileBytes < contents.length) := by
      simp_all
    rw [if_neg hneither, if_neg hneither]
    have hfound : Finds directory [([name], ⟨contents, some (mode &&& 0o777)⟩)] [] walk
        walk₁ := ⟨by simp [hfiles, walkedFile], by simp [hexcluded]⟩
    exact hfound.append (ih hrest)
  | directory name children rest ihchildren ihrest =>
    rw [walkWorkspace] at h
    simp only [included, leftOut]
    split at h
    · rw [if_pos ‹_›, if_pos ‹_›]
      exact (leaveOut_finds directory name walk).append (ihrest h)
    obtain ⟨⟨⟩, walk₁, hfirst, hrest⟩ := exec_bind_of_ok h
    rw [if_neg ‹_›, if_neg ‹_›]
    exact (ihchildren hfirst).within.append (ihrest hrest)
  | other name rest ih =>
    exact (leaveOut_finds directory name walk).append (ih h)

namespace Listing

/-! ### Entries and their names -/

variable {path : List FileName} {tree : Listing} {file : RestoredFile}

theorem head_mem_names (h : path ∈ tree.paths) :
    ∃ name ∈ tree.names, ∃ rest, path = name :: rest := by
  induction tree with
  | nil => cases h
  | file name contents mode rest ih =>
    rcases mem_append.mp h with h | h
    · exact ⟨name, mem_cons_self, [], mem_singleton.mp h⟩
    · obtain ⟨first, hfirst, more⟩ := ih h
      exact ⟨first, mem_cons_of_mem _ hfirst, more⟩
  | directory name children rest _ ih =>
    rcases mem_append.mp h with h | h
    · refine ⟨name, mem_cons_self, ?_⟩
      rcases mem_cons.mp h with rfl | h
      · exact ⟨[], rfl⟩
      · obtain ⟨path, -, rfl⟩ := mem_map.mp h
        exact ⟨path, rfl⟩
    · obtain ⟨first, hfirst, more⟩ := ih h
      exact ⟨first, mem_cons_of_mem _ hfirst, more⟩
  | other name rest ih =>
    rcases mem_append.mp h with h | h
    · exact ⟨name, mem_cons_self, [], mem_singleton.mp h⟩
    · obtain ⟨first, hfirst, more⟩ := ih h
      exact ⟨first, mem_cons_of_mem _ hfirst, more⟩

theorem Leads.head_ne {name : FileName} {rest : Listing} (h : Leads name rest)
    (hpath : path ∈ rest.paths) : path.head? ≠ some name := by
  obtain ⟨first, hfirst, more, rfl⟩ := head_mem_names hpath
  intro heq
  obtain rfl := Option.some.inj heq
  exact List.lt_irrefl _ (h.first first hfirst)

theorem isName_of_mem (htree : tree.Ordered)
    (h : path ∈ tree.paths) : ∀ name ∈ path, IsName name := by
  induction tree generalizing path with
  | nil => cases h
  | file name contents mode rest ih =>
    rcases mem_append.mp h with h | h
    · obtain rfl := mem_singleton.mp h
      simpa using htree.1.isName
    · exact ih htree.2 h
  | directory name children rest ihchildren ih =>
    rcases mem_append.mp h with h | h
    · rcases mem_cons.mp h with rfl | h
      · simpa using htree.1.isName
      · obtain ⟨path, hpath, rfl⟩ := mem_map.mp h
        intro other hother
        rcases mem_cons.mp hother with rfl | hother
        · exact htree.1.isName
        · exact ihchildren htree.2.1 hpath other hother
    · exact ih htree.2.2 h
  | other name rest ih =>
    rcases mem_append.mp h with h | h
    · obtain rfl := mem_singleton.mp h
      simpa using htree.1.isName
    · exact ih htree.2 h

theorem ne_nil_of_mem (h : path ∈ tree.paths) : path ≠ [] := by
  obtain ⟨name, -, rest, rfl⟩ := head_mem_names h
  simp

/-! ### Each entry once -/

theorem visited_sublist (tree : Listing) : tree.visited.Sublist tree.paths := by
  induction tree with
  | nil => exact .slnil
  | file name contents mode rest ih => exact ih.cons_cons _
  | directory name children rest ihchildren ih =>
    refine List.Sublist.append ?_ ih
    split
    · exact (nil_sublist _).cons_cons _
    · exact (ihchildren.map _).cons _
  | other name rest ih => exact ih.cons_cons _

theorem regular_subset (tree : Listing) : tree.regular.map Prod.fst ⊆ tree.paths := by
  induction tree with
  | nil => exact List.Subset.refl _
  | file name contents mode rest ih => exact cons_subset_cons _ ih
  | directory name children rest ihchildren ih =>
    rw [regular, paths, map_append, map_within]
    refine append_subset.mpr ⟨?_, ?_⟩
    · exact fun path hpath => mem_append_left _ (mem_cons_of_mem _ (map_subset _ ihchildren hpath))
    · exact fun path hpath => mem_append_right _ (ih hpath)
  | other name rest ih => exact fun path hpath => mem_cons_of_mem _ (ih hpath)

/-- Two lists of entries, of which only those of the first are in one directory. -/
theorem nodup_append_of_head {name : FileName} {own rest : List (List FileName)}
    (hown : ∀ path ∈ own, path.head? = some name) (hrest : ∀ path ∈ rest, path.head? ≠ some name)
    (hnodup : own.Nodup) (hnodup' : rest.Nodup) : (own ++ rest).Nodup := by
  refine nodup_append'.mpr ⟨hnodup, hnodup', ?_⟩
  intro path hpath hpath'
  exact hrest path hpath' (hown path hpath)

theorem nodup_paths (htree : tree.Ordered) : tree.paths.Nodup := by
  induction tree with
  | nil => exact .nil
  | file name contents mode rest ih =>
    exact nodup_append_of_head (by simp) (fun _ => htree.1.head_ne) (by simp) (ih htree.2)
  | directory name children rest ihchildren ih =>
    refine nodup_append_of_head (by simp) (fun _ => htree.1.head_ne) ?_ (ih htree.2.2)
    refine nodup_cons.mpr ⟨?_, (ihchildren htree.2.1).map (cons_injective)⟩
    intro h
    obtain ⟨path, hpath, heq⟩ := mem_map.mp h
    exact ne_nil_of_mem hpath (List.cons.inj heq).2
  | other name rest ih =>
    exact nodup_append_of_head (by simp) (fun _ => htree.1.head_ne) (by simp) (ih htree.2)

theorem nodup_visited (htree : tree.Ordered) : tree.visited.Nodup :=
  (nodup_paths htree).sublist tree.visited_sublist

theorem included_leftOut_perm (tree : Listing) :
    (tree.included.map Prod.fst ++ tree.leftOut).Perm tree.visited := by
  induction tree with
  | nil => exact .nil
  | file name contents mode rest ih =>
    rw [included, leftOut, visited]
    split
    · exact perm_middle.trans (ih.cons _)
    · exact ih.cons _
  | directory name children rest ihchildren ih =>
    rw [included, leftOut, visited]
    split
    · exact perm_middle.trans (ih.cons _)
    rw [map_append, map_within, append_assoc]
    refine (List.Perm.append_left _ (perm_append_comm_assoc _ _ _)).trans ?_
    rw [← append_assoc, ← map_append]
    exact (ihchildren.map _).append ih
  | other name rest ih => exact perm_middle.trans (ih.cons _)

/-! ### Nothing below what is visited -/

/-- Of the entries, none is below another one. -/
def Flat (entries : List (List FileName)) : Prop :=
  ∀ path ∈ entries, ∀ other ∈ entries, path <+: other → path = other

theorem Flat.append_of_head {name : FileName} {own rest : List (List FileName)}
    (hown : ∀ path ∈ own, path.head? = some name) (hrest : ∀ path ∈ rest, path.head? ≠ some name)
    (hne : [] ∉ rest) (hflat : Flat own) (hflat' : Flat rest) : Flat (own ++ rest) := by
  have hhead : ∀ {path other : List FileName}, path <+: other → path ≠ [] →
      path.head? = other.head? := by
    rintro path other ⟨more, rfl⟩ hpath
    rw [head?_append_of_ne_nil _ hpath]
  intro path hpath other hother hbelow
  rcases mem_append.mp hpath with hpath | hpath
  · have hname := hown path hpath
    have hsame := hhead hbelow fun hnil => by simp [hnil] at hname
    rcases mem_append.mp hother with hother | hother
    · exact hflat path hpath other hother hbelow
    · exact absurd (hsame.symm.trans hname) (hrest other hother)
  have hsame := hhead hbelow fun hnil => hne (hnil ▸ hpath)
  rcases mem_append.mp hother with hother | hother
  · exact absurd (hsame.trans (hown other hother)) (hrest path hpath)
  · exact hflat' path hpath other hother hbelow

theorem Flat.single (name : FileName) : Flat [[name]] := by
  intro path hpath other hother _
  rw [mem_singleton.mp hpath, mem_singleton.mp hother]

theorem Flat.within {entries : List (List FileName)} (h : Flat entries) (name : FileName) :
    Flat (entries.map (name :: ·)) := by
  intro path hpath other hother hbelow
  obtain ⟨path, hmem, rfl⟩ := mem_map.mp hpath
  obtain ⟨other, hmem', rfl⟩ := mem_map.mp hother
  rw [h path hmem other hmem' ((prefix_cons_inj name).mp hbelow)]

theorem flat_visited (htree : tree.Ordered) : Flat tree.visited := by
  have hrest : ∀ {name : FileName} {rest : Listing}, Leads name rest →
      (∀ path ∈ rest.visited, path.head? ≠ some name) ∧ [] ∉ rest.visited := fun {_ rest} hleads =>
    ⟨fun _ hpath => hleads.head_ne (rest.visited_sublist.subset hpath),
      fun hnil => ne_nil_of_mem (rest.visited_sublist.subset hnil) rfl⟩
  induction tree with
  | nil => exact fun _ h => by cases h
  | file name contents mode rest ih =>
    obtain ⟨hhead, hne⟩ := hrest htree.1
    exact Flat.append_of_head (by simp) hhead hne (.single name) (ih htree.2)
  | directory name children rest ihchildren ih =>
    obtain ⟨hhead, hne⟩ := hrest htree.1
    rw [visited]
    split
    · exact Flat.append_of_head (by simp) hhead hne (.single name) (ih htree.2.2)
    · exact Flat.append_of_head (by simp) hhead hne ((ihchildren htree.2.1).within name)
        (ih htree.2.2)
  | other name rest ih =>
    obtain ⟨hhead, hne⟩ := hrest htree.1
    exact Flat.append_of_head (by simp) hhead hne (.single name) (ih htree.2)

theorem regular_of_included (h : (path, file) ∈ tree.included) : (path, file) ∈ tree.regular := by
  induction tree generalizing path with
  | nil => cases h
  | file name contents mode rest ih =>
    rw [included] at h
    split at h
    · exact mem_cons_of_mem _ (ih h)
    rcases mem_cons.mp h with heq | h
    · exact heq ▸ mem_cons_self
    · exact mem_cons_of_mem _ (ih h)
  | directory name children rest ihchildren ih =>
    rw [included] at h
    split at h
    · exact mem_append_right _ (ih h)
    rcases mem_append.mp h with h | h
    · obtain ⟨path, rfl, hpath⟩ := mem_within.mp h
      exact mem_append_left _ (mem_within.mpr ⟨path, rfl, ihchildren hpath⟩)
    · exact mem_append_right _ (ih h)
  | other name rest ih => exact ih h

/-- A regular file that is not taken along is left out, or is in a directory that is. -/
theorem included_or_leftOut (h : (path, file) ∈ tree.regular) :
    (path, file) ∈ tree.included ∨ ∃ stem ∈ tree.leftOut, stem <+: path := by
  induction tree generalizing path with
  | nil => cases h
  | file name contents mode rest ih =>
    rw [included, leftOut]
    rcases mem_cons.mp h with heq | h
    · split
      · exact .inr ⟨[name], mem_cons_self, (Prod.mk.inj heq).1 ▸ prefix_rfl⟩
      · exact .inl (heq ▸ mem_cons_self)
    split
    · exact (ih h).imp_right fun ⟨stem, hstem, hbelow⟩ =>
        ⟨stem, mem_cons_of_mem _ hstem, hbelow⟩
    · exact (ih h).imp_left (mem_cons_of_mem _)
  | directory name children rest ihchildren ih =>
    rw [included, leftOut]
    rcases mem_append.mp h with h | h
    · obtain ⟨path, rfl, hpath⟩ := mem_within.mp h
      split
      · exact .inr ⟨[name], mem_cons_self, ⟨path, rfl⟩⟩
      rcases ihchildren hpath with hpath | ⟨stem, hstem, hbelow⟩
      · exact .inl (mem_append_left _ (mem_within.mpr ⟨path, rfl, hpath⟩))
      · exact .inr ⟨name :: stem, mem_append_left _ (mem_map_of_mem hstem),
          (prefix_cons_inj name).mpr hbelow⟩
    split
    · exact (ih h).imp_right fun ⟨stem, hstem, hbelow⟩ =>
        ⟨stem, mem_cons_of_mem _ hstem, hbelow⟩
    · exact (ih h).imp (mem_append_right _) fun ⟨stem, hstem, hbelow⟩ =>
        ⟨stem, mem_append_right _ hstem, hbelow⟩
  | other name rest ih =>
    exact (ih h).imp_right fun ⟨stem, hstem, hbelow⟩ =>
      ⟨stem, mem_cons_of_mem _ hstem, hbelow⟩

theorem nodup_found (htree : tree.Ordered) : (tree.included.map Prod.fst ++ tree.leftOut).Nodup :=
  tree.included_leftOut_perm.nodup_iff.mpr (nodup_visited htree)

/-- A regular file is taken along unless it is left out, or a directory that it is in. -/
theorem mem_included_iff (htree : tree.Ordered) : (path, file) ∈ tree.included ↔
      (path, file) ∈ tree.regular ∧ ¬∃ stem ∈ tree.leftOut, stem <+: path := by
  constructor
  · refine fun h => ⟨regular_of_included h, ?_⟩
    rintro ⟨stem, hstem, hbelow⟩
    have hfound := mem_map_of_mem (f := Prod.fst) h
    have hvisited := fun found hmem => (tree.included_leftOut_perm.mem_iff (a := found)).mp hmem
    obtain rfl := flat_visited htree stem (hvisited _ (mem_append_right _ hstem)) path
      (hvisited _ (mem_append_left _ hfound)) hbelow
    exact (nodup_append'.mp (nodup_found htree)).2.2 hfound hstem
  · rintro ⟨hregular, hnot⟩
    exact (included_or_leftOut hregular).resolve_right hnot

/-! ### Excluded names -/

theorem not_excluded_of_included (h : (path, file) ∈ tree.included) :
    (∀ name ∈ path.dropLast, shouldExclude name true = false) ∧
      ∀ name ∈ path.getLast?, shouldExclude name false = false := by
  induction tree generalizing path with
  | nil => cases h
  | file name contents mode rest ih =>
    rw [included] at h
    split at h
    · exact ih h
    rcases mem_cons.mp h with heq | h
    · obtain ⟨rfl, -⟩ := Prod.mk.inj heq
      simp_all
    · exact ih h
  | directory name children rest ihchildren ih =>
    rw [included] at h
    split at h
    · exact ih h
    rcases mem_append.mp h with h | h
    · obtain ⟨path, rfl, hpath⟩ := mem_within.mp h
      have hne := ne_nil_of_mem (children.regular_subset
        (mem_map_of_mem (f := Prod.fst) (regular_of_included hpath)))
      obtain ⟨hnames, hlast⟩ := ihchildren hpath
      rw [dropLast_cons_of_ne_nil hne, getLast?_cons_of_ne_nil hne]
      refine ⟨fun other hother => ?_, hlast⟩
      rcases mem_cons.mp hother with rfl | hother
      · simp_all
      · exact hnames other hother
    · exact ih h
  | other name rest ih => exact ih h

/-! ### Paths -/

theorem splitOn_joined (hne : path ≠ [])
    (hnames : ∀ name ∈ path, IsName name) : (joined path).splitOn slash = path :=
  splitOn_intercalate slash (fun name hname => (hnames name hname).free.1) hne

theorem joined_inj {path other : List FileName} (hpath : path ≠ [])
    (hpathnames : ∀ name ∈ path, IsName name) (hother : other ≠ [])
    (hothernames : ∀ name ∈ other, IsName name) (h : joined path = joined other) :
    path = other := by
  rw [← splitOn_joined hpath hpathnames, h, splitOn_joined hother hothernames]

theorem isUtf8_of_joined (h : IsUtf8 (joined path)) : ∀ name ∈ path, IsUtf8 name := by
  induction path with
  | nil => intro name hname; cases hname
  | cons first rest ih =>
    cases rest with
    | nil =>
      intro name hname
      obtain rfl := mem_singleton.mp hname
      simpa [joined] using h
    | cons second rest =>
      have hjoined : joined (first :: second :: rest) = first ++ slash :: joined (second :: rest) := by
        simp [joined, intercalate_cons_cons]
      obtain ⟨hfirst, hrest⟩ := h.of_split (by decide)
      intro name hname
      rcases mem_cons.mp hname with rfl | hname
      · exact hfirst
      · exact ih hrest name hname

end Listing

end Diri
