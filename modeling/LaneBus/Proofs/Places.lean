import LaneBus.Launch
import Mathlib.Data.List.Basic
import Mathlib.Data.List.Induction

/-! # Places of the log

A tree is well-formed when everything in it lies in a folder (`FileTree.WellFormed`), as in that
of a machine (`FileTree.standard_wellFormed`).  A process that makes files and folders keeps it
so.  It leaves what was there as it was, whether it is refused or not, and makes nothing in a
folder that is closed (`FileTree.Makes`).  When it is not refused, what it has asked for is there
(`FileTree.makePath_folderAt`, `FileTree.ensureFile_file`).

So whatever a launch comes to, **it leaves the files as they were but for its log**
(`Launch.ofCommandLine_makes`), and a log that was opened is a file of its directory
(`Launch.ofCommandLine_log`).
-/
namespace LaneBus
namespace FileTree

variable {t t' t'' : FileTree} {place : List String} {name : String}

/-! ## Well-formed trees -/

/-- Whether there is a folder at a place. -/
def isFolder (t : FileTree) (place : List String) : Bool :=
  match t.node? place with
  | none => false
  | some .file => false
  | some _ => true

/-- Everything lies in a folder, and relative paths start in one. -/
structure WellFormed (t : FileTree) : Prop where
  placed : ∀ place ∈ t.nodes.keys, t.isFolder place.dropLast = true
  home : t.isFolder t.home = true

theorem isFolder_iff : t.isFolder place = true ↔
    ∃ node, t.node? place = some node ∧ node ≠ .file := by
  unfold isFolder
  split
  · simp_all
  · simp_all
  · rename_i node hfile hnode
    exact ⟨fun _ => ⟨node, hnode, fun heq => hfile heq⟩, fun _ => rfl⟩

/-- A folder with something in it has entries. -/
theorem entryCount_pos {node : FileNode} (h : t.node? (place ++ [name]) = some node) :
    0 < t.entryCount place := by
  rw [node?, if_neg (by simp)] at h
  have hkey : place ++ [name] ∈ t.nodes.keys :=
    List.mem_map_of_mem (Table.mem_entries_iff.mpr h)
  exact List.length_pos_of_mem (List.mem_filter.mpr ⟨hkey, by simp⟩)

/-- What a folder lies in is a folder. -/
theorem WellFormed.around (h : t.WellFormed) (hplace : t.isFolder place = true) :
    t.isFolder place.dropLast = true := by
  by_cases hroot : place = []
  · rw [hroot]
    rfl
  · refine h.placed place ?_
    obtain ⟨node, hnode, -⟩ := isFolder_iff.mp hplace
    rw [node?, if_neg hroot] at hnode
    exact List.mem_map_of_mem (Table.mem_entries_iff.mpr hnode)

/-! ## The tree of a machine -/

theorem node?_insert (t : FileTree) (at_ : List String) (node : FileNode) (hplace : place ≠ []) :
    (t.insert at_ node).node? place = if at_ = place then some node else t.node? place := by
  rw [node?, node?, if_neg hplace, if_neg hplace]
  exact Table.get?_insert ..

theorem node?_insertAll (t : FileTree) (node : FileNode) (places : List (List String))
    (hplace : place ≠ []) : (t.insertAll node places).node? place =
      if place ∈ places then some node else t.node? place := by
  induction places generalizing t with
  | nil => rfl
  | cons other rest ih =>
    change ((t.insert other node).insertAll node rest).node? place = _
    rw [ih, node?_insert _ _ _ hplace]
    by_cases hrest : place ∈ rest
    · simp [hrest]
    · simp [hrest, eq_comm]

theorem mem_keys_insertAll {node : FileNode} {places : List (List String)}
    (h : place ∈ (t.insertAll node places).nodes.keys) : place ∈ places ∨ place ∈ t.nodes.keys := by
  induction places generalizing t with
  | nil => exact .inr h
  | cons other rest ih =>
    rcases ih (t := t.insert other node) h with hrest | hkey
    · exact .inl (List.mem_cons_of_mem _ hrest)
    · rcases Table.mem_map_fst_setEntry.mp hkey with rfl | hkey
      · exact .inl List.mem_cons_self
      · exact .inr hkey

variable {kinds : List (FileNode × List (List String))}

theorem insertKinds_concat (t : FileTree) (kinds : List (FileNode × List (List String)))
    (node : FileNode) (places : List (List String)) :
    t.insertKinds (kinds ++ [(node, places)]) = (t.insertKinds kinds).insertAll node places :=
  List.foldl_concat ..

/-- What is at a place is of the last kind that has the place. -/
theorem isFolder_insertKinds (h : place = [] ∨
    (kinds.findRev? fun kind => place ∈ kind.2).any fun kind => kind.1 ≠ .file) :
    (t.insertKinds kinds).isFolder place = true := by
  by_cases hplace : place = []
  · rw [hplace]
    rfl
  replace h := h.resolve_left hplace
  induction kinds using List.reverseRecOn with
  | nil => cases h
  | append_singleton kinds kind ih =>
    rw [List.findRev?_eq_find?_reverse, List.reverse_concat, List.find?_cons,
      ← List.findRev?_eq_find?_reverse] at h
    rw [insertKinds_concat, isFolder_iff]
    by_cases hlast : place ∈ kind.2
    · refine ⟨kind.1, by rw [node?_insertAll _ _ _ hplace, if_pos hlast], ?_⟩
      simpa [hlast] using h
    · obtain ⟨node, hnode, hfolder⟩ := isFolder_iff.mp (ih (by simpa [hlast] using h))
      exact ⟨node, by rw [node?_insertAll _ _ _ hplace, if_neg hlast, hnode], hfolder⟩

theorem mem_keys_insertKinds (h : place ∈ (t.insertKinds kinds).nodes.keys) :
    place ∈ kinds.flatMap Prod.snd ∨ place ∈ t.nodes.keys := by
  induction kinds using List.reverseRecOn with
  | nil => exact .inr h
  | append_singleton kinds kind ih =>
    rw [insertKinds_concat] at h
    rcases mem_keys_insertAll h with hlast | hkey
    · exact .inl (by simp [hlast])
    · rcases ih hkey with hkinds | hkey
      · exact .inl (by simp only [List.flatMap_append, List.mem_append, hkinds, true_or])
      · exact .inr hkey

/-- The folders of a machine that have something in them. -/
def machineParents : List (List String) := [
  [], ["dev"], ["usr"], ["var"], ["etc"], ["bin"], ["usr", "bin"], ["proc"], ["proc", "1"],
  ["proc", "self"], ["proc", "thread-self"], ["proc", "sys"], ["sys"]]

theorem dropLast_mem_machineParents :
    ∀ place ∈ machinePlaces.flatMap Prod.snd, place.dropLast ∈ machineParents := by
  decide +kernel

theorem isFolder_machineParents : ∀ place ∈ machineParents, place = [] ∨
    (machinePlaces.findRev? fun kind => place ∈ kind.2).any fun kind => kind.1 ≠ .file := by
  decide +kernel

/-- **In the tree of a machine all things have their folders.** -/
theorem standard_wellFormed : standard.WellFormed := by
  refine ⟨fun place hkey => ?_, rfl⟩
  rcases mem_keys_insertKinds hkey with hplace | hnone
  · exact isFolder_insertKinds
      (isFolder_machineParents _ (dropLast_mem_machineParents place hplace))
  · cases hnone

/-! ## Following names -/

/-- Where a name leads from a folder. -/
inductive Leads (t : FileTree) (place : List String) : String → List String → Prop where
  | stays : Leads t place "." place
  | leaves : Leads t place ".." place.dropLast
  | enters (name : String) (hplain : ¬(name = "." ∨ name = ".."))
    (hlength : ¬nameBytes < name.utf8ByteSize) (hfolder : t.isFolder (place ++ [name]) = true) :
    Leads t place name (place ++ [name])

/-- Names are followed one by one. -/
theorem follow_cons_ok {rest last : List String} :
    t.follow place (name :: rest) = .ok last ↔
      ∃ next, t.Leads place name next ∧ t.follow next rest = .ok last := by
  constructor
  · intro h
    rw [follow] at h
    split at h
    · rename_i hstays
      exact ⟨place, hstays ▸ .stays, h⟩
    · rename_i hstays
      split at h
      · rename_i hleaves
        exact ⟨place.dropLast, hleaves ▸ .leaves, h⟩
      · rename_i hleaves
        split at h
        · cases h
        · rename_i hlength
          split at h
          · cases h
          · cases h
          · rename_i node hfile hnode
            exact ⟨place ++ [name], .enters name (not_or.mpr ⟨hstays, hleaves⟩) hlength
              (isFolder_iff.mpr ⟨node, hnode, fun heq => hfile heq⟩), h⟩
  · rintro ⟨next, hleads, h⟩
    rw [follow]
    cases hleads with
    | stays => exact h
    | leaves => exact h
    | enters _ hplain hlength hfolder =>
      obtain ⟨hstays, hleaves⟩ := not_or.mp hplain
      obtain ⟨node, hnode, hfile⟩ := isFolder_iff.mp hfolder
      rw [if_neg hstays, if_neg hleaves, if_neg hlength, hnode]
      cases node with
      | file => exact absurd rfl hfile
      | folder => exact h
      | closed fault => exact h

/-- Names lead on from where the ones before have led. -/
theorem follow_concat {names next last : List String} (h : t.follow place names = .ok next)
    (hleads : t.Leads next name last) : t.follow place (names ++ [name]) = .ok last := by
  induction names generalizing place with
  | nil =>
    cases h
    exact follow_cons_ok.mpr ⟨last, hleads, rfl⟩
  | cons first rest ih =>
    obtain ⟨mid, hfirst, hrest⟩ := follow_cons_ok.mp h
    exact follow_cons_ok.mpr ⟨mid, hfirst, ih hrest⟩

/-- Names lead from a folder to a folder. -/
theorem follow_isFolder (h : t.WellFormed) {names last : List String}
    (hplace : t.isFolder place = true) (hfollow : t.follow place names = .ok last) :
    t.isFolder last = true := by
  induction names generalizing place with
  | nil =>
    cases hfollow
    exact hplace
  | cons name rest ih =>
    obtain ⟨next, hleads, hrest⟩ := follow_cons_ok.mp hfollow
    refine ih ?_ hrest
    cases hleads with
    | stays => exact hplace
    | leaves => exact h.around hplace
    | enters _ _ _ hfolder => exact hfolder

theorem folderAt_isFolder (h : t.WellFormed) {p : Path} (hfollow : t.folderAt p = .ok place) :
    t.isFolder place = true := by
  refine follow_isFolder h ?_ hfollow
  split
  · rfl
  · exact h.home

/-! ## Trees that grow -/

/-- A tree has all that another one has, and nothing more in a folder that is closed. -/
structure Grows (t t' : FileTree) : Prop where
  home : t'.home = t.home
  kept : ∀ place node, t.node? place = some node → t'.node? place = some node
  closed : ∀ place name fault, t.node? place = some (.closed fault) →
    t'.node? (place ++ [name]) = t.node? (place ++ [name])

theorem Grows.refl (t : FileTree) : t.Grows t :=
  ⟨rfl, fun _ _ h => h, fun _ _ _ _ => rfl⟩

theorem Grows.trans (h : t.Grows t') (h' : t'.Grows t'') : t.Grows t'' where
  home := h'.home.trans h.home
  kept place node hnode := h'.kept place node (h.kept place node hnode)
  closed place name fault hclosed :=
    (h'.closed place name fault (h.kept _ _ hclosed)).trans (h.closed place name fault hclosed)

theorem Grows.isFolder (h : t.Grows t') (hplace : t.isFolder place = true) :
    t'.isFolder place = true := by
  obtain ⟨node, hnode, hfolder⟩ := isFolder_iff.mp hplace
  exact isFolder_iff.mpr ⟨node, h.kept place node hnode, hfolder⟩

/-- Names lead where they led before. -/
theorem Grows.follow (h : t.Grows t') {names last : List String}
    (hfollow : t.follow place names = .ok last) : t'.follow place names = .ok last := by
  induction names generalizing place with
  | nil => exact hfollow
  | cons name rest ih =>
    obtain ⟨next, hleads, hrest⟩ := follow_cons_ok.mp hfollow
    refine follow_cons_ok.mpr ⟨next, ?_, ih hrest⟩
    cases hleads with
    | stays => exact .stays
    | leaves => exact .leaves
    | enters _ hplain hlength hfolder => exact .enters _ hplain hlength (h.isFolder hfolder)

theorem Grows.folderAt (h : t.Grows t') {p : Path} (hfollow : t.folderAt p = .ok place) :
    t'.folderAt p = .ok place := by
  unfold FileTree.folderAt at hfollow ⊢
  rw [h.home]
  exact h.follow hfollow

/-- **What a process does to a tree**: it only adds to it, and keeps it well-formed. -/
structure Makes (t t' : FileTree) : Prop where
  grows : t.Grows t'
  wellFormed : t.WellFormed → t'.WellFormed

theorem Makes.refl (t : FileTree) : t.Makes t := ⟨.refl t, fun h => h⟩

theorem Makes.trans (h : t.Makes t') (h' : t'.Makes t'') : t.Makes t'' :=
  ⟨h.grows.trans h'.grows, fun hwell => h'.wellFormed (h.wellFormed hwell)⟩

/-! ## Making one thing -/

theorem node?_insert_concat (t : FileTree) (place : List String) (name : String) (node : FileNode)
    (other : List String) : (t.insert (place ++ [name]) node).node? other =
      if place ++ [name] = other then some node else t.node? other := by
  by_cases hroot : other = []
  · rw [hroot, if_neg (by simp)]
    rfl
  · exact t.node?_insert _ node hroot

/-- Something is made where nothing is, in a folder that is not closed. -/
theorem make_ok {node : FileNode} (h : t.make place name node = .ok t') :
    ¬nameBytes < name.utf8ByteSize ∧ t.node? (place ++ [name]) = none ∧
      (∀ fault, t.node? place ≠ some (.closed fault)) ∧ t' = t.insert (place ++ [name]) node := by
  unfold make at h
  split at h
  · cases h
  · rename_i hlong
    split at h
    · cases h
    · cases h
    · rename_i hnone hopen
      cases h
      exact ⟨hlong, hnone, fun fault hclosed => hopen fault hclosed, rfl⟩

theorem make_grows {node : FileNode} (h : t.make place name node = .ok t') : t.Grows t' := by
  obtain ⟨-, hnone, hopen, rfl⟩ := make_ok h
  refine ⟨rfl, fun other node' hnode => ?_, fun other name' fault hclosed => ?_⟩
  · rw [node?_insert_concat, if_neg, hnode]
    rintro rfl
    rw [hnone] at hnode
    cases hnode
  · rw [node?_insert_concat, if_neg]
    intro heq
    obtain ⟨rfl, -⟩ := List.append_inj' heq rfl
    exact hopen fault hclosed

theorem make_wellFormed {node : FileNode} (h : t.make place name node = .ok t')
    (hplace : t.isFolder place = true) (hwell : t.WellFormed) : t'.WellFormed := by
  have hgrows := make_grows h
  obtain ⟨-, -, -, rfl⟩ := make_ok h
  refine ⟨fun other hmem => ?_, hgrows.isFolder hwell.home⟩
  rcases Table.mem_map_fst_setEntry.mp hmem with rfl | hmem
  · rw [List.dropLast_concat]
    exact hgrows.isFolder hplace
  · exact hgrows.isFolder (hwell.placed other hmem)

/-! ## Making folders -/

theorem makeFolder_ok {p : Path} (h : t.makeFolder p = .ok t') :
    ∃ place name, t.folderAt { p with names := p.names.dropLast } = .ok place ∧
      p.names.getLast? = some name ∧ ¬(name = "." ∨ name = "..") ∧
      t.make place name .folder = .ok t' := by
  unfold makeFolder at h
  split at h
  · cases h
  · rename_i place hplace
    split at h
    · cases h
    · rename_i name hname
      split at h
      · cases h
      · rename_i hplain
        exact ⟨place, name, hplace, hname, hplain, h⟩

theorem makeFolder_makes {p : Path} (h : t.makeFolder p = .ok t') : t.Makes t' := by
  obtain ⟨place, name, hplace, -, -, hmake⟩ := makeFolder_ok h
  exact ⟨make_grows hmake, fun hwell =>
    make_wellFormed hmake (folderAt_isFolder hwell hplace) hwell⟩

/-- A folder that was made is there. -/
theorem makeFolder_folderAt {p : Path} (h : t.makeFolder p = .ok t') :
    ∃ place, t'.folderAt p = .ok place := by
  obtain ⟨place, name, hplace, hname, hplain, hmake⟩ := makeFolder_ok h
  have hnames : p.names.dropLast ++ [name] = p.names := List.dropLast_append_getLast? name hname
  have haround := (make_grows hmake).folderAt hplace
  obtain ⟨hlength, -, -, rfl⟩ := make_ok hmake
  refine ⟨place ++ [name], ?_⟩
  unfold folderAt at haround ⊢
  rw [← hnames]
  refine follow_concat haround (.enters name hplain hlength ?_)
  exact isFolder_iff.mpr ⟨.folder, by rw [node?_insert_concat, if_pos rfl], by decide⟩

theorem ensureFolder_makes (t : FileTree) (p : Path) : t.Makes (t.ensureFolder p).2 := by
  unfold ensureFolder
  split
  · rename_i t' hmake
    exact makeFolder_makes hmake
  · split
    · exact .refl t
    · exact .refl t

theorem ensureFolder_folderAt {p : Path} (h : (t.ensureFolder p).1 = .ok ()) :
    ∃ place, (t.ensureFolder p).2.folderAt p = .ok place := by
  unfold ensureFolder at h ⊢
  split
  · rename_i t' hmake
    exact makeFolder_folderAt hmake
  · rename_i fault hmake
    rw [hmake] at h
    dsimp only at h
    split
    · rename_i place hplace
      exact ⟨place, hplace⟩
    · rename_i fault' hplace
      rw [hplace] at h
      cases h

/-- Folders are made from the outermost on, until one cannot be made. -/
theorem ensureFolders_makes (t : FileTree) (folders : List Path) :
    t.Makes (t.ensureFolders folders).2 := by
  induction folders with
  | nil => exact .refl t
  | cons p around ih =>
    unfold ensureFolders
    split
    · rename_i t' hmake
      exact makeFolder_makes hmake
    · split
      · rename_i fault t' haround
        rw [haround] at ih
        exact ih
      · rename_i t' haround
        rw [haround] at ih
        exact ih.trans (t'.ensureFolder_makes p)
    · exact t.ensureFolder_makes p

theorem ensureFolders_folderAt {p : Path} {around : List Path}
    (h : (t.ensureFolders (p :: around)).1 = .ok ()) :
    ∃ place, (t.ensureFolders (p :: around)).2.folderAt p = .ok place := by
  unfold ensureFolders at h ⊢
  split at h
  · rename_i t' hmake
    exact makeFolder_folderAt hmake
  · split at h
    · cases h
    · exact ensureFolder_folderAt h
  · exact ensureFolder_folderAt h

theorem makePath_makes (t : FileTree) (path : String) : t.Makes (t.makePath path).2 := by
  unfold makePath
  split
  · exact .refl t
  · split
    · exact .refl t
    · exact t.ensureFolders_makes _

/-- **A path that was made is there.** -/
theorem makePath_folderAt {path : String} (h : (t.makePath path).1 = .ok ()) :
    ∃ place, (t.makePath path).2.folderAt (.ofString path) = .ok place := by
  unfold makePath at h ⊢
  split at h
  · cases h
  · rename_i hnul
    split at h
    · cases h
    · rename_i hlong
      rw [if_neg hnul, if_neg hlong]
      exact ensureFolders_folderAt h

/-! ## Making files -/

theorem ensureFile_ok {path : String} (h : t.ensureFile path name = .ok t') :
    ∃ place, t.folderAt (.ofString path) = .ok place ∧
      ((t.node? (place ++ [name]) = some .file ∧ t' = t) ∨
        t.make place name .file = .ok t') := by
  unfold ensureFile at h
  dsimp only at h
  generalize (if path.toList.getLast? = some '/' then path ++ name
    else path ++ "/" ++ name) = whole at h
  split at h
  · cases h
  · split at h
    · cases h
    · rename_i place hplace
      split at h
      · rename_i hfile
        cases h
        exact ⟨place, hplace, .inl ⟨hfile, rfl⟩⟩
      · exact ⟨place, hplace, .inr h⟩

theorem ensureFile_makes {path : String} (h : t.ensureFile path name = .ok t') : t.Makes t' := by
  obtain ⟨place, hplace, ⟨-, rfl⟩ | hmake⟩ := ensureFile_ok h
  · exact .refl t'
  · exact ⟨make_grows hmake, fun hwell =>
      make_wellFormed hmake (folderAt_isFolder hwell hplace) hwell⟩

/-- **A file that was made is in its folder.** -/
theorem ensureFile_file {path : String} (h : t.ensureFile path name = .ok t') :
    ∃ place, t'.folderAt (.ofString path) = .ok place ∧
      t'.node? (place ++ [name]) = some .file := by
  obtain ⟨place, hplace, ⟨hfile, rfl⟩ | hmake⟩ := ensureFile_ok h
  · exact ⟨place, hplace, hfile⟩
  · refine ⟨place, (make_grows hmake).folderAt hplace, ?_⟩
    obtain ⟨-, -, -, rfl⟩ := make_ok hmake
    rw [node?_insert_concat, if_pos rfl]

end FileTree

/-! ## The log of a launch -/

namespace Setup

variable {x : Setup} {s : Surroundings}

theorem openLog_makes (x : Setup) (s : Surroundings) : s.files.Makes (x.openLog s).2 := by
  unfold openLog
  split
  · exact .refl _
  · rename_i directory _
    have hpath := s.files.makePath_makes directory
    split
    · rename_i fault files hmade
      rw [hmade] at hpath
      exact hpath
    · rename_i files hmade
      rw [hmade] at hpath
      split
      · exact hpath
      · rename_i files' hfile
        exact hpath.trans (FileTree.ensureFile_makes hfile)

/-- A log that was opened is a file of its directory. -/
theorem openLog_file {steps : List LaunchStep} {directory : String}
    (h : (x.openLog s).1 = .ok steps) (hopened : .openedLog directory ∈ steps) :
    ∃ place, (x.openLog s).2.folderAt (.ofString directory) = .ok place ∧
      (x.openLog s).2.node? (place ++ [logFileName ++ "." ++ s.date]) = some .file := by
  unfold openLog at h ⊢
  split at h
  · cases h
    cases hopened
  · split at h
    · cases h
    · split at h
      · cases h
      · rename_i files hfile
        cases h
        cases List.mem_singleton.mp hopened
        exact FileTree.ensureFile_file hfile

/-- Only opening a log says that one was opened. -/
theorem openedLog_not_mem_makePlugin (x : Setup) (s : Surroundings) (directory : String) :
    .openedLog directory ∉ (x.makePlugin s).2 := by
  unfold makePlugin
  split
  · simp
  · dsimp only
    split <;> simp

end Setup

namespace Launch

variable {registry : Registry} {s : Surroundings} {argv : List String} {buses : Buses}

/-- Once its log is open or refused, a launch makes no more files. -/
theorem start_files (x : Setup) (s : Surroundings) (buses : Buses) :
    (start x s buses).files = (x.openLog s).2 := by
  unfold start
  split
  · rename_i hlog
    rw [hlog]
  · rename_i hlog
    rw [hlog]
    split <;> rfl

/-- A launch says that a log was opened when it has opened one. -/
theorem openedLog_of_start {x : Setup} {directory : String}
    (h : .openedLog directory ∈ (start x s buses).steps) :
    ∃ steps, (x.openLog s).1 = .ok steps ∧ .openedLog directory ∈ steps := by
  have hplugin := x.openedLog_not_mem_makePlugin s directory
  unfold start at h
  split at h
  · cases h
  · rename_i opened files hlog
    refine ⟨opened, by rw [hlog], ?_⟩
    split at h
    · rename_i e steps hmade
      rw [hmade] at hplugin
      exact (List.mem_append.mp h).resolve_right hplugin
    · rename_i plugin steps hmade
      rw [hmade] at hplugin
      simpa [hplugin] using h

/-- **A launch leaves the files as they were but for its log**, whatever it comes to. -/
theorem ofCommandLine_makes (registry : Registry) (s : Surroundings) (argv : List String)
    (buses : Buses) : s.files.Makes (ofCommandLine registry s argv buses).files := by
  unfold ofCommandLine
  split
  · exact .refl _
  · exact .refl _
  · exact .refl _
  · rename_i x _
    rw [start_files]
    exact x.openLog_makes s

/-- **A log that was opened is a file of its directory**, which is empty no more. -/
theorem ofCommandLine_log {directory : String}
    (h : .openedLog directory ∈ (ofCommandLine registry s argv buses).steps) :
    ∃ place,
      (ofCommandLine registry s argv buses).files.folderAt (.ofString directory) = .ok place ∧
      (ofCommandLine registry s argv buses).files.node?
        (place ++ [Setup.logFileName ++ "." ++ s.date]) = some .file ∧
      0 < (ofCommandLine registry s argv buses).files.entryCount place := by
  unfold ofCommandLine at h ⊢
  split at h
  · cases h
  · cases h
  · cases h
  · rename_i x _
    obtain ⟨steps, hlog, hopened⟩ := openedLog_of_start h
    rw [start_files]
    obtain ⟨place, hplace, hfile⟩ := Setup.openLog_file hlog hopened
    exact ⟨place, hplace, hfile, FileTree.entryCount_pos hfile⟩

end Launch
end LaneBus
