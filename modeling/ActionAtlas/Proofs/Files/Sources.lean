import ActionAtlas.Files.Sources
import ActionAtlas.Proofs.Files.Paths
import ActionAtlas.Proofs.StableSort
import ActionAtlas.Proofs.Text.Lossy

/-!
Which sources stand below a root, under which names and in which order. Folders are left out by
their own names alone and files by theirs, wherever the root itself lies.

What is read of a path need not tell the path: of names that are not in UTF-8, several may read the
same. Such sources keep the order in which the walk has come to them.
-/

namespace ActionAtlas

open ActionAtlas.Path (slash)

/-! ### Nodes -/

theorem mem_iff_lookup_eq_some {entries : List (Location × Node)} {location : Location}
    {node : Node} (distinct : (entries.map Prod.fst).Nodup) :
    (location, node) ∈ entries ↔ entries.lookup location = some node := by
  induction entries with
  | nil => exact iff_of_false List.not_mem_nil fun found => by cases found
  | cons entry others ih =>
      obtain ⟨key, value⟩ := entry
      rw [List.map_cons, List.nodup_cons] at distinct
      rw [List.mem_cons, List.lookup_cons]
      by_cases same : location = key
      · subst same
        have absent : (location, node) ∉ others := fun inside =>
          distinct.1 (List.mem_map.mpr ⟨_, inside, rfl⟩)
        simp [absent, eq_comm]
      · have other : (location == key) = false := beq_eq_false_iff_ne.mpr same
        rw [other, ih distinct.2]
        simp [same]

namespace FileTree

variable {tree : FileTree} {here location : Location} {node : Node}

theorem mem_nodes_iff (below : location ≠ []) :
    (location, node) ∈ tree.nodes ↔ tree.node? location = some node := by
  obtain ⟨name, others, rfl⟩ := List.exists_cons_of_ne_nil below
  exact mem_iff_lookup_eq_some tree.distinct

theorem mem_filesBelow : location ∈ tree.filesBelow here ↔
    ∃ content, (here ++ location, Node.file content) ∈ tree.nodes := by
  rw [filesBelow, List.mem_filterMap]
  constructor
  · rintro ⟨⟨whole, node⟩, inside, given⟩
    cases node with
    | file content =>
        refine ⟨content, ?_⟩
        rwa [← Text.dropInitial?_eq_some_iff.mp given]
    | folder => cases given
    | other => cases given
  · rintro ⟨content, inside⟩
    exact ⟨_, inside, Text.dropInitial?_append here location⟩

theorem nodup_filesBelow : (tree.filesBelow here).Nodup := by
  have nodes : tree.nodes.Pairwise fun one other => one.1 ≠ other.1 :=
    List.pairwise_map.mp tree.distinct
  rw [filesBelow]
  refine nodes.filterMap _ ?_
  rintro ⟨whole, node⟩ ⟨otherWhole, otherNode⟩ differ one isOne other isOther same
  subst same
  cases node with
  | folder => cases isOne
  | other => cases isOne
  | file content =>
      cases otherNode with
      | folder => cases isOther
      | other => cases isOther
      | file otherContent =>
          refine differ ?_
          rw [Text.dropInitial?_eq_some_iff.mp isOne, Text.dropInitial?_eq_some_iff.mp isOther]

/-! ### Reach -/

theorem not_isPruned_iff {name : FileName} {isFolder : Bool} :
    isPruned name isFolder = false ↔
      name.bytes ≠ Text.bytes ".git" ∧
        (isFolder = true →
          name.bytes ≠ Text.bytes "bin" ∧ name.bytes ≠ Text.bytes "obj") := by
  cases isFolder <;> simp [isPruned, FileName.isCalled]

theorem isReached_iff {here : Location} : isReached none here location = true ↔
    (∀ name ∈ location, name.bytes ≠ Text.bytes ".git") ∧
      ∀ folder ∈ location.dropLast,
        folder.bytes ≠ Text.bytes "bin" ∧ folder.bytes ≠ Text.bytes "obj" := by
  induction location generalizing here with
  | nil => simp [isReached]
  | cons name others ih =>
      rw [isReached, Bool.and_eq_true, ih, Bool.not_eq_true', isLeftOut, Option.any_none,
        Bool.or_false, not_isPruned_iff, List.forall_mem_cons]
      cases others with
      | nil => simp
      | cons next more =>
          rw [List.dropLast_cons_cons]
          simp only [List.isEmpty_cons, Bool.not_false, true_imp_iff]
          constructor
          · rintro ⟨⟨own, folder⟩, names, folders⟩
            exact ⟨⟨own, names⟩, List.forall_mem_cons.mpr ⟨folder, folders⟩⟩
          · rintro ⟨⟨own, names⟩, all⟩
            obtain ⟨folder, folders⟩ := List.forall_mem_cons.mp all
            exact ⟨⟨own, folder⟩, names, folders⟩

/-- Ignore files take away and add nothing. -/
theorem isReached_of_isReached {rules? : Option IgnoreRules} {here : Location}
    (reached : isReached rules? here location = true) : isReached none here location = true := by
  induction location generalizing here with
  | nil => rfl
  | cons name others ih =>
      rw [isReached, Bool.and_eq_true, Bool.not_eq_true', isLeftOut,
        Bool.or_eq_false_iff] at reached
      obtain ⟨⟨notPruned, -⟩, behind⟩ := reached
      rw [isReached, ih behind, isLeftOut, notPruned]
      rfl

/-! ### Sources -/

/-- A file below a place that is a source: its name ends in `.cs` behind something else, and
neither version control nor build output is on the way. -/
structure IsSourceBelow (tree : FileTree) (here location : Location) : Prop where
  isFile : ∃ content, tree.node? (here ++ location) = some (.file content)
  isCSharp : ∃ name ∈ location.getLast?, ∃ stem, stem ≠ [] ∧ name.bytes = stem ++ Text.bytes ".cs"
  outsideVersionControl : ∀ name ∈ location, name.bytes ≠ Text.bytes ".git"
  outsideBuildOutput :
    ∀ folder ∈ location.dropLast,
      folder.bytes ≠ Text.bytes "bin" ∧ folder.bytes ≠ Text.bytes "obj"

theorem isSource_iff (below : location ≠ []) : isSource here location = true ↔
    ∃ name ∈ location.getLast?, ∃ stem, stem ≠ [] ∧ name.bytes = stem ++ Text.bytes ".cs" := by
  have extension (name : FileName) : name.extension? = some (Text.bytes "cs") ↔
      ∃ stem, stem ≠ [] ∧ name.bytes = stem ++ Text.bytes ".cs" := by
    rw [FileName.extension?_eq_some_iff, and_iff_right (by decide)]
    rfl
  have last : (here ++ location).getLast? = location.getLast? := by
    rw [List.getLast?_append, List.getLast?_eq_some_getLast below, Option.some_or]
  rw [isSource, last, beq_iff_eq, Option.bind_eq_some_iff]
  simp only [extension, Option.mem_def]

theorem location_ne_nil_of_isFolder (isFolder : tree.node? here = some .folder)
    (isSource : isSource here location = true)
    (inside : location ∈ tree.filesBelow here) : location ≠ [] := by
  rintro rfl
  obtain ⟨content, inside⟩ := mem_filesBelow.mp inside
  rw [List.append_nil] at inside
  by_cases top : here = []
  · rw [FileTree.isSource, top] at isSource
    cases isSource
  · rw [(mem_nodes_iff top).mp inside] at isFolder
    cases isFolder

theorem IsSourceBelow.location_ne_nil (isBelow : tree.IsSourceBelow here location) :
    location ≠ [] := by
  obtain ⟨name, last, -⟩ := isBelow.isCSharp
  rintro rfl
  cases last

theorem mem_sourcesBelow_iff (isFolder : tree.node? here = some .folder) :
    location ∈ tree.sourcesBelow false here ↔ tree.IsSourceBelow here location := by
  have unheeded : location ∈ tree.sourcesBelow false here ↔
      location ∈ tree.filesBelow here ∧
        isSource here location = true ∧ isReached none here location = true := by
    rw [sourcesBelow, List.mem_filter, Bool.and_eq_true]
    rfl
  rw [unheeded, isReached_iff]
  constructor
  · rintro ⟨inside, isSource, outsideVersionControl, outsideBuildOutput⟩
    have below := location_ne_nil_of_isFolder isFolder isSource inside
    have notTop : here ++ location ≠ [] := List.append_ne_nil_of_right_ne_nil here below
    obtain ⟨content, inside⟩ := mem_filesBelow.mp inside
    exact ⟨⟨content, (mem_nodes_iff notTop).mp inside⟩, (isSource_iff below).mp isSource,
      outsideVersionControl, outsideBuildOutput⟩
  · intro isBelow
    have below := isBelow.location_ne_nil
    have notTop : here ++ location ≠ [] := List.append_ne_nil_of_right_ne_nil here below
    obtain ⟨content, isFile⟩ := isBelow.isFile
    exact ⟨mem_filesBelow.mpr ⟨content, (mem_nodes_iff notTop).mpr isFile⟩,
      (isSource_iff below).mpr isBelow.isCSharp,
      isBelow.outsideVersionControl, isBelow.outsideBuildOutput⟩

theorem sourcesBelow_eq_filter (heeding : Bool) : ∃ keep : Location → Bool,
    tree.sourcesBelow heeding here = (tree.sourcesBelow false here).filter keep := by
  let rules? := if heeding then some (IgnoreRules.ofTree tree) else none
  refine ⟨isReached rules? here, ?_⟩
  rw [sourcesBelow, sourcesBelow, List.filter_filter]
  refine List.filter_congr fun location _ => ?_
  change (isSource here location && isReached rules? here location) =
    (isReached rules? here location && (isSource here location && isReached none here location))
  cases reached : isReached rules? here location with
  | false => rw [Bool.and_false, Bool.false_and]
  | true => rw [isReached_of_isReached reached, Bool.true_and]

/-! ### Order -/

def isInOrder (one other : Location) : Bool :=
  decide (one.render ≤ other.render)

/-- The sources below a place in the order in which a scan tells them. -/
def listed (tree : FileTree) (heeding : Bool) (here : Location) : List Location :=
  (tree.sourcesBelow heeding here).mergeSort isInOrder

theorem isInOrder_trans (one other next : Location) (first : isInOrder one other = true)
    (second : isInOrder other next = true) : isInOrder one next = true :=
  decide_eq_true (String.le_trans (of_decide_eq_true first) (of_decide_eq_true second))

theorem isInOrder_total (one other : Location) :
    (isInOrder one other || isInOrder other one) = true := by
  rw [Bool.or_eq_true, isInOrder, isInOrder, decide_eq_true_iff, decide_eq_true_iff]
  exact String.le_total one.render other.render

theorem mem_listed_iff (isFolder : tree.node? here = some .folder) :
    location ∈ tree.listed false here ↔ tree.IsSourceBelow here location := by
  rw [listed, List.mem_mergeSort, mem_sourcesBelow_iff isFolder]

theorem nodup_listed (heeding : Bool) : (tree.listed heeding here).Nodup := by
  rw [listed, (List.mergeSort_perm _ _).nodup_iff]
  exact nodup_filesBelow.filter _

theorem listed_sublist (heeding : Bool) :
    (tree.listed heeding here).Sublist (tree.listed false here) := by
  obtain ⟨keep, kept⟩ := @sourcesBelow_eq_filter tree here heeding
  rw [listed, listed, kept, ← filter_mergeSort isInOrder_trans isInOrder_total]
  exact List.filter_sublist

/-- Names ascend, and strictly where they tell the locations, which are never the same. -/
theorem pairwise_listed (isFolder : tree.node? here = some .folder) :
    (tree.listed false here).Pairwise fun one other =>
      Text.bytes one.render ≤ Text.bytes other.render ∧
        (one.IsText → other.IsText → Text.bytes one.render < Text.bytes other.render) := by
  have sorted : (tree.listed false here).Pairwise fun one other =>
      isInOrder one other = true ∧ one ≠ other :=
    (List.pairwise_mergeSort isInOrder_trans isInOrder_total _).and (nodup_listed false)
  refine sorted.imp_of_mem ?_
  rintro one other isOne isOther ⟨inOrder, differ⟩
  have ascends : one.render ≤ other.render := of_decide_eq_true inOrder
  have below := ((mem_listed_iff isFolder).mp isOne).location_ne_nil
  have otherBelow := ((mem_listed_iff isFolder).mp isOther).location_ne_nil
  refine ⟨Text.bytes_le_bytes ascends, fun isText otherIsText => ?_⟩
  have names : one.render ≠ other.render := fun same =>
    differ (Location.render_inj below isText otherBelow otherIsText same)
  exact Text.bytes_lt_bytes (Std.lt_of_le_of_ne ascends names)

end FileTree

/-! ### Scans -/

/-- The file at a location below a root. It is named by what is read of its path as seen from the
root, and opened by the path that has come from there. -/
def SourceFile.below (root : List UInt8) (location : Location) : SourceFile :=
  ⟨location.render, location.path root⟩

namespace FileTree

variable {tree : FileTree} {here : Location} {root : List UInt8}

theorem scan_eq (leads : tree.locate? root = some here)
    (entered : Path.components root ≠ [.name (Text.bytes "-")]) (heeding : Bool) :
    tree.scan heeding root = .ok ((tree.listed heeding here).map (SourceFile.below root)) := by
  have ofPath : (fun location : Location => SourceFile.ofPath root (location.path root)) =
      fun location => pure (SourceFile.below root location) := by
    funext location
    rw [SourceFile.ofPath, Location.below_path]
    rfl
  have sorted : (tree.listed heeding here).map (SourceFile.below root) =
      ((tree.sourcesBelow heeding here).map (SourceFile.below root)).mergeSort
        fun one other => decide (one.path ≤ other.path) :=
    List.map_mergeSort fun one _ other _ => rfl
  rw [scan, entry?, if_neg entered, leads, ofPath, sorted]
  simp only [Option.map_some, Option.getD_some, List.mapM_pure]
  rfl

/-- Whatever path it is written as, the standard input is not taken for a folder. -/
theorem scan_standardInput (named : Path.components root = [.name (Text.bytes "-")])
    (heeding : Bool) : tree.scan heeding root = .ok [] := by
  rw [scan, entry?, if_pos named]
  simp only [Option.map_none, Option.getD_none, List.mapM_nil]
  change Except.ok (List.mergeSort [] _) = _
  rw [List.mergeSort_nil]

/-- A scan of a folder finds the files below it that are sources, each of them once. They are named
by the names that lead to them, as these are read, and ascend by that. Names in UTF-8 are read as
they are, and then no two sources are named alike. With ignore files heeded some sources are left
out, and nothing else changes. -/
theorem scan_exact (leads : tree.locate? root = some here)
    (isFolder : tree.node? here = some .folder)
    (entered : Path.components root ≠ [.name (Text.bytes "-")]) :
    ∃ locations kept : List Location,
      tree.scan false root = .ok (locations.map (SourceFile.below root)) ∧
      tree.scan true root = .ok (kept.map (SourceFile.below root)) ∧
      kept.Sublist locations ∧
      locations.Nodup ∧
      (∀ location, location ∈ locations ↔ tree.IsSourceBelow here location) ∧
      (locations.Pairwise fun one other =>
        Text.bytes one.render ≤ Text.bytes other.render ∧
          (one.IsText → other.IsText → Text.bytes one.render < Text.bytes other.render)) ∧
      ∀ location ∈ locations,
        location.render = "/".intercalate (location.map FileName.text) ∧
          (∀ name ∈ location, Text.IsLossyReading name.bytes name.text.toList) ∧
          (location.IsText →
            Text.bytes location.render = [slash].intercalate (location.map FileName.bytes)) := by
  refine ⟨tree.listed false here, tree.listed true here, scan_eq leads entered false,
    scan_eq leads entered true, listed_sublist true, nodup_listed false,
    fun location => mem_listed_iff isFolder, pairwise_listed isFolder, fun location inside => ?_⟩
  have below := ((mem_listed_iff isFolder).mp inside).location_ne_nil
  exact ⟨Location.render_of_ne_nil below, fun name _ => Text.lossy_eq_iff.mp rfl,
    Location.bytes_render below⟩

/-! A root by the name of build output, above a file called `bin`, a folder called `x.cs`, a hidden
file, a file that is all extension, a pipe, and build output. -/

def outputRoot : FileName := ⟨Text.bytes "obj", by decide⟩
def output : FileName := ⟨Text.bytes "bin", by decide⟩
def folderLikeSource : FileName := ⟨Text.bytes "x.cs", by decide⟩
def hiddenSource : FileName := ⟨Text.bytes ".b.cs", by decide⟩
def extensionAlone : FileName := ⟨Text.bytes ".cs", by decide⟩

def oddTree : FileTree :=
  ⟨[([outputRoot], .folder), ([outputRoot, folderLikeSource], .folder),
      ([outputRoot, folderLikeSource, hiddenSource], .file (Text.bytes "class B {}")),
      ([outputRoot, folderLikeSource, output], .file []),
      ([outputRoot, extensionAlone], .file []), ([outputRoot, hiddenSource], .other),
      ([outputRoot, output], .folder), ([outputRoot, output, hiddenSource], .file [])],
    by decide⟩

theorem isSourceBelow_oddTree {location : Location} :
    oddTree.IsSourceBelow [outputRoot] location ↔ location = [folderLikeSource, hiddenSource] := by
  constructor
  · intro isBelow
    obtain ⟨content, isFile⟩ := isBelow.isFile
    have inside := (mem_nodes_iff (List.cons_ne_nil _ _)).mpr isFile
    have isSource := (@isSource_iff [outputRoot] _ isBelow.location_ne_nil).mpr isBelow.isCSharp
    simp only [oddTree, List.append_eq, List.nil_append, List.mem_cons, Prod.mk.injEq,
      List.cons.injEq, true_and, reduceCtorEq, and_false, Node.file.injEq, List.not_mem_nil,
      or_false, false_or] at inside
    rcases inside with ⟨rfl, rfl⟩ | ⟨rfl, rfl⟩ | ⟨rfl, rfl⟩ | ⟨rfl, rfl⟩
    · rfl
    · revert isSource
      decide
    · revert isSource
      decide
    · exact absurd rfl (isBelow.outsideBuildOutput output List.mem_cons_self).1
  · rintro rfl
    exact ⟨⟨_, rfl⟩, ⟨hiddenSource, rfl, Text.bytes ".b", by decide, by decide⟩, by decide,
      by decide⟩

theorem scan_exact_oddTree :
    oddTree.locate? (Text.bytes "./obj/") = some [outputRoot] ∧
      oddTree.node? [outputRoot] = some .folder ∧
      Path.components (Text.bytes "./obj/") ≠ [.name (Text.bytes "-")] ∧
      oddTree.scan false (Text.bytes "./obj/") =
        .ok [⟨"x.cs/.b.cs", Text.bytes "./obj/x.cs/.b.cs"⟩] := by
  have leads : oddTree.locate? (Text.bytes "./obj/") = some [outputRoot] := by decide
  have isFolder : oddTree.node? [outputRoot] = some .folder := by decide
  have entered : Path.components (Text.bytes "./obj/") ≠ [.name (Text.bytes "-")] := by decide
  obtain ⟨locations, -, found, -, -, distinct, inside, -, -⟩ :=
    scan_exact leads isFolder entered
  have single : locations = [[folderLikeSource, hiddenSource]] := by
    refine List.perm_singleton.mp ?_
    rw [List.perm_ext_iff_of_nodup distinct (by simp)]
    intro location
    rw [inside, isSourceBelow_oddTree, List.mem_singleton]
  refine ⟨leads, isFolder, entered, ?_⟩
  rw [found, single]
  decide

/-! Two files with names that are not in UTF-8 and read alike, and a folder that is called as the
standard input is. -/

def stray : FileName := ⟨[0x61, 0xFE, 0x2E, 0x63, 0x73], by decide⟩
def otherStray : FileName := ⟨[0x61, 0xFF, 0x2E, 0x63, 0x73], by decide⟩
def hyphen : FileName := ⟨Text.bytes "-", by decide⟩

def strayTree : FileTree :=
  ⟨[([hyphen], .folder), ([hyphen, folderLikeSource], .file []), ([stray], .file []),
      ([otherStray], .file [])],
    by decide⟩

/-- Names that are read alike do not ascend strictly and are not the paths they stand for, and a
folder that is called as the standard input is has sources that a scan does not find. -/
theorem scan_strayTree :
    (∃ files, strayTree.scan false (Text.bytes ".") = .ok files ∧
      (¬files.Pairwise fun one other => Text.bytes one.path < Text.bytes other.path) ∧
      ∃ file ∈ files, file.fullPath = Text.bytes "./" ++ stray.bytes ∧
        Text.bytes file.path ≠ stray.bytes) ∧
      strayTree.locate? (Text.bytes "-") = some [hyphen] ∧
      strayTree.node? [hyphen] = some .folder ∧
      strayTree.IsSourceBelow [hyphen] [folderLikeSource] ∧
      strayTree.scan false (Text.bytes "-") = .ok [] := by
  have listed : strayTree.listed false [] = [[hyphen, folderLikeSource], [stray], [otherStray]] := by
    have inOrder : [[hyphen, folderLikeSource], [stray], [otherStray]].Pairwise fun one other =>
        isInOrder one other = true := by decide
    exact List.mergeSort_of_pairwise inOrder
  have scanned := @scan_eq strayTree [] (Text.bytes ".") (by decide) (by decide) false
  rw [listed] at scanned
  refine ⟨⟨_, scanned, by decide, ?_⟩, by decide, by decide, ?_, scan_standardInput (by decide) false⟩
  · exact ⟨_, List.mem_cons_of_mem _ List.mem_cons_self, by decide, by decide⟩
  · exact ⟨⟨_, rfl⟩, ⟨folderLikeSource, rfl, Text.bytes "x", by decide, by decide⟩, by decide,
      by decide⟩

end FileTree

end ActionAtlas
