import DocGraph.Proofs.Java.Naming
import DocGraph.Proofs.Project.Recorded

/-!
# What a scan collects

A scan gives the entries of the readable source files below a folder, unless their listing is
refused. Among them, the tags of one kind on types come in the order of the files, of
the declarations in each and of the tags in the comment of each.
-/

namespace DocGraph

open Java

/-- The tags in the comment of a declaration. -/
def visitTags (tagPrefix : Text) (visit : Visit) : List Tag :=
  (visit.javadoc?.map (readTags tagPrefix)).getD []

/-- The tags of one kind in the comment of a declaration. -/
def visitTagsOf (tagPrefix : Text) (type : TagType) (visit : Visit) : List Tag :=
  (visitTags tagPrefix visit).filter (·.type == type)

/-- The entry of a tag on a type declaration. -/
def typeEntry (root : Tree) (file : Text) (visit : Visit) (tag : Tag) : Entry :=
  .ofTag (typeLocation root.declaredPackage visit) file visit.node.line .architectural tag

/-- The entries of one kind of tag on the types of a source. -/
def typeEntries (tagPrefix : Text) (type : TagType) (file : Text) (root : Tree) : List Entry :=
  root.typeVisits.flatMap fun visit =>
    (visitTagsOf tagPrefix type visit).map (typeEntry root file visit)

variable [SourceReader]

/-- The entries of a scan whose listing is not refused. -/
def scannedEntries (disk : Disk) (folder : Path) (tagPrefix : Text) (patterns : List Text)
    (base : Option Path) : List Entry :=
  typesFirst ((sourcesBelow disk folder patterns).map fun source =>
    sourceEntries tagPrefix (displayName disk base source.path) source.tree.root).flatten

variable {disk : Disk} {folder : Path} {base : Option Path} {patterns : List Text}
variable {tagPrefix file : Text} {type : TagType} {entries : List Entry} {entry : Entry}

theorem outcome_scan :
    (scan disk folder tagPrefix (patterns.map .pattern) base).outcome =
      match sourceRefusal? disk folder with
      | some error => .error (.file error)
      | none => .ok (scannedEntries disk folder tagPrefix patterns base) := by
  simp only [scan, Run.bind_eq, Run.pure_eq, Run.outcome_andThen, outcome_visitSources]
  cases sourceRefusal? disk folder <;> rfl

theorem outcome_scan_ok (h : sourceRefusal? disk folder = none) :
    (scan disk folder tagPrefix (patterns.map .pattern) base).outcome =
      .ok (scannedEntries disk folder tagPrefix patterns base) := by
  rw [outcome_scan, h]

/-- The listing of a scan that gives entries was not refused. -/
theorem of_outcome_scan
    (h : (scan disk folder tagPrefix (patterns.map .pattern) base).outcome = .ok entries) :
    sourceRefusal? disk folder = none ∧
      entries = scannedEntries disk folder tagPrefix patterns base := by
  rw [outcome_scan] at h
  cases hrefusal : sourceRefusal? disk folder with
  | some error =>
    rw [hrefusal] at h
    cases h
  | none =>
    rw [hrefusal] at h
    cases h
    exact ⟨rfl, rfl⟩

/-! ## Tags of one kind on types -/

omit [SourceReader] in
theorem visitEntries_eq (level : Level) (location : Text) (visit : Visit) :
    visitEntries tagPrefix file level location visit =
      (visitTags tagPrefix visit).map (Entry.ofTag location file visit.node.line level) := by
  rw [visitEntries, visitTags]
  cases visit.javadoc? <;> rfl

omit [SourceReader] in
theorem name_beq_name (a b : TagType) : (a.name == b.name) = (a == b) := by
  cases a <;> cases b <;> decide

omit [SourceReader] in
theorem tagsClass_ofTag (location : Text) (line : Int) (tag : Tag) :
    (Entry.ofTag location file line .architectural tag).tagsClass type = (tag.type == type) := by
  rw [← name_beq_name]
  rfl

omit [SourceReader] in
theorem filter_visitEntries_architectural (location : Text) (visit : Visit) :
    (visitEntries tagPrefix file .architectural location visit).filter (·.tagsClass type) =
      (visitTagsOf tagPrefix type visit).map
        (Entry.ofTag location file visit.node.line .architectural) := by
  rw [visitEntries_eq, List.filter_map, visitTagsOf]
  congr 2
  funext tag
  exact tagsClass_ofTag location visit.node.line tag

omit [SourceReader] in
theorem filter_visitEntries_implementation (location : Text) (visit : Visit) :
    (visitEntries tagPrefix file .implementation location visit).filter (·.tagsClass type) =
      [] := by
  rw [visitEntries_eq, List.filter_eq_nil_iff]
  intro entry hentry
  obtain ⟨tag, -, rfl⟩ := List.mem_map.1 hentry
  simp [Entry.tagsClass, Entry.ofTag]

omit [SourceReader] in
theorem filter_sourceEntries (root : Tree) :
    (sourceEntries tagPrefix file root).filter (·.tagsClass type) =
      typeEntries tagPrefix type file root := by
  have hmethods : root.methodVisits.flatMap (fun _ => ([] : List Entry)) = [] := by simp
  rw [sourceEntries, List.filter_append, List.filter_flatMap, List.filter_flatMap]
  simp only [filter_visitEntries_architectural, filter_visitEntries_implementation, hmethods,
    List.append_nil]
  rfl

omit [SourceReader] in
/-- Only the entries in front can tag a type. -/
theorem filter_typesFirst (entries : List Entry) :
    (typesFirst entries).filter (·.tagsClass type) = entries.filter (·.tagsClass type) := by
  have hfront : (entries.filter (·.level == .architectural)).filter (·.tagsClass type) =
      entries.filter (·.tagsClass type) := by
    rw [List.filter_filter]
    apply List.filter_congr
    intro entry _
    cases hlevel : entry.level == .architectural <;> simp [Entry.tagsClass, hlevel]
  have hbehind : (entries.filter (·.level != .architectural)).filter (·.tagsClass type) = [] := by
    rw [List.filter_filter, List.filter_eq_nil_iff]
    intro entry _
    cases hlevel : entry.level == .architectural <;> simp [Entry.tagsClass, hlevel, bne]
  rw [typesFirst, List.filter_append, hfront, hbehind, List.append_nil]

/-- The tags of one kind on types, in the order of a scan. -/
theorem filter_scannedEntries :
    (scannedEntries disk folder tagPrefix patterns base).filter (·.tagsClass type) =
      (sourcesBelow disk folder patterns).flatMap fun source =>
        typeEntries tagPrefix type (displayName disk base source.path) source.tree.root := by
  rw [scannedEntries, filter_typesFirst, List.filter_flatten, List.map_map, ← List.flatMap_def]
  congr 1
  funext source
  exact filter_sourceEntries source.tree.root

/-- An entry of a tag on a type comes from a declaration in a source file. -/
theorem exists_of_mem_scannedEntries
    (h : entry ∈ (scannedEntries disk folder tagPrefix patterns base).filter (·.tagsClass type)) :
    ∃ source ∈ sourcesBelow disk folder patterns, ∃ visit ∈ source.tree.root.typeVisits,
      ∃ tag ∈ visitTagsOf tagPrefix type visit,
        entry = typeEntry source.tree.root (displayName disk base source.path) visit tag := by
  rw [filter_scannedEntries] at h
  obtain ⟨source, hsource, hentry⟩ := List.mem_flatMap.1 h
  obtain ⟨visit, hvisit, htag⟩ := List.mem_flatMap.1 hentry
  obtain ⟨tag, hmem, rfl⟩ := List.mem_map.1 htag
  exact ⟨source, hsource, visit, hvisit, tag, hmem, rfl⟩

end DocGraph
