import DocGraph.Proofs.Files.Written
import DocGraph.Proofs.Project.Listing
import DocGraph.Proofs.Text.Glob

/-!
# Excluded folders

A pattern with a slash in it excludes a path if it matches the whole of its text or a part in front
of one of its slashes. Any other pattern excludes a path if it matches one of its components. Both
hold of all that lies below the path as well, so an excluded folder takes everything in it along.

The first kind needs that a slash and a star behind a pattern add just what lies below its matches,
however the pattern ends.
-/

namespace DocGraph

namespace Path

/-- A relative path that leads somewhere. -/
structure IsInner (path : Path) : Prop where
  relative : path.anchor = .here
  ne_nil : path.names ≠ []
  written : path.IsWritten

variable {path above below : Path}

theorem IsInner.text_eq (h : path.IsInner) : path.text = Text.join ['/'] path.names := by
  obtain ⟨name, rest, hnames⟩ := List.exists_cons_of_ne_nil h.ne_nil
  have hname := h.written name (hnames ▸ List.mem_cons_self)
  have hposix : path.posix = Text.join ['/'] path.names := by
    rw [posix, h.relative]
    rfl
  have hvisible : path.posix.isEmpty = false := by
    rw [hposix, hnames, Text.join_cons]
    cases name with
    | nil => cases hname
    | cons c name => rfl
  rw [text, hvisible, if_neg Bool.false_ne_true, hposix]

theorem IsInner.append (habove : above.IsInner) (hbelow : below.IsInner) :
    (above.append below).IsInner ∧ (above.append below).names = above.names ++ below.names := by
  have happend : above.append below = ⟨above.anchor, above.names ++ below.names⟩ := by
    simp [Path.append, isAbsolute, hbelow.relative]
  rw [happend]
  refine ⟨⟨habove.relative, by simp [habove.ne_nil], ?_⟩, rfl⟩
  intro name hname
  rcases List.mem_append.1 hname with hname | hname
  · exact habove.written name hname
  · exact hbelow.written name hname

/-- A slash stands between the texts of two paths put together. -/
theorem IsInner.text_append (habove : above.IsInner) (hbelow : below.IsInner) :
    (above.append below).text = above.text ++ '/' :: below.text := by
  obtain ⟨hinner, hnames⟩ := habove.append hbelow
  rw [hinner.text_eq, habove.text_eq, hbelow.text_eq, hnames,
    Text.join_append _ habove.ne_nil hbelow.ne_nil]
  rfl

theorem IsInner.components_eq (h : path.IsInner) : path.components = path.names := by
  simp [components, isAbsolute, h.relative]

end Path

variable {pattern : Text} {patterns : List Text} {path above below : Path}

/-- What a pattern excludes, by the kind of the pattern. -/
theorem patternExcludes_eq_true_iff : patternExcludes pattern path = true ↔
    dropSlashes pattern ≠ [] ∧
      if '/' ∈ dropSlashes pattern then
        (Glob.parse (dropSlashes pattern)).accepts path.text = true ∨
          ∃ front rest, path.text = front ++ '/' :: rest ∧
            (Glob.parse (dropSlashes pattern)).accepts front = true
      else
        ∃ component ∈ path.components,
          (Glob.parse (dropSlashes pattern)).accepts component = true := by
  rw [patternExcludes]
  by_cases hempty : dropSlashes pattern = []
  · simp [hempty]
  · by_cases hslash : '/' ∈ dropSlashes pattern
    · simp [hempty, hslash, Glob.accepts_parse_below]
    · simp [hempty, hslash]

/-- What a pattern excludes, it excludes with all that lies below. -/
theorem patternExcludes_append (habove : above.IsInner) (hbelow : below.IsInner)
    (h : patternExcludes pattern above = true) :
    patternExcludes pattern (above.append below) = true := by
  rw [patternExcludes_eq_true_iff] at h ⊢
  obtain ⟨hne, h⟩ := h
  refine ⟨hne, ?_⟩
  split
  · next hslash =>
    rw [if_pos hslash] at h
    rw [habove.text_append hbelow]
    rcases h with hwhole | ⟨front, rest, hfront, haccepts⟩
    · exact .inr ⟨above.text, below.text, rfl, hwhole⟩
    · refine .inr ⟨front, rest ++ '/' :: below.text, ?_, haccepts⟩
      rw [hfront, List.append_assoc, List.cons_append]
  · next hslash =>
    rw [if_neg hslash, habove.components_eq] at h
    obtain ⟨hinner, hnames⟩ := habove.append hbelow
    obtain ⟨component, hcomponent, haccepts⟩ := h
    rw [hinner.components_eq, hnames]
    exact ⟨component, List.mem_append_left _ hcomponent, haccepts⟩

/-- What is excluded takes everything below it along, and no listing finds a file there. -/
theorem anyExcludes_inherited (habove : above.IsInner) (h : anyExcludes patterns above = true) :
    (∀ below : Path, below.IsInner → anyExcludes patterns (above.append below) = true) ∧
    ∀ disk folder ending rest,
      .found ⟨folder.anchor, folder.names ++ (above.names ++ rest)⟩ ∉
        listing disk folder ending (patterns.map .pattern) := by
  have hinherited : ∀ below : Path, below.IsInner →
      anyExcludes patterns (above.append below) = true := by
    intro below hbelow
    rw [anyExcludes, List.any_eq_true] at h ⊢
    obtain ⟨pattern, hpattern, hexcludes⟩ := h
    exact ⟨pattern, hpattern, patternExcludes_append habove hbelow hexcludes⟩
  refine ⟨hinherited, fun disk folder ending rest hfound => ?_⟩
  obtain ⟨parts, hfile⟩ := exists_parts_of_found hfound
  obtain ⟨names, object, ⟨route, -, hobject, -⟩, -, -, hkept, hpath⟩ := mem_endingPaths_iff.1 hfile
  obtain rfl : above.names ++ rest = names := by simpa [Path.behind] using hpath
  have habsurd : anyExcludes patterns ⟨.here, above.names ++ rest⟩ = true := by
    cases rest with
    | nil =>
      obtain ⟨anchor, names⟩ := above
      obtain rfl : anchor = .here := habove.relative
      rwa [List.append_nil]
    | cons name rest =>
      -- The names behind the excluded path are those of a file, so they make a path themselves.
      have hbelow : (⟨.here, name :: rest⟩ : Path).IsInner := by
        refine ⟨rfl, List.cons_ne_nil name rest, fun other hother => ?_⟩
        exact Path.isWrittenName_of_isFileName (FileSystem.isFileName_of_mem hobject
          (List.mem_append_right _ (List.mem_append_right _ hother)))
      have happend : above.append ⟨.here, name :: rest⟩ = ⟨.here, above.names ++ name :: rest⟩ := by
        simp [Path.append, Path.isAbsolute, habove.relative]
      rw [← happend]
      exact hinherited _ hbelow
  cases habsurd.symm.trans hkept

/-- Of three patterns only the last one excludes the folder. Its bracket is never closed, and the
slashes at its end count for nothing. -/
theorem anyExcludes_inherited_of_unclosed_bracket :
    let above : Path := Path.ofText "a[b/c".toList
    let below : Path := Path.ofText "d/E.java".toList
    let patterns : List Text := [['/'], "?[!/]b/[".toList, "*[b/c//".toList]
    above.IsInner ∧ anyExcludes patterns above = true ∧
      anyExcludes patterns (above.append below) = true := by
  intro above below patterns
  have habove : above.IsInner := ⟨by decide, by decide, Path.isWritten_ofText _⟩
  have hbelow : below.IsInner := ⟨by decide, by decide, Path.isWritten_ofText _⟩
  have hexcludes : anyExcludes patterns above = true := by decide +kernel
  exact ⟨habove, hexcludes, (anyExcludes_inherited habove hexcludes).1 below hbelow⟩

end DocGraph
