import DocGraph.Graph.EdgeLine
import DocGraph.Proofs.Graph.Target

/-!
# Edge lines, taken apart and put together

A line that spells the parts of an edge line has them in a fixed order, with blanks allowed between
them. The relation ends at the first closing bracket, so a line spells one relation and one arrow
only. What it leaves open is where the blanks behind the arrow end and the targets begin, and blanks
in front of targets say nothing. So reading finds an edge just on the lines that spell one, and all
ways to take such a line apart give the same edge.

`edgeLine` puts parts together in the way in which graphs are shown, and reading gives them back.
-/

namespace DocGraph

open Text (allBlank trim trimStart)

variable {t line relation targets : Text} {c : Char} {direction : Direction}

theorem Direction.arrow_of_ofArrow? (h : ofArrow? c = some direction) : direction.arrow = c := by
  rw [ofArrow?] at h
  split at h
  · next hc =>
    cases h
    exact hc.symm
  · split at h
    · next hc =>
      cases h
      exact hc.symm
    · cases h

/-- An edge line without decoration. -/
def edgeLine (relation : Text) (direction : Direction) (targets : Text) : Text :=
  '├' :: '─' :: '[' :: (relation ++ ']' :: direction.arrow :: ' ' :: targets)

namespace EdgeLine

/-- That a line spells the parts of an edge line: a corner and a bar, a relation between brackets,
an arrow and targets, with blanks allowed before each of them. -/
inductive Spelled (parts : EdgeLine) : Text → Prop
  | intro {before gap space tail : Text} {corner : Char}
      (hcorner : corner = '├' ∨ corner = '└')
      (hbefore : allBlank before = true) (hgap : allBlank gap = true)
      (hspace : allBlank space = true) (htail : allBlank tail = true)
      (hrelation : parts.relation ≠ []) (hclosed : ']' ∉ parts.relation)
      (htargets : parts.targets ≠ []) (hfeed : '\n' ∉ parts.targets) :
      Spelled parts (before ++ corner :: '─' :: (gap ++ '[' :: (parts.relation ++ ']' ::
        (space ++ parts.direction.arrow :: (tail ++ parts.targets)))))

/-! ## Relations -/

theorem readRelation?_eq_some_iff {rest : Text} :
    readRelation? t = some (relation, rest) ↔ t = relation ++ ']' :: rest ∧ ']' ∉ relation := by
  induction t generalizing relation with
  | nil => simp [readRelation?]
  | cons c t ih =>
    rw [readRelation?]
    split
    · next hc =>
      subst hc
      constructor
      · intro h
        cases h
        exact ⟨rfl, List.not_mem_nil⟩
      · rintro ⟨h, hnot⟩
        cases relation with
        | nil => simpa using h
        | cons d relation =>
          obtain ⟨rfl, -⟩ := List.cons.inj h
          exact absurd List.mem_cons_self hnot
    · next hc =>
      rw [Option.map_eq_some_iff]
      constructor
      · rintro ⟨⟨read, left⟩, hread, h⟩
        cases h
        obtain ⟨rfl, hnot⟩ := ih.1 hread
        refine ⟨rfl, fun hmem => ?_⟩
        rcases List.mem_cons.1 hmem with heq | hmem
        · exact hc heq.symm
        · exact hnot hmem
      · rintro ⟨h, hnot⟩
        cases relation with
        | nil => exact absurd (List.cons.inj h).1 hc
        | cons d relation =>
          obtain ⟨rfl, rfl⟩ := List.cons.inj h
          exact ⟨(relation, rest), ih.2 ⟨rfl, fun hmem => hnot (List.mem_cons_of_mem _ hmem)⟩, rfl⟩

/-! ## Targets -/

theorem trimStart_subset (t : Text) : trimStart t ⊆ t := (List.dropWhile_sublist _).subset

/-- The targets that are read stand behind blanks. -/
theorem of_targetsText? (h : targetsText? t = some targets) :
    ∃ tail, allBlank tail = true ∧ t = tail ++ targets ∧ targets ≠ [] ∧ '\n' ∉ targets := by
  rw [targetsText?] at h
  split at h
  · next hstart =>
    have hblank : allBlank t = true := Text.trimStart_eq_nil_iff.1 hstart
    split at h
    · next c hlast =>
      split at h
      · cases h
      · next hc =>
        cases h
        obtain ⟨init, rfl⟩ := List.getLast?_eq_some_iff.1 hlast
        rw [Text.allBlank_append, Bool.and_eq_true] at hblank
        exact ⟨init, hblank.1, rfl, List.cons_ne_nil _ _, by simpa using Ne.symm hc⟩
    · cases h
  · next hstart =>
    split at h
    · cases h
    · next hfeed =>
      cases h
      obtain ⟨tail, htail, ht⟩ := Text.exists_blanks_trimStart t
      exact ⟨tail, htail, ht, hstart, hfeed⟩

/-- Wherever the blanks behind an arrow are taken to end, what is read there names the targets that
are written there. -/
theorem exists_targetsText? {tail : Text} (htail : allBlank tail = true) (hsome : targets ≠ [])
    (hfeed : '\n' ∉ targets) :
    ∃ read, targetsText? (tail ++ targets) = some read ∧
      readTargets read = readTargets targets := by
  rw [targetsText?, Text.trimStart_append_of_allBlank htail]
  cases hstart : trimStart targets with
  | nil =>
    -- Only blanks are left, of which the last one is read and names nothing.
    have hblank : allBlank targets = true := Text.trimStart_eq_nil_iff.1 hstart
    obtain ⟨init, last, rfl⟩ := (List.eq_nil_or_concat' targets).resolve_left hsome
    have hlast : last ≠ '\n' := fun h => hfeed (h ▸ List.mem_append_right _ List.mem_cons_self)
    rw [Text.allBlank_append, Bool.and_eq_true] at hblank
    refine ⟨[last], ?_, (readTargets_append_left hblank.1 _).symm⟩
    rw [← List.append_assoc, List.getLast?_concat]
    exact if_neg hlast
  | cons first rest =>
    have hclear : '\n' ∉ first :: rest := by
      rw [← hstart]
      exact fun h => hfeed (trimStart_subset targets h)
    refine ⟨first :: rest, if_neg hclear, ?_⟩
    rw [← hstart, readTargets_trimStart]

/-! ## Whole lines -/

/-- What is read up to the arrow does not depend on what follows. -/
theorem read?_arrow {before gap space : Text} {corner : Char}
    (hcorner : corner = '├' ∨ corner = '└') (hbefore : allBlank before = true)
    (hgap : allBlank gap = true) (hspace : allBlank space = true) (hrelation : relation ≠ [])
    (hclosed : ']' ∉ relation) (rest : Text) :
    read? (before ++ corner :: '─' :: (gap ++ '[' :: (relation ++ ']' ::
        (space ++ direction.arrow :: rest)))) =
      (targetsText? rest).map fun targets => ⟨relation, direction, targets⟩ := by
  have hstart : ∀ later, trimStart (before ++ corner :: later) = corner :: later := by
    intro later
    rw [Text.trimStart_append_of_allBlank hbefore]
    apply Text.trimStart_cons_of_not
    cases hcorner with
    | inl hcorner => rw [hcorner]; decide
    | inr hcorner => rw [hcorner]; decide
  have hbracket : ∀ later, trimStart (gap ++ '[' :: later) = '[' :: later := by
    intro later
    rw [Text.trimStart_append_of_allBlank hgap]
    exact Text.trimStart_cons_of_not (by decide)
  have hread : readRelation? (relation ++ ']' :: (space ++ direction.arrow :: rest)) =
      some (relation, space ++ direction.arrow :: rest) :=
    readRelation?_eq_some_iff.2 ⟨rfl, hclosed⟩
  have harrow : trimStart (space ++ direction.arrow :: rest) = direction.arrow :: rest := by
    rw [Text.trimStart_append_of_allBlank hspace]
    exact Text.trimStart_cons_of_not (by cases direction <;> decide)
  have hempty : relation.isEmpty = false := by simpa using hrelation
  rw [read?, hstart]
  simp only [hcorner, hbracket, hread, harrow, hempty, if_true, Bool.false_eq_true, if_false,
    Direction.ofArrow?_arrow, Option.bind_eq_bind, Option.bind_some, Option.pure_def]
  cases targetsText? rest <;> rfl

/-- A line that spells parts is read, and the parts that are read make the same edge. -/
theorem Spelled.exists_read? {parts : EdgeLine} (h : parts.Spelled line) :
    ∃ read, read? line = some read ∧ read.edge? = parts.edge? := by
  cases h with
  | intro hcorner hbefore hgap hspace htail hrelation hclosed htargets hfeed =>
    obtain ⟨read, hread, hsame⟩ := exists_targetsText? htail htargets hfeed
    refine ⟨⟨parts.relation, parts.direction, read⟩, ?_, ?_⟩
    · rw [read?_arrow hcorner hbefore hgap hspace hrelation hclosed, hread]
      rfl
    · rw [edge?, edge?, hsame]

/-- A line spells the parts that it is read into. -/
theorem spelled_of_read? {parts : EdgeLine} (h : read? line = some parts) : parts.Spelled line := by
  rw [read?] at h
  split at h
  · next corner rest hstart =>
    split at h
    · next hcorner =>
      split at h
      · next inner hbracket =>
        simp only [Option.bind_eq_bind, Option.bind_eq_some_iff] at h
        obtain ⟨⟨relation, behind⟩, hrelation, h⟩ := h
        obtain ⟨rfl, hclosed⟩ := readRelation?_eq_some_iff.1 hrelation
        split at h
        · cases h
        · next hne =>
          split at h
          · cases h
          · next arrow after harrow =>
            simp only [Option.bind_eq_some_iff] at h
            obtain ⟨direction, hdirection, targets, htargets, hparts⟩ := h
            cases hparts
            -- The blanks that reading has passed over are those between the parts.
            obtain ⟨before, hbefore, hline⟩ := Text.exists_blanks_trimStart line
            obtain ⟨gap, hgap, hrest⟩ := Text.exists_blanks_trimStart rest
            obtain ⟨space, hspace, hbehind⟩ := Text.exists_blanks_trimStart behind
            obtain ⟨tail, htail, rfl, hsome, hfeed⟩ := of_targetsText? htargets
            rw [hline, hstart, hrest, hbracket, hbehind, harrow,
              ← Direction.arrow_of_ofArrow? hdirection]
            exact .intro hcorner hbefore hgap hspace htail (by simpa using hne) hclosed hsome hfeed
      · cases h
    · cases h
  · cases h

theorem Spelled.relation_subset {parts : EdgeLine} (h : parts.Spelled line) :
    parts.relation ⊆ line := by
  cases h with
  | intro =>
    intro c hc
    simp [hc]

theorem Spelled.targets_subset {parts : EdgeLine} (h : parts.Spelled line) :
    parts.targets ⊆ line := by
  cases h with
  | intro =>
    intro c hc
    simp [hc]

/-- The parts that an edge line is read into. -/
theorem of_read? {parts : EdgeLine} (h : read? line = some parts) :
    parts.relation ≠ [] ∧ ']' ∉ parts.relation ∧ parts.relation ⊆ line ∧ parts.targets ⊆ line := by
  have hspelled := spelled_of_read? h
  refine ⟨?_, ?_, hspelled.relation_subset, hspelled.targets_subset⟩
  · cases hspelled with
    | intro _ _ _ _ _ hrelation _ _ _ => exact hrelation
  · cases hspelled with
    | intro _ _ _ _ _ _ hclosed _ _ => exact hclosed

/-! ## Putting together -/

theorem targetsText?_trimmed (htrim : trim targets = targets) (hne : targets ≠ [])
    (hfeed : '\n' ∉ targets) : targetsText? (' ' :: targets) = some targets := by
  rw [targetsText?, Text.trimStart_cons_of_blank (by decide), (Text.trimmed_iff.1 htrim).1]
  split
  · exact absurd rfl hne
  · exact if_neg hfeed

/-- An edge line is taken apart into the parts that it was put together of. -/
theorem read?_edgeLine (hne : relation ≠ []) (hnot : ']' ∉ relation)
    (htrim : trim targets = targets) (hsome : targets ≠ []) (hfeed : '\n' ∉ targets) :
    read? (edgeLine relation direction targets) = some ⟨relation, direction, targets⟩ := by
  have hread := @read?_arrow relation direction [] [] [] '├' (.inl rfl) rfl rfl rfl hne hnot
    (' ' :: targets)
  rw [targetsText?_trimmed htrim hsome hfeed] at hread
  exact hread

end EdgeLine

theorem subset_edgeLine : targets ⊆ edgeLine relation direction targets := by
  intro c hc
  simp [edgeLine, hc]

theorem trim_edgeLine (htrim : trim targets = targets) (hsome : targets ≠ []) :
    trim (edgeLine relation direction targets) = edgeLine relation direction targets := by
  have hnot := Text.not_allBlank_of_trimmed htrim hsome
  refine Text.trimmed_iff.2 ⟨Text.trimStart_cons_of_not (by decide), ?_⟩
  have hline : edgeLine relation direction targets =
      '├' :: '─' :: '[' :: (relation ++ [']', direction.arrow, ' ']) ++ targets := by
    simp [edgeLine]
  rw [hline, Text.trimEnd_append_of_not hnot, (Text.trimmed_iff.1 htrim).2]

/-! ## The grammar of edge lines -/

/-- A line has the shape of an edge if it spells parts of one. However it is taken apart, its edge
has the trimmed relation, the direction of the arrow and the targets that are written, unless they
name nothing. No other line has an edge. -/
theorem drawsEdge_grammar (line : Text) :
    (drawsEdge line = true ↔ ∃ parts : EdgeLine, parts.Spelled line) ∧
      (∀ parts : EdgeLine, parts.Spelled line → readEdge? line =
        if readTargets parts.targets = [] then none
        else some ⟨trim parts.relation, parts.direction, readTargets parts.targets⟩) ∧
      ∀ edge, readEdge? line = some edge → drawsEdge line = true := by
  refine ⟨⟨?_, ?_⟩, ?_, ?_⟩
  · intro hdraws
    obtain ⟨parts, hparts⟩ := Option.isSome_iff_exists.1 hdraws
    exact ⟨parts, EdgeLine.spelled_of_read? hparts⟩
  · intro ⟨parts, hspelled⟩
    obtain ⟨read, hread, -⟩ := hspelled.exists_read?
    rw [drawsEdge, hread]
    rfl
  · intro parts hspelled
    obtain ⟨read, hread, hsame⟩ := hspelled.exists_read?
    rw [readEdge?, hread, Option.bind_some, hsame, EdgeLine.edge?]
    split
    · next hnone => rw [if_pos hnone]
    · next hsome => rw [if_neg hsome]
  · intro edge hedge
    rw [readEdge?, Option.bind_eq_some_iff] at hedge
    obtain ⟨parts, hparts, -⟩ := hedge
    rw [drawsEdge, hparts]
    rfl

/-- A line with two blanks and a line feed between its arrow and its targets, and two of the ways to
take it apart. -/
theorem drawsEdge_grammar_of_two_spellings :
    let line : Text := "\t└─ [ [ → ]\u00a0←\n  f(a,b) , B".toList
    let early : EdgeLine := ⟨" [ → ".toList, .inbound, "  f(a,b) , B".toList⟩
    let late : EdgeLine := ⟨" [ → ".toList, .inbound, "f(a,b) , B".toList⟩
    let edge : Edge := ⟨"[ →".toList, .inbound, ["f(a,b)".toList, ['B']]⟩
    early.Spelled line ∧ late.Spelled line ∧ readEdge? line = some edge ∧
      drawsEdge line = true := by
  intro line early late edge
  have hearly : early.Spelled line := @EdgeLine.Spelled.intro early ['\t'] [' '] ['\u00a0'] ['\n']
    '└' (.inr rfl) rfl rfl rfl rfl (by decide) (by decide) (by decide) (by decide)
  have hlate : late.Spelled line := @EdgeLine.Spelled.intro late ['\t'] [' '] ['\u00a0']
    "\n  ".toList '└' (.inr rfl) rfl rfl rfl rfl (by decide) (by decide) (by decide) (by decide)
  obtain ⟨hdraws, hspelled, hedges⟩ := drawsEdge_grammar line
  have hedge : readEdge? line = some edge := by
    rw [hspelled early hearly]
    decide +kernel
  exact ⟨hearly, hlate, hedge, hedges edge hedge⟩

end DocGraph
