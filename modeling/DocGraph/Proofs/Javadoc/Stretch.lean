import DocGraph.Proofs.Javadoc.Marker

/-!
# A comment between its markers

The markers of a comment cut it into a lead and the stretches behind each of them. A stretch that
begins with the name of a kind and a blank announces a tag, whose content is the rest of the
stretch. So read, every announced tag is there, in order, and its content knows nothing of the other
stretches.

The pass over a comment reads it so exactly where each announced tag has something to begin its
content with. A tag with only blanks takes the next marker for its content, and with it the next
stretch; with one blank at the end of the comment it is not read at all.
-/

namespace DocGraph

namespace Tag

open Text (allBlank trim trimStart trimEnd EndsFirst startsWith)

variable {tagPrefix marker t rest stretch body comment lead : Text} {type : TagType} {c : Char}
variable {tag : Tag} {tags : List Tag} {stretches : List Text}

/-- The cut of a comment at all its markers. -/
structure CutAt (marker comment lead : Text) (stretches : List Text) : Prop where
  whole : comment = lead ++ stretches.flatMap (marker ++ ·)
  unmarked : ∀ piece ∈ lead :: stretches, ¬ marker <:+: piece

/-- The tags that stretches announce, one for each that begins with a kind and a blank. -/
inductive Announced : List Text → List Tag → Prop
  | none : Announced [] []
  | silent {stretch : Text} {stretches : List Text} {tags : List Tag} :
    (∀ type body, ¬ Announces stretch type body) → Announced stretches tags →
      Announced (stretch :: stretches) tags
  | tag {stretch body : Text} {type : TagType} {stretches : List Text} {tags : List Tag} :
    Announces stretch type body → Announced stretches tags →
      Announced (stretch :: stretches) (ofRaw type body :: tags)

/-- Whether the first stretch announces a tag that has nothing to begin its content with. -/
def StarvesFirst (stretch : Text) (later : List Text) : Prop :=
  ∃ type body, Announces stretch type body ∧ allBlank body = true ∧
    (later = [] → body.length = 1)

/-- Whether one of the announced tags has nothing to begin its content with. -/
def Starved (stretches : List Text) : Prop :=
  ∃ before stretch later, stretches = before ++ stretch :: later ∧ StarvesFirst stretch later

/-- Whether a marker comes together where the first date is taken out of a text. -/
def JoinsMarker (marker body : Text) : Prop :=
  ∃ before date after, clean body = before ++ (bracketed date ++ after) ∧ IsDate date ∧
    Dateless before ∧ marker <:+: before ++ trimStart after

/-! ## Cutting -/

theorem exists_cutAt (hmarker : marker ≠ []) (comment : Text) :
    ∃ lead stretches, CutAt marker comment lead stretches := by
  induction hn : comment.length using Nat.strong_induction_on generalizing comment with
  | h n ih =>
    cases comment with
    | nil => exact ⟨[], [], ⟨rfl, by simpa using hmarker⟩⟩
    | cons c t =>
      by_cases hstart : marker <+: c :: t
      · obtain ⟨rest, hrest⟩ := hstart
        have hshorter : rest.length < n := by
          rw [← hn, ← hrest, List.length_append]
          have := List.length_pos_of_ne_nil hmarker
          omega
        obtain ⟨lead, stretches, hcut⟩ := ih _ hshorter rest rfl
        refine ⟨[], lead :: stretches, ⟨?_, ?_⟩⟩
        · rw [← hrest, hcut.whole]
          simp
        · intro piece hpiece
          rcases List.mem_cons.1 hpiece with rfl | hpiece
          · simpa using hmarker
          · exact hcut.unmarked piece hpiece
      · obtain ⟨lead, stretches, hcut⟩ := ih t.length (by rw [← hn]; simp) t rfl
        refine ⟨c :: lead, stretches, ⟨by rw [hcut.whole]; rfl, ?_⟩⟩
        intro piece hpiece
        rcases List.mem_cons.1 hpiece with rfl | hpiece
        · rw [List.infix_cons_iff]
          rintro (hhere | hlater)
          · rw [hcut.whole] at hstart
            exact hstart (hhere.trans (List.prefix_append (c :: lead) _))
          · exact hcut.unmarked lead List.mem_cons_self hlater
        · exact hcut.unmarked piece (List.mem_cons_of_mem _ hpiece)

/-! ## One stretch -/

theorem notMem_append_hyphen (h : '@' ∉ tagPrefix) : '@' ∉ tagPrefix ++ ['-'] := by
  rw [List.mem_append]
  rintro (hmem | hmem)
  · exact h hmem
  · exact absurd hmem (by decide)

theorem endsFirst_tagMarker (hat : '@' ∉ tagPrefix) (h : ¬ tagMarker tagPrefix <:+: t) :
    EndsFirst (tagMarker tagPrefix) t := by
  exact Text.endsFirst_of_not_isInfix (notMem_append_hyphen hat) h

/-- The pass goes over characters at which no marker begins. -/
theorem tagsFrom_append_of_notMem {start : Text} (h : '@' ∉ start) (t : Text) :
    tagsFrom (tagMarker tagPrefix) (start ++ t) = tagsFrom (tagMarker tagPrefix) t := by
  induction start with
  | nil => rfl
  | cons c start ih =>
    have hstart : startsWith (tagMarker tagPrefix) (c :: (start ++ t)) = false := by
      rw [Bool.eq_false_iff]
      intro hstart
      have hc := (List.cons_prefix_cons.1 (Text.startsWith_iff.1 hstart)).1
      exact h (hc ▸ List.mem_cons_self)
    rw [List.cons_append, tagsFrom_cons_of_none (readTag?_of_not_startsWith hstart),
      ih fun hmem => h (List.mem_cons_of_mem _ hmem)]

/-- The pass goes over a marker without a tag. -/
theorem tagsFrom_marker_of_none (hat : '@' ∉ tagPrefix)
    (h : readTag? (tagMarker tagPrefix) (tagMarker tagPrefix ++ t) = none) :
    tagsFrom (tagMarker tagPrefix) (tagMarker tagPrefix ++ t) =
      tagsFrom (tagMarker tagPrefix) t := by
  rw [← tagsFrom_append_of_notMem (notMem_append_hyphen hat) t]
  exact tagsFrom_cons_of_none h

theorem flatMap_marker_cons (marker stretch : Text) (stretches : List Text) :
    (stretch :: stretches).flatMap (marker ++ ·) =
      marker ++ (stretch ++ stretches.flatMap (marker ++ ·)) := by
  rw [List.flatMap_cons, List.append_assoc]

/-- A stretch that announces nothing is passed over. -/
theorem tagsFrom_silent (hat : '@' ∉ tagPrefix) (hunmarked : ¬ tagMarker tagPrefix <:+: stretch)
    (h : ∀ type body, ¬ Announces stretch type body) (later : List Text) :
    tagsFrom (tagMarker tagPrefix) ((stretch :: later).flatMap (tagMarker tagPrefix ++ ·)) =
      tagsFrom (tagMarker tagPrefix) (later.flatMap (tagMarker tagPrefix ++ ·)) := by
  rw [flatMap_marker_cons]
  cases later with
  | nil =>
    rw [List.flatMap_nil, List.append_nil, tagsFrom_marker_of_none hat (readTag?_of_silent h),
      tagsFrom_of_not_isInfix hunmarked, tagsFrom_nil]
  | cons next later =>
    rw [flatMap_marker_cons]
    have hsilent : readTag? (tagMarker tagPrefix) (tagMarker tagPrefix ++ (stretch ++
        (tagMarker tagPrefix ++ (next ++ later.flatMap (tagMarker tagPrefix ++ ·))))) = none := by
      apply readTag?_of_silent
      intro type body hannounces
      obtain ⟨body', hbody⟩ := hannounces.of_append_marker
      exact h type body' hbody
    rw [tagsFrom_marker_of_none hat hsilent,
      tagsFrom_append_marker (endsFirst_tagMarker hat hunmarked)]

/-- A tag that has something to begin its content with is read from its stretch. -/
theorem tagsFrom_fed (hat : '@' ∉ tagPrefix) (hunmarked : ¬ tagMarker tagPrefix <:+: stretch)
    {later : List Text} (h : Announces stretch type body) (hfed : ¬ StarvesFirst stretch later) :
    tagsFrom (tagMarker tagPrefix) ((stretch :: later).flatMap (tagMarker tagPrefix ++ ·)) =
      ofRaw type body ::
        tagsFrom (tagMarker tagPrefix) (later.flatMap (tagMarker tagPrefix ++ ·)) := by
  rw [flatMap_marker_cons]
  cases later with
  | nil =>
    have hbody : allBlank body = false ∨ 2 ≤ body.length := by
      cases hblank : allBlank body with
      | false => exact .inl rfl
      | true =>
        obtain ⟨c, rest, rfl, -⟩ := h.2
        have hlength : (c :: rest).length ≠ 1 := fun hone => hfed ⟨_, _, h, hblank, fun _ => hone⟩
        rw [List.length_cons] at hlength ⊢
        exact .inr (by omega)
    rw [List.flatMap_nil, List.append_nil, tagsFrom_stretch_end h hbody hunmarked, tagsFrom_nil]
  | cons next later =>
    have hbody : allBlank body = false := by
      rw [Bool.eq_false_iff]
      exact fun hblank =>
        hfed ⟨type, body, h, hblank, fun hnil => absurd hnil (List.cons_ne_nil _ _)⟩
    rw [flatMap_marker_cons,
      tagsFrom_stretch_marker h hbody (endsFirst_tagMarker hat hunmarked)]

theorem clean_at_cons (rest : Text) : ∃ more, clean ('@' :: rest) = '@' :: more := by
  have htrim : trim ('@' :: rest) = '@' :: trimEnd rest := Text.trim_cons_of_not (by decide)
  rw [clean, htrim, dropLeadingStar_of_not (by simp)]
  rcases trailingStar_cases ('@' :: trimEnd rest) with hlast | ⟨init, hinit⟩
  · exact ⟨_, dropTrailingStar_of_not hlast⟩
  · cases init with
    | nil => cases hinit
    | cons c init =>
      rw [List.cons_append, List.cons.injEq] at hinit
      rw [hinit.2, ← List.cons_append, dropTrailingStar_concat_star]
      exact ⟨_, Text.trimEnd_cons_of_not (by decide)⟩

/-- Neither cleaning nor a date takes a marker out of the front of content. -/
theorem content_ofRaw_ne_nil (type : TagType) (rest : Text) :
    (ofRaw type ('@' :: rest)).content ≠ [] := by
  obtain ⟨more, hclean⟩ := clean_at_cons rest
  rw [ofRaw, hclean]
  cases htake : takeDate? ('@' :: more) with
  | none => exact List.cons_ne_nil _ _
  | some found =>
    obtain ⟨date, others⟩ := found
    obtain ⟨before, after, ht, -, -, rfl⟩ := takeDate?_eq_some_iff.1 htake
    cases before with
    | nil => cases ht
    | cons c before => exact List.cons_ne_nil _ _

/-- A tag that has nothing to begin its content with is lost or takes the next stretch for it. -/
theorem tagsFrom_starved (hat : '@' ∉ tagPrefix)
    (hunmarked : ¬ tagMarker tagPrefix <:+: stretch) {later : List Text}
    (h : Announces stretch type body) (hstarves : StarvesFirst stretch later) :
    (tagsFrom (tagMarker tagPrefix)
      ((stretch :: later).flatMap (tagMarker tagPrefix ++ ·))).head? ≠ some (ofRaw type body) := by
  obtain ⟨type', body', h', hblank, hlast⟩ := hstarves
  obtain ⟨rfl, rfl⟩ := h.unique h'
  rw [flatMap_marker_cons]
  cases later with
  | nil =>
    obtain ⟨c, hc⟩ := List.length_eq_one_iff.1 (hlast rfl)
    subst hc
    have hread : readContent? (tagMarker tagPrefix) [c] = none :=
      readContent?_of_blank (by simpa [allBlank] using hblank)
    rw [List.flatMap_nil, List.append_nil,
      tagsFrom_marker_of_none hat (readTag?_of_no_content h hread),
      tagsFrom_of_not_isInfix hunmarked]
    simp
  | cons next later =>
    rw [flatMap_marker_cons, tagsFrom_of_some (readTag?_of_announces (h.append _)
      (readContent?_blank_append_marker hblank _)), List.head?_cons, ofRaw_of_allBlank hblank]
    intro heq
    rw [Option.some.injEq] at heq
    exact content_ofRaw_ne_nil _ _ (congrArg Tag.content heq)

/-! ## All stretches -/

theorem starved_cons_iff {later : List Text} :
    Starved (stretch :: later) ↔ StarvesFirst stretch later ∨ Starved later := by
  constructor
  · rintro ⟨before, found, after, hwhole, hstarves⟩
    cases before with
    | nil =>
      cases hwhole
      exact .inl hstarves
    | cons first before =>
      cases hwhole
      exact .inr ⟨before, found, after, rfl, hstarves⟩
  · rintro (hstarves | ⟨before, found, after, rfl, hstarves⟩)
    · exact ⟨[], stretch, later, rfl, hstarves⟩
    · exact ⟨stretch :: before, found, after, rfl, hstarves⟩

theorem announced_cons_of_announces {later : List Text} (h : Announces stretch type body) :
    Announced (stretch :: later) tags ↔
      ∃ more, tags = ofRaw type body :: more ∧ Announced later more := by
  constructor
  · intro hannounced
    cases hannounced with
    | silent hsilent _ => exact absurd h (hsilent type body)
    | tag h' hmore =>
      obtain ⟨rfl, rfl⟩ := h.unique h'
      exact ⟨_, rfl, hmore⟩
  · rintro ⟨more, rfl, hmore⟩
    exact .tag h hmore

theorem announced_cons_of_silent {later : List Text}
    (h : ∀ type body, ¬ Announces stretch type body) :
    Announced (stretch :: later) tags ↔ Announced later tags := by
  constructor
  · intro hannounced
    cases hannounced with
    | silent _ hlater => exact hlater
    | tag h' _ => exact absurd h' (h _ _)
  · exact .silent h

/-- The announced tags are those of the stretches. -/
theorem Announced.mem_iff (h : Announced stretches tags) :
    tag ∈ tags ↔
      ∃ stretch ∈ stretches, ∃ type body, Announces stretch type body ∧ tag = ofRaw type body := by
  induction h with
  | none => simp
  | silent hsilent _ ih => simp [ih, hsilent]
  | @tag stretch body type stretches tags hannounces _ ih =>
    rw [List.mem_cons, ih, List.exists_mem_cons_iff]
    refine or_congr_left ⟨fun htag => ⟨type, body, hannounces, htag⟩, ?_⟩
    rintro ⟨type', body', h', rfl⟩
    obtain ⟨rfl, rfl⟩ := hannounces.unique h'
    rfl

/-- The pass reads the announced tags if and only if none of them starves. -/
theorem announced_tagsFrom_iff (hat : '@' ∉ tagPrefix)
    (hunmarked : ∀ stretch ∈ stretches, ¬ tagMarker tagPrefix <:+: stretch) :
    Announced stretches
        (tagsFrom (tagMarker tagPrefix) (stretches.flatMap (tagMarker tagPrefix ++ ·))) ↔
      ¬ Starved stretches := by
  induction stretches with
  | nil =>
    refine ⟨fun _ => ?_, fun _ => .none⟩
    rintro ⟨before, found, after, hwhole, -⟩
    exact List.append_ne_nil_of_right_ne_nil _ (List.cons_ne_nil _ _) hwhole.symm
  | cons stretch later ih =>
    have hfirst := hunmarked stretch List.mem_cons_self
    have hlater := ih fun other hother => hunmarked other (List.mem_cons_of_mem _ hother)
    rw [starved_cons_iff, not_or, ← hlater]
    by_cases hannounces : ∃ type body, Announces stretch type body
    · obtain ⟨type, body, h⟩ := hannounces
      rw [announced_cons_of_announces h]
      by_cases hstarves : StarvesFirst stretch later
      · have hhead := tagsFrom_starved hat hfirst h hstarves
        constructor
        · rintro ⟨more, htags, -⟩
          exact absurd (by rw [htags]; rfl) hhead
        · rintro ⟨hfed, -⟩
          exact absurd hstarves hfed
      · rw [tagsFrom_fed hat hfirst h hstarves]
        constructor
        · rintro ⟨more, htags, hmore⟩
          cases htags
          exact ⟨hstarves, hmore⟩
        · rintro ⟨-, hmore⟩
          exact ⟨_, rfl, hmore⟩
    · have hsilent : ∀ type body, ¬ Announces stretch type body :=
        fun type body h => hannounces ⟨type, body, h⟩
      rw [announced_cons_of_silent hsilent, tagsFrom_silent hat hfirst hsilent, iff_and_self]
      rintro - ⟨type, body, h, -⟩
      exact hsilent type body h

/-! ## Markers in content -/

/-- Content holds a marker only where one came together. -/
theorem infix_content_ofRaw_iff (hbody : ¬ marker <:+: body) :
    marker <:+: (ofRaw type body).content ↔ JoinsMarker marker body := by
  rw [ofRaw]
  cases htake : takeDate? (clean body) with
  | none =>
    refine ⟨fun hoccurs => absurd (hoccurs.trans (clean_isInfix body)) hbody, ?_⟩
    rintro ⟨before, date, after, hclean, hdate, -⟩
    exact absurd ⟨before, after, by rw [hclean, List.append_assoc]⟩
      (takeDate?_eq_none_iff.1 htake date hdate)
  | some found =>
    obtain ⟨date, others⟩ := found
    constructor
    · intro hoccurs
      obtain ⟨before, after, hclean, hdate, hless, rfl⟩ := takeDate?_eq_some_iff.1 htake
      exact ⟨before, date, after, hclean, hdate, hless, hoccurs⟩
    · rintro ⟨before, date', after, hclean, hdate, hless, hoccurs⟩
      have htake' : takeDate? (clean body) = some (date', before ++ trimStart after) :=
        takeDate?_eq_some_iff.2 ⟨before, after, hclean, hdate, hless, rfl⟩
      rw [htake, Option.some.injEq, Prod.mk.injEq] at htake'
      rwa [← htake'.2] at hoccurs

/-! ## The comment as a whole -/

/-- The lead of a comment has no tags. -/
theorem readTags_of_cutAt (hat : '@' ∉ tagPrefix)
    (hcut : CutAt (tagMarker tagPrefix) comment lead stretches) :
    readTags tagPrefix comment =
      tagsFrom (tagMarker tagPrefix) (stretches.flatMap (tagMarker tagPrefix ++ ·)) := by
  have hlead := hcut.unmarked lead List.mem_cons_self
  rw [readTags_eq, hcut.whole]
  cases stretches with
  | nil => rw [List.flatMap_nil, List.append_nil, tagsFrom_of_not_isInfix hlead, tagsFrom_nil]
  | cons stretch later =>
    rw [flatMap_marker_cons, tagsFrom_append_marker (endsFirst_tagMarker hat hlead)]

/-- The tags of a comment are those that its stretches announce, and none of their contents holds a
marker, if and only if every announced tag has something to begin its content with and no date that
is taken out brings a marker together. A tag with nothing but blanks has no content. -/
theorem readTags_announced_iff {tagPrefix : Text} (hat : '@' ∉ tagPrefix) (comment : Text) :
    (∃ lead stretches, CutAt (tagMarker tagPrefix) comment lead stretches) ∧
    (∀ lead stretches, CutAt (tagMarker tagPrefix) comment lead stretches →
      ((Announced stretches (readTags tagPrefix comment) ∧
          ∀ tag ∈ readTags tagPrefix comment, ¬ tagMarker tagPrefix <:+: tag.content) ↔
        (¬ Starved stretches ∧ ∀ stretch ∈ stretches, ∀ type body, Announces stretch type body →
          ¬ JoinsMarker (tagMarker tagPrefix) body))) ∧
    ∀ type body, allBlank body = true → ofRaw type body = ⟨type, [], none⟩ := by
  refine ⟨exists_cutAt (tagMarker_ne_nil tagPrefix) comment, ?_,
    fun type body hblank => ofRaw_of_allBlank hblank type⟩
  intro lead stretches hcut
  have hunmarked : ∀ stretch ∈ stretches, ¬ tagMarker tagPrefix <:+: stretch :=
    fun stretch hstretch => hcut.unmarked stretch (List.mem_cons_of_mem _ hstretch)
  have hcontent : ∀ stretch ∈ stretches, ∀ type body, Announces stretch type body →
      (tagMarker tagPrefix <:+: (ofRaw type body).content ↔
        JoinsMarker (tagMarker tagPrefix) body) := by
    intro stretch hstretch type body hannounces
    apply infix_content_ofRaw_iff
    have hstretch := hunmarked stretch hstretch
    rw [hannounces.1] at hstretch
    exact fun hoccurs => hstretch (hoccurs.trans (List.suffix_append _ _).isInfix)
  rw [readTags_of_cutAt hat hcut, announced_tagsFrom_iff hat hunmarked]
  refine and_congr_right fun hfed => ?_
  have hannounced := (announced_tagsFrom_iff hat hunmarked).2 hfed
  constructor
  · intro hfree stretch hstretch type body hannounces hjoins
    exact hfree _ (hannounced.mem_iff.2 ⟨stretch, hstretch, type, body, hannounces, rfl⟩)
      ((hcontent stretch hstretch type body hannounces).2 hjoins)
  · intro hnever tag htag
    obtain ⟨stretch, hstretch, type, body, hannounces, rfl⟩ := hannounced.mem_iff.1 htag
    rw [hcontent stretch hstretch type body hannounces]
    exact hnever stretch hstretch type body hannounces

/-- A graph and an ignore list on lines of their own are both fed. -/
theorem readTags_announced_of_two_lines :
    let comment := "\n * @aicontext-graph\n * Foo\n * @aicontext-graph-ignore Bar\n ".toList
    let stretches := ["graph\n * Foo\n * ".toList, "graph-ignore Bar\n ".toList]
    '@' ∉ defaultTagPrefix ∧
      CutAt (tagMarker defaultTagPrefix) comment "\n * ".toList stretches ∧
      readTags defaultTagPrefix comment =
        [⟨.graph, "Foo".toList, none⟩, ⟨.graphIgnore, "Bar".toList, none⟩] ∧
      ¬ Starved stretches := by
  intro comment stretches
  have hat : '@' ∉ defaultTagPrefix := by decide
  have hcut : CutAt (tagMarker defaultTagPrefix) comment "\n * ".toList stretches :=
    ⟨by decide +kernel, by decide +kernel⟩
  have htags : readTags defaultTagPrefix comment =
      [ofRaw .graph "\n * Foo\n * ".toList, ofRaw .graphIgnore " Bar\n ".toList] := by
    decide +kernel
  have hannounced : Announced stretches (readTags defaultTagPrefix comment) := by
    rw [htags]
    exact .tag ⟨rfl, '\n', _, rfl, by decide⟩ (.tag ⟨rfl, ' ', _, rfl, by decide⟩ .none)
  have hfree : ∀ tag ∈ readTags defaultTagPrefix comment,
      ¬ tagMarker defaultTagPrefix <:+: tag.content := by
    rw [htags]
    decide +kernel
  obtain ⟨-, hiff, -⟩ := readTags_announced_iff hat comment
  exact ⟨hat, hcut, by decide +kernel,
    ((hiff _ _ hcut).1 ⟨hannounced, hfree⟩).1⟩

/-- A tag without content swallows the next one, and a last tag before a single blank is lost. -/
theorem readTags_swallows_and_loses :
    let comment := "@aicontext-rule @aicontext-context x @aicontext-graph ".toList
    let stretches := ["rule ".toList, "context x ".toList, "graph ".toList]
    CutAt (tagMarker defaultTagPrefix) comment [] stretches ∧
      Announced stretches [⟨.rule, [], none⟩, ⟨.context, "x".toList, none⟩, ⟨.graph, [], none⟩] ∧
      readTags defaultTagPrefix comment = [⟨.rule, "@aicontext-context x".toList, none⟩] := by
  intro comment stretches
  refine ⟨⟨by decide +kernel, by decide +kernel⟩, ?_, by decide +kernel⟩
  have htags : [⟨.rule, [], none⟩, ⟨.context, "x".toList, none⟩, ⟨.graph, [], none⟩] =
      [ofRaw .rule [' '], ofRaw .context " x ".toList, ofRaw .graph [' ']] := by
    decide +kernel
  rw [htags]
  exact .tag ⟨rfl, ' ', _, rfl, by decide⟩ (.tag ⟨rfl, ' ', _, rfl, by decide⟩
    (.tag ⟨rfl, ' ', _, rfl, by decide⟩ .none))

end Tag

end DocGraph
