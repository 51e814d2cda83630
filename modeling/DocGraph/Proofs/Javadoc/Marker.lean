import DocGraph.Javadoc.Tag
import DocGraph.Proofs.Javadoc.Cleaning
import DocGraph.Proofs.Text.Occurrence

/-!
# Reading from marker to marker

Tags are read off a comment in one pass. Here is what the pass does at each place: it goes over text
without a marker, and at a marker it reads the kind of a tag and content up to the next marker or
the end. The number of steps that the pass is given plays no part in it.

Content needs a character of its own. Where only blanks stand between the kind and the next marker,
that marker is taken for the content, and a single blank at the end of a comment is no content.
-/

namespace DocGraph

/-! ## Markers and kinds -/

theorem tagMarker_eq (tagPrefix : Text) : tagMarker tagPrefix = '@' :: (tagPrefix ++ ['-']) := rfl

theorem length_tagMarker (tagPrefix : Text) :
    (tagMarker tagPrefix).length = tagPrefix.length + 2 := by
  simp [tagMarker]

theorem tagMarker_ne_nil (tagPrefix : Text) : tagMarker tagPrefix ≠ [] := List.cons_ne_nil _ _

theorem not_tagMarker_isInfix {tagPrefix t : Text} (h : '@' ∉ t) : ¬ tagMarker tagPrefix <:+: t :=
  fun hoccurs => h (hoccurs.subset List.mem_cons_self)

theorem not_blank_defaultTagPrefix : ∀ c ∈ defaultTagPrefix, isBlank c = false := by
  have hall : defaultTagPrefix.all (!isBlank ·) = true := by decide
  simpa using hall

/-- A marker of a prefix without blanks lies on one side of any blank. -/
theorem notMem_tagMarker_of_isBlank {tagPrefix : Text} {c : Char}
    (hsolid : ∀ d ∈ tagPrefix, isBlank d = false) (hc : isBlank c = true) :
    c ∉ tagMarker tagPrefix := by
  intro hmem
  simp only [tagMarker_eq, List.mem_cons, List.mem_append, List.not_mem_nil, or_false] at hmem
  rcases hmem with rfl | hmem | rfl
  · exact absurd hc (by decide)
  · exact Bool.false_ne_true ((hsolid c hmem).symm.trans hc)
  · exact absurd hc (by decide)

theorem TagType.name_injective : ∀ a b : TagType, a.name = b.name → a = b := by
  intro a b h
  cases a <;> cases b <;> first | rfl | exact absurd h (by decide)

theorem TagType.not_blank_of_mem_name {type : TagType} {c : Char} (h : c ∈ type.name) :
    isBlank c = false ∧ c ≠ '@' := by
  have hnames : type.name.all (fun c => !isBlank c && c != '@') = true := by
    cases type <;> decide
  simpa using List.all_eq_true.1 hnames c h

theorem TagType.mem_all (type : TagType) : type ∈ TagType.all := by
  cases type <;> decide

namespace Tag

open Text (allBlank trim trimStart EndsFirst startsWith)

variable {tagPrefix marker t rest after stretch body : Text} {type type' : TagType} {c : Char}
variable {tag : Tag}

/-- Whether a text begins with the name of a kind and a blank, and what follows the name. -/
def Announces (t : Text) (type : TagType) (body : Text) : Prop :=
  t = type.name ++ body ∧ ∃ c rest, body = c :: rest ∧ isBlank c = true

/-- The name of a kind ends at the first blank. -/
theorem Announces.takeWhile_eq (h : Announces t type body) :
    t.takeWhile (!isBlank ·) = type.name := by
  obtain ⟨rfl, c, rest, rfl, hc⟩ := h
  rw [List.takeWhile_append_of_pos fun d hd => by rw [(TagType.not_blank_of_mem_name hd).1]; rfl,
    List.takeWhile_cons_of_neg (by simp [hc]), List.append_nil]

theorem Announces.unique {body' : Text} (h : Announces t type body) (h' : Announces t type' body') :
    type = type' ∧ body = body' := by
  have htype : type = type' :=
    TagType.name_injective _ _ (h.takeWhile_eq.symm.trans h'.takeWhile_eq)
  subst htype
  exact ⟨rfl, List.append_cancel_left (h.1.symm.trans h'.1)⟩

/-- What follows the name of one kind, if a text begins with it and a blank. -/
def typeAt? (t : Text) (type : TagType) : Option (TagType × Text) :=
  match Text.after? type.name t with
  | some (c :: rest) => if isBlank c then some (type, c :: rest) else none
  | _ => none

theorem typeAt?_eq_some_iff :
    typeAt? t type' = some (type, body) ↔ type' = type ∧ Announces t type body := by
  constructor
  · intro h
    unfold typeAt? at h
    split at h
    · next c rest hafter =>
      split at h
      · next hc =>
        cases h
        exact ⟨rfl, Text.after?_eq_some_iff.1 hafter, c, rest, rfl, hc⟩
      · cases h
    · cases h
  · rintro ⟨rfl, ht, c, rest, rfl, hc⟩
    rw [typeAt?, Text.after?_eq_some_iff.2 ht]
    exact if_pos hc

theorem readType?_eq_some_iff : readType? t = some (type, body) ↔ Announces t type body := by
  have hread : readType? t = TagType.all.findSome? (typeAt? t) := rfl
  rw [hread]
  constructor
  · intro h
    obtain ⟨type', -, hat⟩ := List.exists_of_findSome?_eq_some h
    exact (typeAt?_eq_some_iff.1 hat).2
  · intro h
    have hat : typeAt? t type = some (type, body) := typeAt?_eq_some_iff.2 ⟨rfl, h⟩
    have hsome : (TagType.all.findSome? (typeAt? t)).isSome = true :=
      List.findSome?_isSome_iff.2 ⟨type, TagType.mem_all type, by rw [hat]; rfl⟩
    obtain ⟨⟨found, behind⟩, hfound⟩ := Option.isSome_iff_exists.1 hsome
    obtain ⟨type', -, hat'⟩ := List.exists_of_findSome?_eq_some hfound
    obtain ⟨rfl, rfl⟩ := (typeAt?_eq_some_iff.1 hat').2.unique h
    exact hfound

/-- What a text announces is not changed by what follows it. -/
theorem Announces.append (h : Announces t type body) (rest : Text) :
    Announces (t ++ rest) type (body ++ rest) := by
  obtain ⟨rfl, c, more, rfl, hc⟩ := h
  exact ⟨by simp, c, more ++ rest, rfl, hc⟩

/-- A kind is announced before the next marker or not at all. -/
theorem Announces.of_append_marker (h : Announces (t ++ (tagMarker tagPrefix ++ rest)) type body) :
    ∃ body', Announces t type body' := by
  obtain ⟨ht, c, more, rfl, hc⟩ := h
  have hat : '@' ∉ type.name ++ [c] := by
    rw [List.mem_append, List.mem_singleton]
    rintro (hname | rfl)
    · exact (TagType.not_blank_of_mem_name hname).2 rfl
    · exact absurd hc (by decide)
  have hwithin : type.name ++ [c] <+: t ++ '@' :: (tagPrefix ++ ['-'] ++ rest) :=
    ⟨more, by rw [List.append_assoc, List.singleton_append, ← ht]; rfl⟩
  obtain ⟨body', hbody⟩ := Text.prefix_of_prefix_append_cons hat hwithin
  exact ⟨c :: body', by rw [← hbody, List.append_assoc, List.singleton_append], c, body', rfl, hc⟩

/-! ## Content -/

/-- Nothing is lost between content and what follows it. -/
theorem spanContent_eq (marker t : Text) :
    (spanContent marker t).1 ++ (spanContent marker t).2 = t := by
  induction t with
  | nil => rfl
  | cons c t ih =>
    rw [spanContent]
    split
    · rfl
    · rw [List.cons_append, ih]

theorem atContentEnd_of_startsWith (h : startsWith marker t = true) :
    atContentEnd marker t = true := by
  rw [atContentEnd, h, Bool.or_true]

theorem atContentEnd_cons_of_not (h : startsWith marker (c :: t) = false)
    (ht : c :: t ≠ ['\n']) : atContentEnd marker (c :: t) = false := by
  rw [atContentEnd, h, decide_eq_false ht]
  rfl

/-- Content ends at the next marker. -/
theorem spanContent_append_marker (h : EndsFirst (tagMarker tagPrefix) t) (rest : Text) :
    spanContent (tagMarker tagPrefix) (t ++ (tagMarker tagPrefix ++ rest)) =
      (t, tagMarker tagPrefix ++ rest) := by
  induction t with
  | nil =>
    have hend : atContentEnd (tagMarker tagPrefix) (tagMarker tagPrefix ++ rest) = true :=
      atContentEnd_of_startsWith (Text.startsWith_iff.2 (List.prefix_append _ _))
    exact if_pos hend
  | cons c t ih =>
    have hlong : c :: (t ++ (tagMarker tagPrefix ++ rest)) ≠ ['\n'] := by
      intro heq
      have hlength := congrArg List.length heq
      simp only [List.length_cons, List.length_append, length_tagMarker, List.length_nil] at hlength
      omega
    rw [List.cons_append, spanContent,
      if_neg (Bool.eq_false_iff.1 (atContentEnd_cons_of_not (h.not_startsWith rest) hlong)),
      ih h.of_cons]

/-- Where no marker comes, content runs to the end but for a line feed there. -/
theorem spanContent_of_not_isInfix (h : ¬ marker <:+: t) :
    (spanContent marker t).2 = [] ∨ (spanContent marker t).2 = ['\n'] := by
  induction t with
  | nil => exact .inl rfl
  | cons c t ih =>
    have hstart : startsWith marker (c :: t) = false := by
      rw [Bool.eq_false_iff]
      exact fun hstart => h (Text.startsWith_iff.1 hstart).isInfix
    by_cases hfeed : c :: t = ['\n']
    · have hspan : spanContent marker ['\n'] = ([], ['\n']) := if_pos (by simp [atContentEnd])
      rw [hfeed, hspan]
      exact .inr rfl
    · rw [spanContent, if_neg (Bool.eq_false_iff.1 (atContentEnd_cons_of_not hstart hfeed))]
      exact ih fun hlater => h (List.infix_cons_iff.2 (.inr hlater))

theorem readContent?_of_trimStart (h : trimStart t = c :: rest) :
    readContent? marker t =
      some (c :: (spanContent marker rest).1, (spanContent marker rest).2) := by
  unfold readContent?
  rw [h]

theorem exists_trimStart_cons (h : allBlank t = false) : ∃ c rest, trimStart t = c :: rest := by
  apply List.exists_cons_of_ne_nil
  intro hnil
  rw [Text.trimStart_eq_nil_iff, h] at hnil
  cases hnil

/-- Content before a marker is what follows the first blanks. -/
theorem readContent?_append_marker (h : allBlank body = false)
    (hfirst : EndsFirst (tagMarker tagPrefix) body) (rest : Text) :
    readContent? (tagMarker tagPrefix) (body ++ (tagMarker tagPrefix ++ rest)) =
      some (trimStart body, tagMarker tagPrefix ++ rest) := by
  obtain ⟨c, more, hstart⟩ := exists_trimStart_cons h
  obtain ⟨blanks, -, hbody⟩ := Text.exists_blanks_trimStart body
  have hmore : EndsFirst (tagMarker tagPrefix) more := by
    rw [hbody, hstart] at hfirst
    exact hfirst.of_append.of_cons
  have hall : trimStart (body ++ (tagMarker tagPrefix ++ rest)) =
      c :: (more ++ (tagMarker tagPrefix ++ rest)) := by
    rw [Text.trimStart_append_of_not h, hstart, List.cons_append]
  rw [readContent?_of_trimStart hall, spanContent_append_marker hmore, hstart]

/-- Content up to the end of a comment. Where all is blank, it takes two blanks to find it. -/
theorem readContent?_of_not_isInfix (h : allBlank body = false ∨ 2 ≤ body.length)
    (hnot : ¬ marker <:+: body) :
    ∃ raw after, readContent? marker body = some (raw, after) ∧ trim raw = trim body ∧
      (after = [] ∨ after = ['\n']) := by
  cases hblank : allBlank body with
  | false =>
    obtain ⟨c, more, hstart⟩ := exists_trimStart_cons hblank
    obtain ⟨blanks, hblanks, hbody⟩ := Text.exists_blanks_trimStart body
    have hmore : ¬ marker <:+: more := fun hoccurs => by
      rw [hbody, hstart] at hnot
      exact hnot (hoccurs.trans ((List.suffix_cons _ _).trans (List.suffix_append _ _)).isInfix)
    refine ⟨_, _, readContent?_of_trimStart hstart, ?_, spanContent_of_not_isInfix hmore⟩
    -- What is left behind the content is blank.
    have hafter : allBlank (spanContent marker more).2 = true := by
      rcases spanContent_of_not_isInfix hmore with hend | hend <;> rw [hend] <;> decide
    rw [← Text.trim_trimStart body, hstart]
    conv_rhs => rw [← spanContent_eq marker more, ← List.cons_append]
    rw [Text.trim_append_allBlank hafter]
  | true =>
    have hlong : 2 ≤ body.length := by simpa [hblank] using h
    match body, hlong with
    | first :: next :: more, _ =>
      have hread : readContent? marker (first :: next :: more) =
          ((next :: more).getLast?).map fun c => ([c], []) := by
        rw [readContent?, Text.trimStart_eq_nil_iff.2 hblank]
      obtain ⟨last, hlast⟩ := Option.isSome_iff_exists.1
        (List.getLast?_isSome.2 (List.cons_ne_nil next more))
      have hmem : last ∈ first :: next :: more :=
        List.mem_cons_of_mem _ (List.mem_of_getLast? hlast)
      refine ⟨[last], [], by rw [hread, hlast]; rfl, ?_, .inl rfl⟩
      rw [Text.trim_of_allBlank hblank,
        Text.trim_of_allBlank (by simp [allBlank, Text.isBlank_of_mem hblank hmem])]

/-- One blank at the end of a comment is no content. -/
theorem readContent?_of_blank (h : isBlank c = true) : readContent? marker [c] = none := by
  unfold readContent?
  rw [Text.trimStart_cons_of_blank h, Text.trimStart_nil]

/-- Blanks are passed over on the way to a marker, which then is the content. -/
theorem readContent?_blank_append_marker (h : allBlank body = true) (rest : Text) :
    readContent? (tagMarker tagPrefix) (body ++ (tagMarker tagPrefix ++ rest)) =
      some ('@' :: (spanContent (tagMarker tagPrefix) (tagPrefix ++ ['-'] ++ rest)).1,
        (spanContent (tagMarker tagPrefix) (tagPrefix ++ ['-'] ++ rest)).2) := by
  apply readContent?_of_trimStart
  rw [Text.trimStart_append_of_allBlank h]
  exact Text.trimStart_cons_of_not (by decide)

/-! ## Single tags -/

theorem readTag?_marker (marker stretch : Text) :
    readTag? marker (marker ++ stretch) =
      (readType? stretch).bind fun (type, body) =>
        (readContent? marker body).map fun (raw, after) => (ofRaw type raw, after) := by
  rw [readTag?, Text.after?_eq_some_iff.2 rfl, Option.bind_eq_bind, Option.bind_some]
  cases readType? stretch with
  | none => rfl
  | some announced =>
    obtain ⟨type, body⟩ := announced
    simp only [Option.bind_eq_bind, Option.bind_some]
    cases readContent? marker body with
    | none => rfl
    | some content => rfl

theorem readTag?_of_announces {raw : Text} (h : Announces stretch type body)
    (hread : readContent? marker body = some (raw, after)) :
    readTag? marker (marker ++ stretch) = some (ofRaw type raw, after) := by
  rw [readTag?_marker, readType?_eq_some_iff.2 h]
  simp only [Option.bind_some, hread, Option.map_some]

theorem readTag?_of_no_content (h : Announces stretch type body)
    (hread : readContent? marker body = none) : readTag? marker (marker ++ stretch) = none := by
  rw [readTag?_marker, readType?_eq_some_iff.2 h]
  simp only [Option.bind_some, hread, Option.map_none]

theorem readTag?_of_silent (h : ∀ type body, ¬ Announces stretch type body) :
    readTag? marker (marker ++ stretch) = none := by
  have htype : readType? stretch = none := by
    rw [Option.eq_none_iff_forall_not_mem]
    rintro ⟨type, body⟩ hsome
    exact h type body (readType?_eq_some_iff.1 hsome)
  rw [readTag?_marker, htype]
  rfl

theorem readTag?_of_not_startsWith (h : startsWith marker t = false) :
    readTag? marker t = none := by
  have hafter : Text.after? marker t = none := by
    rwa [startsWith, Option.isSome_eq_false_iff, Option.isNone_iff_eq_none] at h
  rw [readTag?, hafter]
  rfl

/-! ## The pass -/

theorem length_readContent? {raw : Text} (h : readContent? marker t = some (raw, after)) :
    after.length ≤ t.length := by
  obtain ⟨blanks, -, ht⟩ := Text.exists_blanks_trimStart t
  cases hstart : trimStart t with
  | nil =>
    unfold readContent? at h
    rw [hstart] at h
    match t, h with
    | first :: next :: more, h =>
      obtain ⟨last, -, hsome⟩ := Option.map_eq_some_iff.1 h
      cases hsome
      exact Nat.zero_le _
  | cons c rest =>
    rw [readContent?_of_trimStart hstart] at h
    cases h
    have hlength := congrArg List.length (spanContent_eq marker rest)
    rw [ht, hstart]
    simp only [List.length_append, List.length_cons] at hlength ⊢
    omega

/-- A tag takes up text, so the pass comes to an end. -/
theorem length_readTag? (h : readTag? marker t = some (tag, after)) : after.length < t.length := by
  cases hstart : startsWith marker t with
  | false =>
    rw [readTag?_of_not_startsWith hstart] at h
    cases h
  | true =>
    obtain ⟨stretch, rfl⟩ := Text.startsWith_iff.1 hstart
    rw [readTag?_marker, Option.bind_eq_some_iff] at h
    obtain ⟨⟨type, body⟩, htype, hcontent⟩ := h
    obtain ⟨⟨raw, behind⟩, hread, hsome⟩ := Option.map_eq_some_iff.1 hcontent
    cases hsome
    have hbehind := length_readContent? hread
    have hname : 0 < type.name.length := by
      cases type <;> decide
    rw [(readType?_eq_some_iff.1 htype).1]
    simp only [List.length_append]
    omega

theorem readSteps_eq_readSteps {steps steps' : Nat} (h : t.length ≤ steps)
    (h' : t.length ≤ steps') :
    readSteps marker steps t = readSteps marker steps' t := by
  induction steps generalizing t steps' with
  | zero =>
    obtain rfl := List.length_eq_zero_iff.1 (Nat.le_zero.1 h)
    cases steps' <;> rfl
  | succ steps ih =>
    cases t with
    | nil => cases steps' <;> rfl
    | cons c t =>
      cases steps' with
      | zero => exact absurd h' (by simp)
      | succ steps' =>
        rw [List.length_cons] at h h'
        rw [readSteps, readSteps]
        cases hread : readTag? marker (c :: t) with
        | none => exact ih (by omega) (by omega)
        | some found =>
          obtain ⟨tag, after⟩ := found
          have hafter := length_readTag? hread
          rw [List.length_cons] at hafter
          exact congrArg (tag :: ·) (ih (by omega) (by omega))

/-- The tags of a text after a marker is fixed. -/
def tagsFrom (marker t : Text) : List Tag := readSteps marker t.length t

theorem readTags_eq (tagPrefix comment : Text) :
    readTags tagPrefix comment = tagsFrom (tagMarker tagPrefix) comment := rfl

@[simp] theorem tagsFrom_nil (marker : Text) : tagsFrom marker [] = [] := rfl

theorem tagsFrom_cons_of_none (h : readTag? marker (c :: t) = none) :
    tagsFrom marker (c :: t) = tagsFrom marker t := by
  rw [tagsFrom, List.length_cons, readSteps, h, tagsFrom]

theorem tagsFrom_of_some (h : readTag? marker t = some (tag, after)) :
    tagsFrom marker t = tag :: tagsFrom marker after := by
  have hafter := length_readTag? h
  cases t with
  | nil => simp at hafter
  | cons c t =>
    rw [List.length_cons] at hafter
    rw [tagsFrom, List.length_cons, readSteps, h, tagsFrom]
    exact congrArg (tag :: ·) (readSteps_eq_readSteps (by omega) (Nat.le_refl _))

/-- Text without a marker has no tags. -/
theorem tagsFrom_of_not_isInfix (h : ¬ marker <:+: t) : tagsFrom marker t = [] := by
  induction t with
  | nil => rfl
  | cons c t ih =>
    have hstart : startsWith marker (c :: t) = false := by
      rw [Bool.eq_false_iff]
      exact fun hstart => h (Text.startsWith_iff.1 hstart).isInfix
    rw [tagsFrom_cons_of_none (readTag?_of_not_startsWith hstart)]
    exact ih fun hlater => h (List.infix_cons_iff.2 (.inr hlater))

/-- The pass goes on at the first marker. -/
theorem tagsFrom_append_marker (h : EndsFirst marker t) (rest : Text) :
    tagsFrom marker (t ++ (marker ++ rest)) = tagsFrom marker (marker ++ rest) := by
  induction t with
  | nil => rfl
  | cons c t ih =>
    rw [List.cons_append,
      tagsFrom_cons_of_none (readTag?_of_not_startsWith (h.not_startsWith rest)), ih h.of_cons]

/-! ## Stretches behind a marker -/

/-- A tag before the next marker. -/
theorem tagsFrom_stretch_marker (h : Announces stretch type body) (hbody : allBlank body = false)
    (hfirst : EndsFirst (tagMarker tagPrefix) stretch) (rest : Text) :
    tagsFrom (tagMarker tagPrefix)
        (tagMarker tagPrefix ++ (stretch ++ (tagMarker tagPrefix ++ rest))) =
      ofRaw type body :: tagsFrom (tagMarker tagPrefix) (tagMarker tagPrefix ++ rest) := by
  have hfirst' : EndsFirst (tagMarker tagPrefix) body := by
    rw [h.1] at hfirst
    exact hfirst.of_append
  have htag := readTag?_of_announces (h.append (tagMarker tagPrefix ++ rest))
    (readContent?_append_marker hbody hfirst' rest)
  rw [tagsFrom_of_some htag, ofRaw_congr (Text.trim_trimStart body)]

/-- The last tag of a comment. -/
theorem tagsFrom_stretch_end (h : Announces stretch type body)
    (hbody : allBlank body = false ∨ 2 ≤ body.length)
    (hnot : ¬ tagMarker tagPrefix <:+: stretch) :
    tagsFrom (tagMarker tagPrefix) (tagMarker tagPrefix ++ stretch) = [ofRaw type body] := by
  have hnot' : ¬ tagMarker tagPrefix <:+: body := by
    rw [h.1] at hnot
    exact fun hoccurs => hnot (hoccurs.trans (List.suffix_append _ _).isInfix)
  obtain ⟨raw, after, hread, hraw, hafter⟩ := readContent?_of_not_isInfix hbody hnot'
  have hend : tagsFrom (tagMarker tagPrefix) after = [] := by
    apply tagsFrom_of_not_isInfix
    intro hoccurs
    have hlength := hoccurs.length_le
    rw [length_tagMarker] at hlength
    rcases hafter with rfl | rfl <;> simp at hlength
  rw [tagsFrom_of_some (readTag?_of_announces h hread), ofRaw_congr hraw, hend]

end Tag

end DocGraph
