import DocGraph.Proofs.Javadoc.Marker
import Mathlib.Data.List.DropRight

/-!
# The ends of extracted content

Content is trimmed, and cleaning it of stars trims it again. Taking a date out removes the blanks
behind the date, but not those before it. So content never begins with a blank, and it ends with one
exactly where a date behind a blank was the end of it.
-/

namespace DocGraph

namespace Tag

open Text (allBlank trim trimStart trimEnd)

variable {marker t after : Text} {tag : Tag}

/-- Whether the first date of a text is the end of it and stands behind a blank. -/
def EndsInDate (t : Text) : Prop :=
  ∃ before c date, t = before ++ c :: bracketed date ∧ isBlank c = true ∧ IsDate date ∧
    Dateless (before ++ [c])

/-- Raw contents that stand in a text one behind the other, each behind a marker, the name of its
kind and blanks. -/
inductive Contents (marker : Text) : Text → List (TagType × Text) → Prop
  | none (t : Text) : Contents marker t []
  | tag (before : Text) (type : TagType) {gap : Text} (raw : Text) {after : Text}
      {contents : List (TagType × Text)} (hblank : allBlank gap = true) (hne : gap ≠ [])
      (hlater : Contents marker after contents) :
      Contents marker (before ++ (marker ++ (type.name ++ (gap ++ (raw ++ after)))))
        ((type, raw) :: contents)

/-! ## Cleaning -/

theorem trim_dropLeadingStar (h : trim t = t) : trim (dropLeadingStar t) = dropLeadingStar t := by
  rcases leadingStar_cases t with hhead | ⟨rest, rfl⟩
  · rwa [dropLeadingStar_of_not hhead]
  · rw [Text.trim_cons_of_not (by decide), List.cons.injEq] at h
    rw [dropLeadingStar, Text.trim_trimStart, ← Text.trimStart_trimEnd, h.2]

theorem trim_dropTrailingStar (h : trim t = t) :
    trim (dropTrailingStar t) = dropTrailingStar t := by
  rcases trailingStar_cases t with hlast | ⟨init, rfl⟩
  · rwa [dropTrailingStar_of_not hlast]
  · have hinit := (Text.trimmed_iff.1 h).1
    rw [Text.trimStart_append_cons (by decide), List.append_cancel_right_eq] at hinit
    rw [dropTrailingStar_concat_star, Text.trim_trimEnd, trim, hinit]

/-- Content is trimmed before a date is taken out. -/
theorem trim_clean (t : Text) : trim (clean t) = clean t :=
  trim_dropTrailingStar (trim_dropLeadingStar (Text.trim_trim t))

/-! ## Taking a date out -/

variable {others date : Text}

theorem trimStart_of_takeDate? (ht : trim t = t) (h : takeDate? t = some (date, others)) :
    trimStart others = others := by
  obtain ⟨before, after, rfl, -, -, rfl⟩ := takeDate?_eq_some_iff.1 h
  cases before with
  | nil => exact List.dropWhile_idempotent isBlank after
  | cons c before =>
    have hstart := (Text.trimmed_iff.1 ht).1
    rw [Text.trimStart_eq_self_iff] at hstart ⊢
    exact hstart

/-- What is left of trimmed content ends with a blank where the date was the end of it. -/
theorem trimEnd_of_takeDate? (ht : trim t = t) (h : takeDate? t = some (date, others)) :
    trimEnd others = others ↔ ¬ EndsInDate t := by
  have hend := (Text.trimmed_iff.1 ht).2
  rw [Text.trimEnd_eq_self_iff] at hend ⊢
  constructor
  · rintro hothers ⟨before, c, date', rfl, hc, hdate', hless'⟩
    have htake := takeDate?_append hdate' hless' []
    rw [List.append_nil, List.append_assoc, List.singleton_append, h, Option.some.injEq,
      Prod.mk.injEq] at htake
    rw [htake.2] at hothers
    simp [hc] at hothers
  · obtain ⟨before, after, rfl, hdate, hless, rfl⟩ := takeDate?_eq_some_iff.1 h
    intro hnot
    cases hafter : allBlank after with
    | false =>
      -- The content goes on behind the date, and so ends as before.
      have hne : trimStart after ≠ [] := by
        rw [Ne, Text.trimStart_eq_nil_iff, hafter]
        exact Bool.false_ne_true
      obtain ⟨blanks, -, hblanks⟩ := Text.exists_blanks_trimStart after
      rw [hblanks, ← List.append_assoc, ← List.append_assoc,
        List.getLast?_append_of_ne_nil _ hne] at hend
      rwa [List.getLast?_append_of_ne_nil _ hne]
    | true =>
      have hnil : after = [] := by
        by_contra hne
        obtain ⟨c, hc⟩ := Option.isSome_iff_exists.1 (List.getLast?_isSome.2 hne)
        rw [← List.append_assoc, List.getLast?_append_of_ne_nil _ hne, hc] at hend
        simp [Text.isBlank_of_mem hafter (List.mem_of_getLast? hc)] at hend
      rw [hnil, Text.trimStart_nil, List.append_nil, Bool.eq_false_iff]
      intro hblank
      obtain ⟨c, hc, hany⟩ := (Option.any_eq_true _ _).1 hblank
      obtain ⟨init, rfl⟩ := List.getLast?_eq_some_iff.1 hc
      exact hnot ⟨init, c, date, by rw [hnil]; simp, hany, hdate, hless⟩

/-- The content of a tag never begins with a blank, and it ends with one only where a date behind a
blank was its end. -/
theorem trim_content_ofRaw (type : TagType) (raw : Text) :
    trimStart (ofRaw type raw).content = (ofRaw type raw).content ∧
      ((ofRaw type raw).timestamp = none →
        trim (ofRaw type raw).content = (ofRaw type raw).content) ∧
      (trim (ofRaw type raw).content = (ofRaw type raw).content ↔ ¬ EndsInDate (clean raw)) := by
  have hclean := trim_clean raw
  rw [ofRaw]
  cases htake : takeDate? (clean raw) with
  | none =>
    refine ⟨(Text.trimmed_iff.1 hclean).1, fun _ => hclean, iff_of_true hclean ?_⟩
    rintro ⟨before, c, date, hends, -, hdate, -⟩
    refine takeDate?_eq_none_iff.1 htake date hdate ?_
    rw [hends]
    exact ((List.suffix_cons _ _).trans (List.suffix_append _ _)).isInfix
  | some found =>
    obtain ⟨date, others⟩ := found
    have hstart := trimStart_of_takeDate? hclean htake
    refine ⟨hstart, fun hnone => absurd hnone (Option.some_ne_none date), ?_⟩
    rw [Text.trimmed_iff, ← trimEnd_of_takeDate? hclean htake]
    exact and_iff_right hstart

/-! ## The contents of a comment -/

/-- Behind the kind of a tag stand blanks, its content and what is left. -/
theorem exists_gap_of_readContent? {raw : Text} {c : Char} (hc : isBlank c = true)
    (h : readContent? marker (c :: t) = some (raw, after)) :
    ∃ gap, allBlank gap = true ∧ gap ≠ [] ∧ c :: t = gap ++ (raw ++ after) := by
  obtain ⟨blanks, hblanks, ht⟩ := Text.exists_blanks_trimStart t
  have hskip : trimStart (c :: t) = trimStart t := Text.trimStart_cons_of_blank hc
  have hgap : allBlank (c :: blanks) = true := by rw [Text.allBlank_cons, hc, hblanks]; rfl
  cases hstart : trimStart t with
  | cons d rest =>
    rw [readContent?_of_trimStart (hskip.trans hstart), Option.some.injEq, Prod.mk.injEq] at h
    obtain ⟨rfl, rfl⟩ := h
    refine ⟨c :: blanks, hgap, List.cons_ne_nil _ _, ?_⟩
    rw [List.cons_append, List.cons_append, spanContent_eq, ← hstart, ← ht]
  | nil =>
    unfold readContent? at h
    rw [hskip, hstart] at h
    cases t with
    | nil => cases h
    | cons next rest =>
      obtain ⟨last, hlast, hsome⟩ := Option.map_eq_some_iff.1 h
      rw [Prod.mk.injEq] at hsome
      obtain ⟨rfl, rfl⟩ := hsome
      obtain ⟨init, hinit⟩ := List.getLast?_eq_some_iff.1 hlast
      rw [hinit, Text.trimStart_eq_nil_iff, Text.allBlank_append, Bool.and_eq_true] at hstart
      refine ⟨c :: init, by rw [Text.allBlank_cons, hc, hstart.1]; rfl, List.cons_ne_nil _ _, ?_⟩
      rw [hinit, List.append_nil, List.cons_append]

theorem exists_raw_of_readTag? (h : readTag? marker t = some (tag, after)) :
    ∃ type raw gap, tag = ofRaw type raw ∧ allBlank gap = true ∧ gap ≠ [] ∧
      t = marker ++ (type.name ++ (gap ++ (raw ++ after))) := by
  cases hstart : Text.startsWith marker t with
  | false =>
    rw [readTag?_of_not_startsWith hstart] at h
    cases h
  | true =>
    obtain ⟨stretch, rfl⟩ := Text.startsWith_iff.1 hstart
    rw [readTag?_marker, Option.bind_eq_some_iff] at h
    obtain ⟨⟨type, body⟩, htype, hcontent⟩ := h
    obtain ⟨⟨raw, behind⟩, hread, hsome⟩ := Option.map_eq_some_iff.1 hcontent
    rw [Prod.mk.injEq] at hsome
    obtain ⟨rfl, rfl⟩ := hsome
    obtain ⟨rfl, c, rest, rfl, hc⟩ := readType?_eq_some_iff.1 htype
    obtain ⟨gap, hblank, hne, hbody⟩ := exists_gap_of_readContent? hc hread
    exact ⟨type, raw, gap, rfl, hblank, hne, by rw [hbody]⟩

theorem Contents.append_left {contents : List (TagType × Text)} (h : Contents marker t contents)
    (lead : Text) : Contents marker (lead ++ t) contents := by
  cases h with
  | none => exact .none _
  | tag before type raw hblank hne hlater =>
    rw [← List.append_assoc]
    exact .tag (lead ++ before) type raw hblank hne hlater

/-- The pass reads contents one behind the other. -/
theorem exists_contents (marker : Text) (steps : Nat) (t : Text) :
    ∃ contents, Contents marker t contents ∧
      readSteps marker steps t = contents.map fun content => ofRaw content.1 content.2 := by
  induction steps generalizing t with
  | zero => exact ⟨[], .none t, rfl⟩
  | succ steps ih =>
    cases t with
    | nil => exact ⟨[], .none [], rfl⟩
    | cons c rest =>
      cases hread : readTag? marker (c :: rest) with
      | none =>
        obtain ⟨contents, hcontents, htags⟩ := ih rest
        exact ⟨contents, hcontents.append_left [c], by rw [readSteps, hread, htags]⟩
      | some found =>
        obtain ⟨tag, after⟩ := found
        obtain ⟨type, raw, gap, htag, hblank, hne, ht⟩ := exists_raw_of_readTag? hread
        obtain ⟨contents, hcontents, htags⟩ := ih after
        refine ⟨(type, raw) :: contents, ?_, ?_⟩
        · rw [ht]
          exact .tag [] type raw hblank hne hcontents
        · rw [readSteps, hread, List.map_cons, ← htags, ← htag]

/-- The tags of a comment come from raw contents that stand in it one behind the other. Such a
content is read without a blank in front, and without one behind it exactly if it does not, once
cleaned, end in a date behind a blank that is the first date of it. -/
theorem readTags_trimmed_iff (tagPrefix comment : Text) :
    ∃ contents, Contents (tagMarker tagPrefix) comment contents ∧
      readTags tagPrefix comment = (contents.map fun content => ofRaw content.1 content.2) ∧
      ∀ type raw, (type, raw) ∈ contents →
        trimStart (ofRaw type raw).content = (ofRaw type raw).content ∧
        ((ofRaw type raw).timestamp = none →
          trim (ofRaw type raw).content = (ofRaw type raw).content) ∧
        (trim (ofRaw type raw).content = (ofRaw type raw).content ↔
          ¬ EndsInDate (clean raw)) := by
  obtain ⟨contents, hcontents, htags⟩ :=
    exists_contents (tagMarker tagPrefix) comment.length comment
  exact ⟨contents, hcontents, htags, fun type raw _ => trim_content_ofRaw type raw⟩

/-- A date inside content leaves no blank at its end. -/
theorem readTags_trimmed_of_inner_date :
    let comment := "\n * @aicontext-decision Use [2024-03-15] optimistic locking.\n ".toList
    let tag : Tag := ⟨.decision, "Use optimistic locking.".toList, some "2024-03-15".toList⟩
    readTags defaultTagPrefix comment = [tag] ∧
      ∃ type raw, ofRaw type raw = tag ∧ trimStart tag.content = tag.content ∧
        trim tag.content = tag.content ∧ ¬ EndsInDate (clean raw) := by
  intro comment tag
  have htags : readTags defaultTagPrefix comment = [tag] := by decide +kernel
  have htrim : trim tag.content = tag.content := by decide +kernel
  obtain ⟨contents, -, hmap, hends⟩ := readTags_trimmed_iff defaultTagPrefix comment
  obtain ⟨⟨type, raw⟩, rfl, htag⟩ := List.map_eq_singleton_iff.1 (hmap.symm.trans htags)
  obtain ⟨hstart, -, hiff⟩ := hends type raw List.mem_cons_self
  have hraw : ofRaw type raw = tag := htag
  rw [hraw] at hstart hiff
  exact ⟨htags, type, raw, hraw, hstart, htrim, hiff.1 htrim⟩

/-- A date at the end of content leaves the blank before it. -/
theorem readTags_keeps_blank_before_date :
    let comment := "\n * @aicontext-decision Use optimistic locking. [2024-03-15]\n ".toList
    readTags defaultTagPrefix comment =
        [⟨.decision, "Use optimistic locking. ".toList, some "2024-03-15".toList⟩] ∧
      ∃ tag ∈ readTags defaultTagPrefix comment, trim tag.content ≠ tag.content := by
  decide +kernel

end Tag

end DocGraph
