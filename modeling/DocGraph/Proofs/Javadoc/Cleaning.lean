import DocGraph.Proofs.Graph.Decoration
import DocGraph.Proofs.Javadoc.Date

/-!
# Cleaned content

Cleaning takes blanks and one star off either end of content and so leaves a part of it. What it
takes is what comment lines add around the text of a tag: a text with plain ends is left as it was
between the stars of its lines.

The two ends can be cleaned one after the other, and neither knows what the other is like. What is
left of a graph differs from it by blank lines.
-/

namespace DocGraph

namespace Tag

open Text (allBlank trim trimStart trimEnd)

variable {t raw blanks before after margin a b : Text} {type : TagType} {c : Char}
variable {start : Text → Text}

/-! ## Stars -/

theorem dropLeadingStar_of_not (h : t.head? ≠ some '*') : dropLeadingStar t = t := by
  unfold dropLeadingStar
  split
  · exact absurd rfl h
  · rfl

theorem dropTrailingStar_of_not (h : t.getLast? ≠ some '*') : dropTrailingStar t = t := if_neg h

theorem dropTrailingStar_concat_star (t : Text) : dropTrailingStar (t ++ ['*']) = trimEnd t := by
  rw [dropTrailingStar, if_pos (List.getLast?_concat ..), List.dropLast_concat]

/-- Either there is no star at the end, or there is something before it. -/
theorem trailingStar_cases (t : Text) : t.getLast? ≠ some '*' ∨ ∃ init, t = init ++ ['*'] := by
  by_cases h : t.getLast? = some '*'
  · exact .inr ⟨t.dropLast, (List.dropLast_append_getLast? '*' h).symm⟩
  · exact .inl h

theorem leadingStar_cases (t : Text) : t.head? ≠ some '*' ∨ ∃ rest, t = '*' :: rest := by
  cases t with
  | nil => exact .inl (by simp)
  | cons c rest =>
    by_cases h : c = '*'
    · exact .inr ⟨rest, by rw [h]⟩
    · exact .inl (by simpa using h)

/-! ## Content -/

theorem clean_congr {a b : Text} (h : trim a = trim b) : clean a = clean b := by
  rw [clean, clean, h]

theorem clean_of_allBlank (h : allBlank t = true) : clean t = [] := by
  rw [clean, Text.trim_of_allBlank h]
  rfl

theorem dropLeadingStar_isInfix (t : Text) : dropLeadingStar t <:+: t := by
  rcases leadingStar_cases t with h | ⟨rest, rfl⟩
  · rw [dropLeadingStar_of_not h]
  · obtain ⟨blanks, -, hrest⟩ := Text.exists_blanks_trimStart rest
    exact ⟨'*' :: blanks, [], by rw [dropLeadingStar, List.append_nil, List.cons_append, ← hrest]⟩

theorem dropTrailingStar_isPrefix (t : Text) : dropTrailingStar t <+: t := by
  rcases trailingStar_cases t with h | ⟨init, rfl⟩
  · rw [dropTrailingStar_of_not h]
  · obtain ⟨blanks, -, hinit⟩ := Text.exists_trimEnd_blanks init
    rw [dropTrailingStar_concat_star]
    exact ⟨blanks ++ ['*'], by rw [← List.append_assoc, ← hinit]⟩

/-- Cleaned content is a part of the content. -/
theorem clean_isInfix (t : Text) : clean t <:+: t :=
  (dropTrailingStar_isPrefix _).isInfix.trans
    ((dropLeadingStar_isInfix _).trans (Text.trim_isInfix t))

/-! ## Either end -/

/-- What cleaning leaves at the start of content. -/
def cleanStart (t : Text) : Text := dropLeadingStar (trimStart t)

/-- What cleaning leaves at the end of content. -/
def cleanEnd (t : Text) : Text := dropTrailingStar (trimEnd t)

/-- A star at the end may be taken off before the blanks in front. -/
theorem dropTrailingStar_trimStart (t : Text) :
    dropTrailingStar (trimStart t) = trimStart (dropTrailingStar t) := by
  rcases trailingStar_cases t with hlast | ⟨init, rfl⟩
  · obtain ⟨blanks, -, ht⟩ := Text.exists_blanks_trimStart t
    have hstart : (trimStart t).getLast? ≠ some '*' := by
      intro hstar
      rw [ht, List.getLast?_append, hstar] at hlast
      exact hlast rfl
    rw [dropTrailingStar_of_not hlast, dropTrailingStar_of_not hstart]
  · rw [dropTrailingStar_concat_star]
    cases hinit : allBlank init with
    | true =>
      rw [Text.trimStart_append_of_allBlank hinit, Text.trimEnd_of_allBlank hinit]
      decide
    | false =>
      rw [Text.trimStart_append_of_not hinit, dropTrailingStar_concat_star, Text.trimStart_trimEnd,
        trim]

theorem trimStart_cleanEnd (t : Text) : trimStart (cleanEnd t) = dropTrailingStar (trim t) := by
  rw [cleanEnd, ← dropTrailingStar_trimStart, Text.trimStart_trimEnd]

/-- A star at the end may be taken off before one in front. -/
theorem dropTrailingStar_dropLeadingStar (t : Text) :
    dropTrailingStar (dropLeadingStar t) = dropLeadingStar (dropTrailingStar t) := by
  rcases leadingStar_cases t with hhead | ⟨rest, rfl⟩
  · have hhead' : (dropTrailingStar t).head? ≠ some '*' := by
      obtain ⟨dropped, ht⟩ := dropTrailingStar_isPrefix t
      intro hstar
      rw [← ht, List.head?_append, hstar] at hhead
      exact hhead rfl
    rw [dropLeadingStar_of_not hhead, dropLeadingStar_of_not hhead']
  · rw [dropLeadingStar, dropTrailingStar_trimStart]
    rcases trailingStar_cases rest with hlast | ⟨init, rfl⟩
    · rw [dropTrailingStar_of_not hlast]
      cases rest with
      | nil => decide
      | cons d rest =>
        rw [dropTrailingStar_of_not (by rwa [List.getLast?_cons_cons]), dropLeadingStar]
    · rw [dropTrailingStar_concat_star, ← List.cons_append, dropTrailingStar_concat_star,
        Text.trimEnd_cons_of_not (by decide), dropLeadingStar]

theorem clean_eq (t : Text) : clean t = cleanStart (cleanEnd t) := by
  rw [clean, dropTrailingStar_dropLeadingStar, cleanStart, trimStart_cleanEnd]

/-- The end is cleaned behind a character that stays. A star stays before what is not blank. -/
theorem cleanEnd_append_cons (hc : isBlank c = false) (hstar : c = '*' → allBlank b = false) :
    cleanEnd (a ++ c :: b) = a ++ c :: cleanEnd b := by
  have hnot : allBlank (c :: b) = false := by rw [Text.allBlank_cons, hc, Bool.false_and]
  rw [cleanEnd, cleanEnd, Text.trimEnd_append_of_not hnot, Text.trimEnd_cons_of_not hc]
  rcases trailingStar_cases (trimEnd b) with hlast | ⟨init, hinit⟩
  · rw [dropTrailingStar_of_not hlast]
    apply dropTrailingStar_of_not
    rw [List.getLast?_append_of_ne_nil _ (List.cons_ne_nil _ _)]
    cases hb : trimEnd b with
    | nil =>
      rw [List.getLast?_singleton]
      rintro ⟨⟩
      exact Bool.false_ne_true ((hstar rfl).symm.trans (Text.trimEnd_eq_nil_iff.1 hb))
    | cons d rest => rwa [List.getLast?_cons_cons, ← hb]
  · have hinit' : allBlank (c :: init) = false := by rw [Text.allBlank_cons, hc, Bool.false_and]
    rw [hinit, dropTrailingStar_concat_star, ← List.cons_append, ← List.append_assoc,
      dropTrailingStar_concat_star, Text.trimEnd_append_of_not hinit', Text.trimEnd_cons_of_not hc]

theorem cleanEnd_append_star {gap rest : Text} (hgap : allBlank gap = true)
    (hrest : allBlank rest = true) (t : Text) :
    cleanEnd (t ++ (gap ++ '*' :: rest)) = trimEnd t := by
  rw [← List.singleton_append, ← List.append_assoc, ← List.append_assoc, cleanEnd,
    Text.trimEnd_append_of_allBlank hrest, Text.trimEnd_concat_of_not (by decide),
    dropTrailingStar_concat_star, Text.trimEnd_append_of_allBlank hgap]

/-- A text that ends plainly is left of it and a margin. -/
theorem cleanEnd_append_of_isMargin (hend : trimEnd t = t) (hlast : t.getLast? ≠ some '*')
    (hafter : IsMargin after) : cleanEnd (t ++ after) = t := by
  cases hafter with
  | blank hblanks =>
    rw [cleanEnd, Text.trimEnd_append_of_allBlank hblanks, hend, dropTrailingStar_of_not hlast]
  | star hgap hrest => rw [cleanEnd_append_star hgap hrest, hend]

/-- How the start is cleaned: of blanks, and of a star where none was taken in front of it. -/
inductive CleansStart : (Text → Text) → Prop
  | blanks : CleansStart trimStart
  | star : CleansStart cleanStart

/-- Cleaning takes the margin of the first line, and then cleans what it finds behind it. -/
theorem exists_cleansStart (h : IsMargin margin) :
    ∃ start, CleansStart start ∧ ∀ t, clean (margin ++ t) = start (cleanEnd t) := by
  cases h with
  | blank hblanks =>
    refine ⟨cleanStart, .star, fun t => ?_⟩
    rw [clean_congr (Text.trim_append_of_allBlank hblanks), clean_eq]
  | @star before after hbefore hafter =>
    refine ⟨trimStart, .blanks, fun t => ?_⟩
    have htrim : trim (before ++ '*' :: after ++ t) = '*' :: trimEnd (after ++ t) := by
      rw [List.append_assoc, Text.trim_append_of_allBlank hbefore, List.cons_append,
        Text.trim_cons_of_not (by decide)]
    rw [clean, htrim, dropLeadingStar, Text.trimStart_trimEnd, Text.trim_append_of_allBlank hafter,
      trimStart_cleanEnd]

theorem CleansStart.isInfix (h : CleansStart start) (t : Text) : start t <:+: t := by
  have hblanks : trimStart t <:+: t := (List.dropWhile_suffix isBlank).isInfix
  cases h with
  | blanks => exact hblanks
  | star => exact (dropLeadingStar_isInfix _).trans hblanks

/-- The start is cleaned before a character that stays. -/
theorem CleansStart.append_cons (h : CleansStart start) (hc : isBlank c = false) (hstar : c ≠ '*') :
    start (a ++ c :: b) = start a ++ c :: b := by
  cases h with
  | blanks => exact Text.trimStart_append_cons hc
  | star =>
    rw [cleanStart, cleanStart, Text.trimStart_append_cons hc]
    rcases leadingStar_cases (trimStart a) with hhead | ⟨rest, hrest⟩
    · have hhead' : (trimStart a ++ c :: b).head? ≠ some '*' := by
        cases ha : trimStart a with
        | nil => simpa using hstar
        | cons d rest => simpa [ha] using hhead
      rw [dropLeadingStar_of_not hhead, dropLeadingStar_of_not hhead']
    · rw [hrest, List.cons_append, dropLeadingStar, dropLeadingStar, Text.trimStart_append_cons hc]

/-- A text that starts plainly is left as it is. -/
theorem CleansStart.eq_self (h : CleansStart start) (ht : trimStart t = t)
    (hhead : t.head? ≠ some '*') : start t = t := by
  cases h with
  | blanks => exact ht
  | star => rw [cleanStart, ht, dropLeadingStar_of_not hhead]

/-- What is taken off the start of a graph is decoration. -/
theorem CleansStart.padded (h : CleansStart start)
    (hstarless : ∀ line ∈ bareLines (a ++ b), line.head? ≠ some '*') :
    Padded (bareLines (start a ++ b)) (bareLines (a ++ b)) := by
  have hblanks : ∀ t, Padded (bareLines (trimStart t ++ b)) (bareLines (t ++ b)) := by
    intro t
    obtain ⟨blanks, hblanks, ht⟩ := Text.exists_blanks_trimStart t
    conv_rhs => rw [ht, List.append_assoc]
    exact padded_append_left hblanks _
  cases h with
  | blanks => exact hblanks a
  | star =>
    have ha := hblanks a
    rw [cleanStart]
    rcases leadingStar_cases (trimStart a) with hhead | ⟨rest, hrest⟩
    · rwa [dropLeadingStar_of_not hhead]
    · rw [hrest] at ha ⊢
      have hstar := padded_star_cons fun line hline => hstarless line (ha.mem hline)
      exact (hblanks rest).trans (hstar.trans ha)

/-- A text with plain ends is what remains of it between margins. -/
theorem clean_framed (htrim : trim t = t) (hhead : t.head? ≠ some '*')
    (hlast : t.getLast? ≠ some '*') (hbefore : IsMargin before) (hafter : IsMargin after) :
    clean (before ++ (t ++ after)) = t := by
  obtain ⟨hstart, hend⟩ := Text.trimmed_iff.1 htrim
  obtain ⟨start, hcleans, hclean⟩ := exists_cleansStart hbefore
  rw [hclean, cleanEnd_append_of_isMargin hend hlast hafter, hcleans.eq_self hstart hhead]

/-! ## Tags of content -/

theorem ofRaw_congr {a b : Text} (h : trim a = trim b) (type : TagType) :
    ofRaw type a = ofRaw type b := by
  rw [ofRaw, ofRaw, clean_congr h]

theorem ofRaw_of_dateless (h : Dateless raw) (type : TagType) :
    ofRaw type raw = ⟨type, clean raw, none⟩ := by
  rw [ofRaw, takeDate?_eq_none_iff.2 (h.of_isInfix (clean_isInfix raw))]

theorem ofRaw_of_allBlank (h : allBlank raw = true) (type : TagType) :
    ofRaw type raw = ⟨type, [], none⟩ := by
  rw [ofRaw, clean_of_allBlank h]
  rfl

end Tag

end DocGraph
