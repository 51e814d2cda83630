import DocGraph.Console.Screen
import DocGraph.Proofs.Text.Pieces

/-!
# What a screen changes

A text is shown as it is unless it holds a tab, a control character that would move the cursor, or a
code that names a picture. The codes of a text are in its words: cut at its colons, a word has a
code in every second piece that is not the last one.

What stands in one line does not change how another line is shown.
-/

namespace DocGraph.Screen

/-- Every second text of a list, without the last one of the list. -/
def secondAmong : List Text → List Text
  | _ :: name :: behind :: rest => name :: secondAmong (behind :: rest)
  | _ => []

/-- The codes of a text: what stands between two colons of a word, where a colon belongs to one code
only. -/
def codes (t : Text) : List Text :=
  (Text.pieces isBlank t).flatMap fun word => secondAmong (Text.pieces (· == ':') word)

/-- Whether a character is shown as it is wherever it stands. -/
def isClear (c : Char) : Bool := c ≠ ':' && c ≠ '\t' && !movesCursor c

variable {t body after rest : Text} {c : Char}

theorem isClear_eq_true_iff : isClear c = true ↔ c ≠ ':' ∧ c ≠ '\t' ∧ movesCursor c = false := by
  simp [isClear, and_assoc]

/-! ## Looking for a colon -/

theorem untilColon?_append (h : ∀ c ∈ body, c ≠ ':' ∧ isBlank c = false) :
    untilColon? (body ++ ':' :: after) = some (body, after) := by
  induction body with
  | nil => rfl
  | cons c body ih =>
    obtain ⟨⟨hcolon, hblank⟩, hbody⟩ := List.forall_mem_cons.1 h
    rw [List.cons_append, untilColon?, if_neg hcolon, hblank, if_neg Bool.false_ne_true, ih hbody]
    rfl

theorem of_untilColon? (h : untilColon? t = some (body, after)) :
    t = body ++ ':' :: after ∧ ∀ c ∈ body, c ≠ ':' ∧ isBlank c = false := by
  induction t generalizing body with
  | nil => cases h
  | cons c t ih =>
    rw [untilColon?] at h
    split at h
    · next hcolon =>
      cases h
      exact ⟨by rw [hcolon, List.nil_append], by simp⟩
    split at h
    · cases h
    · next hcolon hblank =>
      obtain ⟨⟨inner, rest⟩, hfound, hpair⟩ := Option.map_eq_some_iff.1 h
      cases hpair
      obtain ⟨rfl, hinner⟩ := ih hfound
      exact ⟨rfl, List.forall_mem_cons.2 ⟨⟨hcolon, Bool.eq_false_iff.2 hblank⟩, hinner⟩⟩

theorem length_lt_of_untilColon? (h : untilColon? t = some (body, after)) :
    after.length < t.length := by
  rw [(of_untilColon? h).1, List.length_append, List.length_cons]
  omega

/-- A colon behind a line is none in it. -/
theorem untilColon?_append_newline (line t : Text) :
    untilColon? (line ++ '\n' :: t) =
      (untilColon? line).map fun found => (found.1, found.2 ++ '\n' :: t) := by
  induction line with
  | nil => rfl
  | cons c line ih =>
    rw [List.cons_append, untilColon?, untilColon?]
    split
    · rfl
    · split
      · rfl
      · rw [ih]
        cases untilColon? line <;> rfl

/-- A text is read in steps: a character that is no colon, a colon that opens no code, or a code. -/
theorem code_induction {motive : Text → Prop} (nil : motive [])
    (plain : ∀ c t, c ≠ ':' → motive t → motive (c :: t))
    (bare : ∀ t, untilColon? t = none → motive t → motive (':' :: t))
    (code : ∀ body after t, untilColon? t = some (body, after) → motive after → motive (':' :: t))
    (t : Text) : motive t := by
  induction hlength : t.length using Nat.strong_induction_on generalizing t with
  | _ length ih =>
    cases t with
    | nil => exact nil
    | cons c rest =>
      have hrest := ih rest.length (by rw [← hlength, List.length_cons]; omega) rest rfl
      by_cases hcolon : c = ':'
      · subst hcolon
        cases hfound : untilColon? rest with
        | none => exact bare rest hfound hrest
        | some found =>
          obtain ⟨body, after⟩ := found
          have hafter := length_lt_of_untilColon? hfound
          refine code body after rest hfound (ih after.length ?_ after rfl)
          rw [← hlength, List.length_cons]
          omega
      · exact plain c rest hcolon hrest

/-! ## The codes of a text -/

theorem secondAmong_head (a b : Text) (more : List Text) :
    secondAmong (a :: more) = secondAmong (b :: more) := by
  match more with
  | [] => rfl
  | [_] => rfl
  | _ :: _ :: _ => rfl

theorem codes_cons (h : c ≠ ':') : codes (c :: t) = codes t := by
  obtain ⟨word, more, hwords⟩ := List.exists_cons_of_ne_nil (Text.pieces_ne_nil isBlank t)
  cases hblank : isBlank c with
  | true =>
    rw [codes, Text.pieces_cons_of_separator hblank, List.flatMap_cons, codes]
    rfl
  | false =>
    obtain ⟨piece, pieces, hpieces⟩ :=
      List.exists_cons_of_ne_nil (Text.pieces_ne_nil (· == ':') word)
    have hcolon : (c == ':') = false := beq_eq_false_iff_ne.2 h
    rw [codes, codes, hwords, Text.pieces_cons_of_not hblank hwords, List.flatMap_cons,
      List.flatMap_cons, hpieces, @Text.pieces_cons_of_not (· == ':') word c piece pieces hcolon
        hpieces, secondAmong_head (c :: piece) piece]

theorem codes_append_of_notMem {a : Text} (h : ':' ∉ a) : codes (a ++ t) = codes t := by
  induction a with
  | nil => rfl
  | cons c a ih =>
    rw [List.mem_cons, not_or] at h
    rw [List.cons_append, codes_cons (Ne.symm h.1), ih h.2]

theorem codes_of_notMem (h : ':' ∉ t) : codes t = [] := by
  have hnil := @codes_append_of_notMem [] t h
  rw [List.append_nil] at hnil
  exact hnil

/-- Where no colon ends a code, the first word holds none. -/
theorem notMem_of_untilColon?_eq_none {word : Text} {more : List Text}
    (h : untilColon? t = none) (hwords : Text.pieces isBlank t = word :: more) : ':' ∉ word := by
  induction t generalizing word more with
  | nil =>
    cases hwords
    simp
  | cons c t ih =>
    have hcolon : c ≠ ':' := by
      rintro rfl
      cases h
    rw [untilColon?, if_neg hcolon] at h
    cases hblank : isBlank c with
    | true =>
      rw [Text.pieces_cons_of_separator hblank] at hwords
      cases hwords
      simp
    | false =>
      obtain ⟨first, rest, hfirst⟩ := List.exists_cons_of_ne_nil (Text.pieces_ne_nil isBlank t)
      rw [Text.pieces_cons_of_not hblank hfirst] at hwords
      cases hwords
      rw [hblank, if_neg (by decide), Option.map_eq_none_iff] at h
      rw [List.mem_cons, not_or]
      exact ⟨Ne.symm hcolon, ih h hfirst⟩

theorem codes_bare (h : untilColon? t = none) : codes (':' :: t) = codes t := by
  obtain ⟨word, more, hwords⟩ := List.exists_cons_of_ne_nil (Text.pieces_ne_nil isBlank t)
  have hno := notMem_of_untilColon?_eq_none h hwords
  have hword : Text.pieces (· == ':') word = [word] :=
    Text.pieces_eq_singleton fun c hc => beq_eq_false_iff_ne.2 fun heq => hno (heq ▸ hc)
  have hcolon : Text.pieces (· == ':') (':' :: word) = [[], word] := by
    rw [Text.pieces_cons_of_separator (by decide), hword]
  rw [codes, codes, hwords, Text.pieces_cons_of_not (by decide) hwords, List.flatMap_cons,
    List.flatMap_cons, hcolon, hword]
  rfl

theorem codes_code (h : untilColon? t = some (body, after)) :
    codes (':' :: t) = body :: codes after := by
  obtain ⟨rfl, hbody⟩ := of_untilColon? h
  obtain ⟨word, more, hwords⟩ := List.exists_cons_of_ne_nil (Text.pieces_ne_nil isBlank after)
  obtain ⟨piece, pieces, hpieces⟩ :=
    List.exists_cons_of_ne_nil (Text.pieces_ne_nil (· == ':') word)
  have hblank : ∀ c ∈ ':' :: body ++ [':'], isBlank c = false := by
    intro c hc
    rcases List.mem_append.1 hc with hc | hc
    · rcases List.mem_cons.1 hc with rfl | hc
      · decide
      · exact (hbody c hc).2
    · rw [List.mem_singleton.1 hc]
      decide
  have hall : Text.pieces isBlank (':' :: (body ++ ':' :: after)) =
      (':' :: body ++ [':'] ++ word) :: more := by
    rw [← Text.pieces_append_of_not hblank hwords]
    simp
  have hcut : Text.pieces (· == ':') (':' :: body ++ [':'] ++ word) =
      [] :: body :: piece :: pieces := by
    have hsecond : Text.pieces (· == ':') (body ++ ':' :: word) = body :: piece :: pieces := by
      rw [Text.pieces_append_separator (fun c hc => beq_eq_false_iff_ne.2 (hbody c hc).1)
        (beq_self_eq_true _), hpieces]
    have hopen := @Text.pieces_cons_of_separator (· == ':') (body ++ ':' :: word) ':'
      (beq_self_eq_true _)
    simpa [hsecond] using hopen
  rw [codes, codes, hall, hwords, List.flatMap_cons, List.flatMap_cons, hcut, hpieces]
  rfl

theorem codes_append_newline (line t : Text) :
    codes (line ++ '\n' :: t) = codes line ++ codes t := by
  rw [codes, Text.pieces_append_cons (by decide), List.flatMap_append]
  rfl

/-! ## Lines -/

theorem expandFrom_eq_self (column : Nat) (h : '\t' ∉ t) : expandFrom column t = t := by
  induction t generalizing column with
  | nil => rfl
  | cons c t ih =>
    rw [List.mem_cons, not_or] at h
    rw [expandFrom, if_neg (Ne.symm h.1), ih _ h.2]

theorem mem_of_mem_expandFrom {column : Nat} (h : c ∈ expandFrom column t) :
    c = ' ' ∨ c ∈ t ∧ c ≠ '\t' := by
  induction t generalizing column with
  | nil => cases h
  | cons d t ih =>
    rw [expandFrom] at h
    split at h
    · rcases List.mem_append.1 h with h | h
      · exact .inl (List.eq_of_mem_replicate h)
      · exact (ih h).imp_right fun h => ⟨List.mem_cons_of_mem _ h.1, h.2⟩
    · rename_i htab
      rcases List.mem_cons.1 h with rfl | h
      · exact .inr ⟨List.mem_cons_self, htab⟩
      · exact (ih h).imp_right fun h => ⟨List.mem_cons_of_mem _ h.1, h.2⟩

theorem count_colon_expandFrom (column : Nat) (t : Text) :
    (expandFrom column t).count ':' = t.count ':' := by
  induction t generalizing column with
  | nil => rfl
  | cons c t ih =>
    rw [expandFrom]
    split
    · rename_i htab
      subst htab
      have hblanks : ∀ width, (List.replicate width ' ').count ':' = 0 := fun width =>
        List.count_eq_zero.2 fun h => absurd (List.eq_of_mem_replicate h) (by decide)
      simp only [List.count_append, hblanks, ih, Nat.zero_add]
      exact (List.count_cons_of_ne (by decide)).symm
    · simp only [List.count_cons, ih]

theorem stack_eq_join {lines : List Text} (hne : lines ≠ []) :
    stack lines = Text.join ['\n'] lines ++ ['\n'] := by
  induction lines with
  | nil => exact absurd rfl hne
  | cons line more ih =>
    cases more with
    | nil => simp [stack, Text.join]
    | cons next more =>
      rw [Text.join_cons_cons, List.append_assoc, ← ih (List.cons_ne_nil _ _)]
      simp [stack]

/-- A text is the stack of its lines, but for the end of the last one. -/
theorem stack_pieces (t : Text) : stack (Text.pieces (· = '\n') t) = t ++ ['\n'] := by
  rw [stack_eq_join (Text.pieces_ne_nil _ t)]
  exact congrArg (· ++ ['\n']) (Text.join_pieces '\n' t)

theorem mem_of_mem_piece {piece : Text} (hpiece : piece ∈ Text.pieces (· = '\n') t)
    (hc : c ∈ piece) : c ∈ t ∨ c = '\n' := by
  have hstack : c ∈ stack (Text.pieces (· = '\n') t) :=
    List.mem_flatMap.2 ⟨piece, hpiece, List.mem_append_left _ hc⟩
  simpa [stack_pieces] using hstack

theorem lines_append_newline (line t : Text) :
    lines (line ++ '\n' :: t) = lines line ++ lines t := by
  rw [lines, Text.pieces_append_cons (by decide), List.map_append]
  rfl

theorem stack_lines_eq_self (h : '\t' ∉ t) : stack (lines t) = t ++ ['\n'] := by
  have hpiece : ∀ piece ∈ Text.pieces (· = '\n') t, expandFrom 0 piece = piece :=
    fun piece hpiece => expandFrom_eq_self 0 fun htab =>
      (mem_of_mem_piece hpiece htab).elim h (by decide)
  rw [lines, List.map_congr_left hpiece, List.map_id', stack_pieces]

theorem mem_of_mem_stack_lines (h : c ∈ stack (lines t)) :
    c = ' ' ∨ c = '\n' ∨ c ∈ t ∧ c ≠ '\t' := by
  obtain ⟨line, hline, hc⟩ := List.mem_flatMap.1 h
  obtain ⟨piece, hpiece, rfl⟩ := List.mem_map.1 hline
  rcases List.mem_append.1 hc with hc | hc
  · rcases mem_of_mem_expandFrom hc with rfl | ⟨hmem, htab⟩
    · exact .inl rfl
    · exact .inr ((mem_of_mem_piece hpiece hmem).symm.imp_right (⟨·, htab⟩))
  · exact .inr (.inl (List.mem_singleton.1 hc))

theorem count_colon_stack_lines (t : Text) : (stack (lines t)).count ':' = t.count ':' := by
  have hstack : ∀ pieces : List Text,
      (stack (pieces.map (expandFrom 0))).count ':' = (stack pieces).count ':' := by
    intro pieces
    simp [stack, List.count_flatMap, List.flatMap_map, count_colon_expandFrom, Function.comp_def]
  rw [lines, hstack, stack_pieces, List.count_append]
  rfl

/-! ## Replacing codes -/

variable [Pictures]

/-- As many steps as there are characters are enough. -/
theorem replaceSteps_congr {steps more : Nat} (h : t.length ≤ steps) (hmore : t.length ≤ more) :
    replaceSteps steps t = replaceSteps more t := by
  induction steps generalizing t more with
  | zero =>
    rw [Nat.le_zero, List.length_eq_zero_iff] at h
    subst h
    cases more <;> rfl
  | succ steps ih =>
    cases t with
    | nil => cases more <;> rfl
    | cons c rest =>
      obtain ⟨more, rfl⟩ : ∃ less, more = less + 1 := ⟨more - 1, by simp at hmore; omega⟩
      rw [List.length_cons] at h hmore
      rw [replaceSteps, replaceSteps, ih (Nat.le_of_succ_le_succ h) (Nat.le_of_succ_le_succ hmore)]
      cases hfound : untilColon? rest with
      | none => rfl
      | some found =>
        have hlength := length_lt_of_untilColon? hfound
        have hafter : replaceSteps steps found.2 = replaceSteps more found.2 :=
          ih (by omega) (by omega)
        simp only [hafter]

theorem replacePictures_cons (h : c ≠ ':') :
    replacePictures (c :: t) = c :: replacePictures t := by
  rw [replacePictures, List.length_cons, replaceSteps, if_neg h]
  rfl

theorem replacePictures_bare (h : untilColon? t = none) :
    replacePictures (':' :: t) = ':' :: replacePictures t := by
  rw [replacePictures, List.length_cons, replaceSteps, if_pos rfl, h]
  rfl

theorem replacePictures_code (h : untilColon? t = some (body, after)) :
    replacePictures (':' :: t) =
      (pictureOf? body).getD (':' :: body ++ [':']) ++ replacePictures after := by
  have hlength := length_lt_of_untilColon? h
  rw [replacePictures, List.length_cons, replaceSteps, if_pos rfl, h]
  simp only
  rw [replacePictures, replaceSteps_congr (by omega) (Nat.le_succ after.length)]

/-- Lines are read one by one. -/
theorem replacePictures_append_newline (line t : Text) :
    replacePictures (line ++ '\n' :: t) = replacePictures line ++ '\n' :: replacePictures t := by
  induction line using code_induction with
  | nil => exact replacePictures_cons (by decide)
  | plain c line hc ih =>
    rw [List.cons_append, replacePictures_cons hc, replacePictures_cons hc, ih, List.cons_append]
  | bare line hnone ih =>
    have hnone' : untilColon? (line ++ '\n' :: t) = none := by
      rw [untilColon?_append_newline, hnone]
      rfl
    rw [List.cons_append, replacePictures_bare hnone', replacePictures_bare hnone, ih,
      List.cons_append]
  | code body after line hfound ih =>
    have hfound' : untilColon? (line ++ '\n' :: t) = some (body, after ++ '\n' :: t) := by
      rw [untilColon?_append_newline, hfound]
      rfl
    rw [List.cons_append, replacePictures_code hfound', replacePictures_code hfound, ih,
      List.append_assoc]

theorem colonless_of_pictureOf? {picture : Text} (h : pictureOf? body = some picture) :
    ':' ∉ picture := by
  unfold pictureOf? at h
  split at h
  · rename_i variant hvariant
    obtain ⟨named, hnamed, rfl⟩ := Option.map_eq_some_iff.1 h
    have hall : ∀ variant ∈ variants, ':' ∉ [variant.2] := by decide
    rw [List.mem_append, not_or]
    exact ⟨Pictures.colonless hnamed, hall variant (List.mem_of_find?_eq_some hvariant)⟩
  · exact Pictures.colonless h

theorem replacePictures_eq_self (h : ∀ name ∈ codes t, pictureOf? name = none) :
    replacePictures t = t := by
  induction t using code_induction with
  | nil => rfl
  | plain c t hc ih =>
    rw [codes_cons hc] at h
    rw [replacePictures_cons hc, ih h]
  | bare t hnone ih =>
    rw [codes_bare hnone] at h
    rw [replacePictures_bare hnone, ih h]
  | code body after t hfound ih =>
    rw [codes_code hfound] at h
    rw [replacePictures_code hfound, h body List.mem_cons_self,
      ih fun name hname => h name (List.mem_cons_of_mem _ hname),
      (of_untilColon? hfound).1]
    simp

/-- Every code that is replaced takes two colons with it. -/
theorem count_colon_replacePictures (t : Text) :
    (replacePictures t).count ':' + 2 * (codes t).countP (fun name => (pictureOf? name).isSome) =
      t.count ':' := by
  induction t using code_induction with
  | nil => rfl
  | plain c t hc ih =>
    rw [replacePictures_cons hc, codes_cons hc, List.count_cons_of_ne hc, List.count_cons_of_ne hc,
      ih]
  | bare t hnone ih =>
    rw [replacePictures_bare hnone, codes_bare hnone, List.count_cons_self, List.count_cons_self]
    omega
  | code body after t hfound ih =>
    obtain ⟨rfl, hbody⟩ := of_untilColon? hfound
    have hnone : body.count ':' = 0 := List.count_eq_zero.2 fun hmem => (hbody ':' hmem).1 rfl
    rw [replacePictures_code hfound, codes_code hfound, List.count_append, List.countP_cons]
    cases hpicture : pictureOf? body with
    | none =>
      simp [hnone]
      omega
    | some picture =>
      have hless : picture.count ':' = 0 := List.count_eq_zero.2 (colonless_of_pictureOf? hpicture)
      simp [hnone, hless]
      omega

/-! ## Texts shown as they are -/

/-- What is printed for a text that is shown. -/
def printed (t : Text) : Text := stack (lines (shown t))

/-- Whether a screen has nothing to change in a text: no code of it names a picture, and there are
no tabs and no characters that move the cursor. -/
structure IsVerbatim (t : Text) : Prop where
  uncoded : ∀ name ∈ codes t, pictureOf? name = none
  tabless : '\t' ∉ t
  still : ∀ c ∈ t, movesCursor c = false

theorem shown_append_newline (line t : Text) :
    shown (line ++ '\n' :: t) = shown line ++ '\n' :: shown t := by
  rw [shown, replacePictures_append_newline, List.filter_append]
  rfl

theorem printed_append_newline (line t : Text) :
    printed (line ++ '\n' :: t) = printed line ++ printed t := by
  rw [printed, shown_append_newline, lines_append_newline, stack, List.flatMap_append]
  rfl

/-- Texts below one another are printed one by one. -/
theorem printed_join {parts : List Text} (hne : parts ≠ []) :
    printed (Text.join ['\n'] parts) = parts.flatMap printed := by
  induction parts with
  | nil => exact absurd rfl hne
  | cons part more ih =>
    cases more with
    | nil => rw [List.flatMap_singleton, Text.join]
    | cons next more =>
      rw [Text.join_cons_cons, List.append_assoc, List.singleton_append, printed_append_newline,
        ih (List.cons_ne_nil _ _)]
      rfl

/-- Nothing that is printed is a tab or moves the cursor. -/
theorem still_of_mem_printed (h : c ∈ printed t) : c ≠ '\t' ∧ movesCursor c = false := by
  rcases mem_of_mem_stack_lines h with rfl | rfl | ⟨hmem, htab⟩
  · decide
  · decide
  · exact ⟨htab, by simpa using (List.mem_filter.1 hmem).2⟩

theorem count_colon_printed (t : Text) : (printed t).count ':' = (replacePictures t).count ':' := by
  rw [printed, count_colon_stack_lines, shown]
  exact List.count_filter rfl

/-- A text is printed as it is exactly if nothing in it is to be changed. A picture in place of a
code shows in the number of colons, whatever it looks like. -/
theorem printed_eq_iff : printed t = t ++ ['\n'] ↔ IsVerbatim t := by
  constructor
  · intro h
    have hmem : ∀ c ∈ t, c ≠ '\t' ∧ movesCursor c = false := fun c hc =>
      still_of_mem_printed (by rw [h]; exact List.mem_append_left _ hc)
    refine ⟨?_, fun htab => (hmem '\t' htab).1 rfl, fun c hc => (hmem c hc).2⟩
    have hcount : (replacePictures t).count ':' = t.count ':' := by
      rw [← count_colon_printed, h, List.count_append]
      rfl
    have hnamed : (codes t).countP (fun name => (pictureOf? name).isSome) = 0 := by
      have hall := count_colon_replacePictures t
      omega
    simpa [List.countP_eq_zero] using hnamed
  · rintro ⟨huncoded, htabless, hstill⟩
    have hshown : shown t = t := by
      rw [shown, replacePictures_eq_self huncoded, List.filter_eq_self]
      simpa using hstill
    rw [printed, hshown, stack_lines_eq_self htabless]

theorem isVerbatim_append_newline (line : Text) :
    IsVerbatim (line ++ '\n' :: t) ↔ IsVerbatim line ∧ IsVerbatim t := by
  constructor
  · rintro ⟨huncoded, htabless, hstill⟩
    rw [codes_append_newline, List.forall_mem_append] at huncoded
    rw [List.forall_mem_append] at hstill
    rw [List.mem_append, not_or] at htabless
    exact ⟨⟨huncoded.1, htabless.1, hstill.1⟩, huncoded.2, fun h => htabless.2 (.tail _ h),
      fun c h => hstill.2 c (.tail _ h)⟩
  · rintro ⟨⟨huncoded, htabless, hstill⟩, huncoded', htabless', hstill'⟩
    refine ⟨?_, ?_, ?_⟩
    · rw [codes_append_newline, List.forall_mem_append]
      exact ⟨huncoded, huncoded'⟩
    · rw [List.mem_append, not_or, List.mem_cons, not_or]
      exact ⟨htabless, by decide, htabless'⟩
    · rw [List.forall_mem_append, List.forall_mem_cons]
      exact ⟨hstill, by decide, hstill'⟩

theorem isVerbatim_join {parts : List Text} (hne : parts ≠ []) :
    IsVerbatim (Text.join ['\n'] parts) ↔ ∀ part ∈ parts, IsVerbatim part := by
  induction parts with
  | nil => exact absurd rfl hne
  | cons part more ih =>
    cases more with
    | nil => rw [List.forall_mem_singleton, Text.join]
    | cons next more =>
      rw [Text.join_cons_cons, List.append_assoc, List.singleton_append, isVerbatim_append_newline,
        ih (List.cons_ne_nil _ _)]
      exact List.forall_mem_cons.symm

/-- In clear text, a word between two colons is the only code. -/
theorem isVerbatim_around_iff {a : Text} (ha : ∀ c ∈ a, isClear c = true)
    (hbody : ∀ c ∈ body, isClear c = true ∧ isBlank c = false)
    (hafter : ∀ c ∈ after, isClear c = true) :
    IsVerbatim (a ++ ':' :: (body ++ ':' :: after)) ↔ pictureOf? body = none := by
  have hopen : ':' ∉ a := fun h => (isClear_eq_true_iff.1 (ha _ h)).1 rfl
  have hclosed : ':' ∉ after := fun h => (isClear_eq_true_iff.1 (hafter _ h)).1 rfl
  have hfound : untilColon? (body ++ ':' :: after) = some (body, after) :=
    untilColon?_append fun c hc => ⟨(isClear_eq_true_iff.1 (hbody c hc).1).1, (hbody c hc).2⟩
  have hcodes : codes (a ++ ':' :: (body ++ ':' :: after)) = [body] := by
    rw [codes_append_of_notMem hopen, codes_code hfound, codes_of_notMem hclosed]
  have hclear : ∀ c ∈ a ++ ':' :: (body ++ ':' :: after), c ≠ '\t' ∧ movesCursor c = false := by
    intro c hc
    simp only [List.mem_append, List.mem_cons] at hc
    rcases hc with hc | rfl | hc | rfl | hc
    · exact (isClear_eq_true_iff.1 (ha c hc)).2
    · decide
    · exact (isClear_eq_true_iff.1 (hbody c hc).1).2
    · decide
    · exact (isClear_eq_true_iff.1 (hafter c hc)).2
  constructor
  · intro h
    exact h.uncoded body (by rw [hcodes]; exact List.mem_cons_self)
  · intro h
    exact ⟨by simpa [hcodes] using h, fun htab => (hclear _ htab).1 rfl,
      fun c hc => (hclear c hc).2⟩

end DocGraph.Screen
