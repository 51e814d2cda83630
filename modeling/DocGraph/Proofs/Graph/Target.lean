import DocGraph.Graph.Target
import DocGraph.Proofs.Text.Occurrence
import DocGraph.Proofs.Text.Trim

/-!
# Targets and the commas between them

The net depth of a text is the number of brackets that it opens less those that it closes. It may be
negative, as nothing asks brackets to match. A text is uncut at a depth if no comma in it stands
where the depth is zero.

The pieces of a text are uncut, and each but the last brings the depth back to zero. Texts of which
this is true are the pieces of the text that commas make of them, and it stays true of pieces that
are trimmed and of those that are left when blank ones are taken away. So targets are read back from
the text that they are joined to.
-/

namespace DocGraph

open Text (allBlank trim trimStart trimEnd join)

variable {t before after blanks : Text} {c : Char} {depth : Int} {targets pieces : List Text}

/-! ## Depth -/

/-- How many more brackets a text opens than it closes. -/
def netDepth : Text → Int
  | [] => 0
  | c :: t => bracketStep c + netDepth t

@[simp] theorem netDepth_nil : netDepth [] = 0 := rfl

@[simp] theorem netDepth_cons (c : Char) (t : Text) :
    netDepth (c :: t) = bracketStep c + netDepth t := rfl

@[simp] theorem netDepth_append (a b : Text) : netDepth (a ++ b) = netDepth a + netDepth b := by
  induction a with
  | nil => exact (Int.zero_add _).symm
  | cons c a ih => rw [List.cons_append, netDepth_cons, netDepth_cons, ih, Int.add_assoc]

theorem bracketStep_of_isBlank (h : isBlank c = true) : bracketStep c = 0 := by
  have hopening : c ∉ ['(', '[', '\x7b'] := by
    intro hmem
    have hplain : ∀ d ∈ ['(', '[', '\x7b'], isBlank d = false :=
      Text.forall_mem_of_all (by decide)
    rw [hplain c hmem] at h
    cases h
  have hclosing : c ∉ [')', ']', '\x7d'] := by
    intro hmem
    have hplain : ∀ d ∈ [')', ']', '\x7d'], isBlank d = false :=
      Text.forall_mem_of_all (by decide)
    rw [hplain c hmem] at h
    cases h
  rw [bracketStep, if_neg hopening, if_neg hclosing]

theorem netDepth_eq_zero (h : ∀ c ∈ t, bracketStep c = 0) : netDepth t = 0 := by
  induction t with
  | nil => rfl
  | cons c t ih =>
    rw [List.forall_mem_cons] at h
    rw [netDepth_cons, h.1, ih h.2, Int.zero_add]

theorem netDepth_of_allBlank (h : allBlank blanks = true) : netDepth blanks = 0 :=
  netDepth_eq_zero fun _ hc => bracketStep_of_isBlank (Text.isBlank_of_mem h hc)

theorem netDepth_trim (t : Text) : netDepth (trim t) = netDepth t := by
  obtain ⟨before, hbefore, hstart⟩ := Text.exists_blanks_trimStart t
  obtain ⟨after, hafter, hend⟩ := Text.exists_trimEnd_blanks (trimStart t)
  have hdepth : netDepth t = netDepth before + (netDepth (trim t) + netDepth after) := by
    conv_lhs => rw [hstart, netDepth_append, hend, netDepth_append]
    rfl
  rw [hdepth, netDepth_of_allBlank hbefore, netDepth_of_allBlank hafter]
  omega

/-! ## Texts without a separating comma -/

/-- Whether no comma of a text that begins at a depth stands where the depth is zero. -/
def Uncut (depth : Int) (t : Text) : Prop :=
  ∀ before after, t = before ++ ',' :: after → depth + netDepth before ≠ 0

theorem uncut_nil (depth : Int) : Uncut depth [] := by
  intro before after h
  exact absurd h.symm (List.append_ne_nil_of_right_ne_nil _ (List.cons_ne_nil _ _))

theorem uncut_cons_iff :
    Uncut depth (c :: t) ↔ (c = ',' → depth ≠ 0) ∧ Uncut (depth + bracketStep c) t := by
  constructor
  · intro h
    refine ⟨?_, ?_⟩
    · rintro rfl
      simpa using h [] t rfl
    · rintro before after rfl
      have hdepth := h (c :: before) after rfl
      rw [netDepth_cons] at hdepth
      omega
  · rintro ⟨hfirst, hrest⟩ before after h
    cases before with
    | nil =>
      obtain ⟨rfl, -⟩ := List.cons.inj h
      simpa using hfirst rfl
    | cons d before =>
      obtain ⟨rfl, rfl⟩ := List.cons.inj h
      have hdepth := hrest before after rfl
      rw [netDepth_cons]
      omega

theorem Uncut.append_left (h : Uncut depth t) (hblanks : allBlank blanks = true) :
    Uncut depth (blanks ++ t) := by
  induction blanks with
  | nil => exact h
  | cons c blanks ih =>
    rw [Text.allBlank_cons, Bool.and_eq_true] at hblanks
    refine uncut_cons_iff.2 ⟨?_, ?_⟩
    · rintro rfl
      exact absurd hblanks.1 (by decide)
    · rw [bracketStep_of_isBlank hblanks.1, Int.add_zero]
      exact ih hblanks.2

theorem Uncut.trim (h : Uncut depth t) : Uncut depth (trim t) := by
  obtain ⟨blanks, hblanks, hstart⟩ := Text.exists_blanks_trimStart t
  obtain ⟨later, -, hend⟩ := Text.exists_trimEnd_blanks (trimStart t)
  intro before after htrim
  have ht : t = (blanks ++ before) ++ ',' :: (after ++ later) := by
    rw [Text.trim] at htrim
    conv_lhs => rw [hstart, hend, htrim]
    simp
  have hdepth := h _ _ ht
  rwa [netDepth_append, netDepth_of_allBlank hblanks, Int.zero_add] at hdepth

/-! ## Pieces -/

/-- Whether texts are the pieces of a text that begins at a depth, or some of them. -/
inductive Separated : Int → List Text → Prop
  | nil {depth : Int} : Separated depth []
  | last {depth : Int} {t : Text} : Uncut depth t → Separated depth [t]
  | cons {depth : Int} {t : Text} {more : List Text} : Uncut depth t → depth + netDepth t = 0 →
    Separated 0 more → Separated depth (t :: more)

theorem Separated.uncut_head {more : List Text} (h : Separated depth (t :: more)) :
    Uncut depth t := by
  cases h with
  | last huncut => exact huncut
  | cons huncut _ _ => exact huncut

theorem Separated.uncut_of_mem (h : Separated 0 targets) (hmem : t ∈ targets) : Uncut 0 t := by
  induction targets with
  | nil => cases hmem
  | cons first more ih =>
    cases hmem with
    | head => exact h.uncut_head
    | tail _ hmem =>
      cases h with
      | last => cases hmem
      | cons _ _ hmore => exact ih hmore hmem

theorem targetPieces_ne_nil (depth : Int) (t : Text) : targetPieces depth t ≠ [] := by
  cases t with
  | nil => exact List.cons_ne_nil _ _
  | cons c rest =>
    rw [targetPieces]
    split
    · exact List.cons_ne_nil _ _
    · split <;> exact List.cons_ne_nil _ _

theorem separated_targetPieces (depth : Int) (t : Text) :
    Separated depth (targetPieces depth t) := by
  induction t generalizing depth with
  | nil => exact .last (uncut_nil depth)
  | cons c rest ih =>
    rw [targetPieces]
    split
    · next h =>
      obtain ⟨-, rfl⟩ := h
      exact .cons (uncut_nil 0) rfl (ih 0)
    · next h =>
      have hfirst : c = ',' → depth ≠ 0 := fun hc hdepth => h ⟨hc, hdepth⟩
      have hrest := ih (depth + bracketStep c)
      obtain ⟨piece, more, hpieces⟩ :=
        List.exists_cons_of_ne_nil (targetPieces_ne_nil (depth + bracketStep c) rest)
      rw [hpieces] at hrest ⊢
      cases hrest with
      | last hpiece => exact .last (uncut_cons_iff.2 ⟨hfirst, hpiece⟩)
      | cons hpiece hclosed hmore =>
        refine .cons (uncut_cons_iff.2 ⟨hfirst, hpiece⟩) ?_ hmore
        rw [netDepth_cons]
        omega

theorem targetPieces_cons (h : c = ',' → depth ≠ 0) {piece : Text} {more : List Text}
    (hrest : targetPieces (depth + bracketStep c) t = piece :: more) :
    targetPieces depth (c :: t) = (c :: piece) :: more := by
  rw [targetPieces, if_neg fun hcut => h hcut.1 hcut.2, hrest]

theorem targetPieces_of_uncut (h : Uncut depth t) : targetPieces depth t = [t] := by
  induction t generalizing depth with
  | nil => rfl
  | cons c rest ih =>
    obtain ⟨hfirst, hrest⟩ := uncut_cons_iff.1 h
    exact targetPieces_cons hfirst (ih hrest)

theorem targetPieces_append_left (hblanks : allBlank blanks = true) {piece : Text}
    {more : List Text} (ht : targetPieces depth t = piece :: more) :
    targetPieces depth (blanks ++ t) = (blanks ++ piece) :: more := by
  induction blanks with
  | nil => exact ht
  | cons c blanks ih =>
    rw [Text.allBlank_cons, Bool.and_eq_true] at hblanks
    apply targetPieces_cons
    · rintro rfl
      exact absurd hblanks.1 (by decide)
    · rw [bracketStep_of_isBlank hblanks.1, Int.add_zero]
      exact ih hblanks.2

theorem targetPieces_append_comma (h : Uncut depth t) (hclosed : depth + netDepth t = 0)
    (rest : Text) : targetPieces depth (t ++ ',' :: rest) = t :: targetPieces 0 rest := by
  induction t generalizing depth with
  | nil =>
    obtain rfl : depth = 0 := by simpa using hclosed
    rfl
  | cons c t ih =>
    obtain ⟨hfirst, hrest⟩ := uncut_cons_iff.1 h
    rw [netDepth_cons] at hclosed
    exact targetPieces_cons hfirst (ih hrest (by omega))

theorem subset_of_mem_targetPieces {piece : Text} (h : piece ∈ targetPieces depth t) :
    piece ⊆ t := by
  induction t generalizing depth piece with
  | nil =>
    rw [List.mem_singleton.1 h]
    exact List.nil_subset _
  | cons c rest ih =>
    rw [targetPieces] at h
    split at h
    · rcases List.mem_cons.1 h with rfl | h
      · exact List.nil_subset _
      · exact fun d hd => List.mem_cons_of_mem _ (ih h hd)
    · obtain ⟨first, more, hrest⟩ :=
        List.exists_cons_of_ne_nil (targetPieces_ne_nil (depth + bracketStep c) rest)
      rw [hrest] at h
      rcases List.mem_cons.1 h with rfl | h
      · exact List.cons_subset_cons c (ih (by rw [hrest]; exact List.mem_cons_self))
      · exact fun d hd => List.mem_cons_of_mem _
          (ih (by rw [hrest]; exact List.mem_cons_of_mem _ h) hd)

/-! ## Targets -/

/-- Pieces may be trimmed, and blank ones left out. -/
theorem Separated.kept (h : Separated depth pieces) :
    Separated depth ((pieces.map trim).filter (!·.isEmpty)) := by
  induction h with
  | nil => exact .nil
  | @last depth t ht =>
    rw [List.map_singleton, List.filter_cons, List.filter_nil]
    split
    · exact .last ht.trim
    · exact .nil
  | @cons depth t more ht hclosed _ ih =>
    rw [List.map_cons, List.filter_cons]
    split
    · exact .cons ht.trim (by rwa [netDepth_trim]) ih
    · next hempty =>
      -- A blank piece leaves the depth as it is.
      have hblank : trim t = [] := by simpa using hempty
      have hdepth : netDepth t = 0 := by rw [← netDepth_trim, hblank, netDepth_nil]
      obtain rfl : depth = 0 := by omega
      exact ih

theorem separated_readTargets (t : Text) : Separated 0 (readTargets t) :=
  (separated_targetPieces 0 t).kept

/-- Texts that trimming leaves alone and of which something is left. -/
def AllSolid (targets : List Text) : Prop := ∀ t ∈ targets, trim t = t ∧ t ≠ []

theorem allSolid_readTargets (t : Text) : AllSolid (readTargets t) := by
  intro target htarget
  obtain ⟨hpiece, hne⟩ := List.mem_filter.1 htarget
  obtain ⟨piece, -, rfl⟩ := List.mem_map.1 hpiece
  exact ⟨Text.trim_trim piece, by simpa using hne⟩

/-- Blanks in front of targets say nothing. -/
theorem readTargets_append_left (hblanks : allBlank blanks = true) (t : Text) :
    readTargets (blanks ++ t) = readTargets t := by
  obtain ⟨piece, more, ht⟩ := List.exists_cons_of_ne_nil (targetPieces_ne_nil 0 t)
  rw [readTargets, readTargets, targetPieces_append_left hblanks ht, ht, List.map_cons,
    List.map_cons, Text.trim_append_of_allBlank hblanks]

/-- A blank text has no targets, so it needs no case of its own. -/
theorem readTargets_of_allBlank (h : allBlank t = true) : readTargets t = [] := by
  have hempty := readTargets_append_left h []
  rwa [List.append_nil] at hempty

theorem readTargets_trimStart (t : Text) : readTargets (trimStart t) = readTargets t := by
  obtain ⟨blanks, hblanks, ht⟩ := Text.exists_blanks_trimStart t
  conv_rhs => rw [ht, readTargets_append_left hblanks]

theorem subset_of_mem_readTargets {target : Text} (h : target ∈ readTargets t) : target ⊆ t := by
  obtain ⟨piece, hpiece, rfl⟩ := List.mem_map.1 (List.mem_of_mem_filter h)
  exact fun c hc => subset_of_mem_targetPieces hpiece ((Text.trim_isInfix piece).subset hc)

theorem trim_targetPieces_join (hne : targets ≠ []) (h : Separated 0 targets)
    (hsolid : AllSolid targets) (hblanks : allBlank blanks = true) :
    (targetPieces 0 (blanks ++ join ", ".toList targets)).map trim = targets := by
  induction targets generalizing blanks with
  | nil => exact absurd rfl hne
  | cons t more ih =>
    have ht : trim (blanks ++ t) = t := by
      rw [Text.trim_append_of_allBlank hblanks, (hsolid t List.mem_cons_self).1]
    cases more with
    | nil =>
      rw [join, targetPieces_of_uncut (h.uncut_head.append_left hblanks), List.map_singleton, ht]
    | cons next later =>
      cases h with
      | cons huncut hclosed hmore =>
        have hjoin : blanks ++ join ", ".toList (t :: next :: later) =
            (blanks ++ t) ++ ',' :: ([' '] ++ join ", ".toList (next :: later)) := by
          rw [Text.join_cons_cons]
          simp
        have hdepth : 0 + netDepth (blanks ++ t) = 0 := by
          rw [netDepth_append, netDepth_of_allBlank hblanks]
          omega
        have hlater := ih (List.cons_ne_nil _ _) hmore
          (fun other hother => hsolid other (List.mem_cons_of_mem _ hother))
          (by decide : allBlank [' '] = true)
        rw [hjoin, targetPieces_append_comma (huncut.append_left hblanks) hdepth, List.map_cons, ht,
          hlater]

/-- Targets are read back from the text that they are joined to. -/
theorem readTargets_join (h : Separated 0 targets) (hsolid : AllSolid targets) :
    readTargets (join ", ".toList targets) = targets := by
  by_cases hne : targets = []
  · rw [hne]
    rfl
  · have hpieces := trim_targetPieces_join hne h hsolid (rfl : allBlank [] = true)
    rw [List.nil_append] at hpieces
    rw [readTargets, hpieces, List.filter_eq_self]
    intro target htarget
    simpa using (hsolid target htarget).2

theorem join_ne_nil (hne : targets ≠ []) (hsolid : AllSolid targets) :
    join ", ".toList targets ≠ [] := by
  obtain ⟨t, more, rfl⟩ := List.exists_cons_of_ne_nil hne
  have ht := (hsolid t List.mem_cons_self).2
  cases more with
  | nil => exact ht
  | cons next more => simp [join, ht]

theorem trim_join (hne : targets ≠ []) (hsolid : AllSolid targets) :
    trim (join ", ".toList targets) = join ", ".toList targets := by
  induction targets with
  | nil => exact absurd rfl hne
  | cons t more ih =>
    obtain ⟨htrim, ht⟩ := hsolid t List.mem_cons_self
    cases more with
    | nil => exact htrim
    | cons next later =>
      have hlater : AllSolid (next :: later) :=
        fun other hother => hsolid other (List.mem_cons_of_mem _ hother)
      have hmore := ih (List.cons_ne_nil _ _) hlater
      have hnot := Text.not_allBlank_of_trimmed hmore (join_ne_nil (List.cons_ne_nil _ _) hlater)
      have hstart : trimStart t = t := (Text.trimmed_iff.1 htrim).1
      refine Text.trimmed_iff.2 ⟨?_, ?_⟩
      · rw [Text.join_cons_cons, List.append_assoc,
          Text.trimStart_append_of_not (Text.not_allBlank_of_trimmed htrim ht), hstart]
      · rw [Text.join_cons_cons, Text.trimEnd_append_of_not hnot, (Text.trimmed_iff.1 hmore).2]

end DocGraph
