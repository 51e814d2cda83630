import DocGraph.Proofs.Java.Outline
import DocGraph.Proofs.Java.Place
import DocGraph.Proofs.Project.Scanned
import Mathlib.Data.List.Nodup

/-!
# Which comment an entry comes from

The entries of a source are the tags in the comments before its declarations, one for each tag. A
comment stands before one declaration at most, so no tag is told of two. The entries of types come
first; within types and within methods they follow the places of the declarations and then the tags
of each comment.

A method is named with the innermost type declaration around it. Bodies of anonymous classes and
enum constants declare no type and so give no name.
-/

namespace DocGraph

open Java

/-- Whether a documentation comment with a given text between its delimiters is the nearest named
sibling before the declaration of a type or a method. -/
structure Documents (root : Tree) (comment declaration : Place) (body : Text) : Prop where
  isComment : ∃ node, root.at? comment = some node ∧ node.kind = .blockComment ∧
    node.text = "/**".toList ++ (body ++ "*/".toList)
  isBefore : root.NamedBefore comment declaration
  declares : ∃ node, root.at? declaration = some node ∧
    (node.isTypeDeclaration = true ∨ node.isMethodDeclaration = true)

/-- The comment and the declaration that a tag belongs to, and its number among the tags of the
comment. -/
structure Origin where
  comment : Place
  declaration : Place
  number : Nat

/-- Whether a tag is the one of an origin. -/
def Origin.Holds (root : Tree) (tagPrefix : Text) (origin : Origin) (tag : Tag) : Prop :=
  ∃ body, Documents root origin.comment origin.declaration body ∧
    (readTags tagPrefix body)[origin.number]? = some tag

/-- The order of declarations, and within a comment that of its tags. -/
def Origin.IsBefore (first second : Origin) : Prop :=
  first.declaration < second.declaration ∨
    first.declaration = second.declaration ∧ first.number < second.number

/-- The name that stands for the types around a place: that of the innermost one. Where there is
none, or it has no name, the owner is unknown. -/
inductive OwnerName (root : Tree) (place : Place) : Text → Prop
  | named {around : Place} {declaration : Tree} (h : root.Encloses around place)
      (hat : root.at? around = some declaration) (hname : declaration.declaredName ≠ []) :
      OwnerName root place declaration.declaredName
  | nameless {around : Place} {declaration : Tree} (h : root.Encloses around place)
      (hat : root.at? around = some declaration) (hname : declaration.declaredName = []) :
      OwnerName root place unknownOwner
  | outside (h : ∀ around, ¬ root.Encloses around place) : OwnerName root place unknownOwner

/-- Whether a declaration at a place has a location, and the level of its entries. -/
inductive IsLocated (root : Tree) (place : Place) (node : Tree) : Level → Text → Prop
  | type (h : node.isTypeDeclaration = true) :
    IsLocated root place node .architectural (qualified root.declaredPackage node.declaredName)
  | method {owner : Text} (h : node.isMethodDeclaration = true)
      (howner : OwnerName root place owner) :
      IsLocated root place node .implementation
        (qualified root.declaredPackage (owner ++ '.' :: node.declaredName ++ ['(', ')']))

/-- Whether an entry tells the tag of an origin and the place of its declaration. -/
def Origin.Gives (root : Tree) (tagPrefix file : Text) (origin : Origin) (entry : Entry) : Prop :=
  ∃ tag node level location, origin.Holds root tagPrefix tag ∧
    root.at? origin.declaration = some node ∧
    IsLocated root origin.declaration node level location ∧
    entry = .ofTag location file node.line level tag

variable {root node : Tree} {place comment declaration : Place} {visit : Visit}
variable {tagPrefix body text location : Text} {level : Level}

/-! ## Comments -/

/-- A comment has a body between its delimiters, and else it is the shortest one, in which they
share a star. -/
theorem commentBody?_eq_some_iff : Visit.commentBody? text = some body ↔
    text = "/**".toList ++ (body ++ "*/".toList) ∨ text = "/**/".toList ∧ body = [] := by
  have hends : ∀ t : Text, Text.endsWith "*/".toList t = true ↔ "*/".toList <:+ t := fun t => by
    rw [Text.endsWith, Text.startsWith_iff, List.reverse_prefix]
  constructor
  · intro h
    rw [Visit.commentBody?] at h
    split at h
    · next hdelimited =>
      rw [Bool.and_eq_true, Text.startsWith_iff, hends] at hdelimited
      obtain ⟨⟨rest, rfl⟩, hsuffix⟩ := hdelimited
      rw [Option.some.injEq] at h
      match rest, h, hsuffix with
      | [], _, hsuffix => exact absurd hsuffix (by decide)
      | [c], h, hsuffix =>
        have hc : c = '/' := by
          have hlast := List.IsSuffix.getLast hsuffix (by decide)
          simpa using hlast.symm
        subst hc
        exact .inr ⟨rfl, h.symm⟩
      | c :: d :: rest, h, hsuffix =>
        left
        obtain ⟨inner, hinner⟩ : "*/".toList <:+ c :: d :: rest :=
          List.suffix_of_suffix_length_le hsuffix (List.suffix_append _ _) (by simp)
        rw [← hinner] at h ⊢
        rw [← h]
        simp
    · cases h
  · rintro (rfl | ⟨rfl, rfl⟩)
    · have hstart : Text.startsWith "/**".toList ("/**".toList ++ (body ++ "*/".toList)) = true :=
        Text.startsWith_iff.2 (List.prefix_append _ _)
      have hend : Text.endsWith "*/".toList ("/**".toList ++ (body ++ "*/".toList)) = true :=
        (hends _).2 ((List.suffix_append _ _).trans (List.suffix_append _ _))
      rw [Visit.commentBody?, hstart, hend]
      simp
    · decide

theorem isNamed_of_declares
    (h : node.isTypeDeclaration = true ∨ node.isMethodDeclaration = true) :
    node.isNamed = true := by
  rw [Tree.isTypeDeclaration, Tree.isMethodDeclaration] at h
  rw [Tree.isNamed]
  cases hkind : node.kind <;> simp_all

theorem not_isMethodDeclaration (h : node.isTypeDeclaration = true) :
    node.isMethodDeclaration = false := by
  rw [Tree.isTypeDeclaration] at h
  rw [Tree.isMethodDeclaration]
  cases hkind : node.kind <;> simp_all

/-- A comment documents one declaration at most. -/
theorem Documents.declaration_unique {other : Place} {otherBody : Text}
    (h : Documents root comment declaration body) (h' : Documents root comment other otherBody) :
    declaration = other := by
  obtain ⟨node, hnode, hdeclares⟩ := h.declares
  obtain ⟨node', hnode', hdeclares'⟩ := h'.declares
  exact h.isBefore.unique h'.isBefore hnode (isNamed_of_declares hdeclares) hnode'
    (isNamed_of_declares hdeclares')

/-! ## The comment of a visit -/

theorem javadoc?_of_documents (hvisit : root.IsVisit place visit)
    (h : Documents root comment place body) : visit.javadoc? = some body := by
  obtain ⟨node, hnode, hkind, htext⟩ := h.isComment
  rw [Visit.javadoc?, (hvisit.previous node).2 ⟨comment, h.isBefore, hnode⟩]
  exact (if_pos hkind).trans (commentBody?_eq_some_iff.2 (.inl htext))

theorem exists_documents (hvisit : root.IsVisit place visit)
    (hdeclares : visit.node.isTypeDeclaration = true ∨ visit.node.isMethodDeclaration = true)
    (h : visit.javadoc? = some body) (hne : body ≠ []) :
    ∃ comment, Documents root comment place body := by
  rw [Visit.javadoc?] at h
  cases hprevious : visit.previous with
  | none =>
    rw [hprevious] at h
    cases h
  | some node =>
    obtain ⟨before, hbefore, hnode⟩ := (hvisit.previous node).1 hprevious
    simp only [hprevious] at h
    split at h
    · next hkind =>
      have htext := (commentBody?_eq_some_iff.1 h).resolve_right fun hshort => hne hshort.2
      exact ⟨before, ⟨node, hnode, hkind, htext⟩, hbefore, visit.node, hvisit.node, hdeclares⟩
    · cases h

/-- The tags of a comment are the entries of the declaration that it documents. -/
theorem exists_origins_of_visit (tagPrefix file : Text) (hvisit : root.IsVisit place visit)
    (hdeclares : visit.node.isTypeDeclaration = true ∨ visit.node.isMethodDeclaration = true)
    (hlocated : IsLocated root place visit.node level location) :
    ∃ origins : List Origin,
      List.Forall₂ (Origin.Gives root tagPrefix file) origins
        (visitEntries tagPrefix file level location visit) ∧
      origins.Pairwise Origin.IsBefore ∧
      ∀ origin, origin ∈ origins ↔
        origin.declaration = place ∧ ∃ tag, origin.Holds root tagPrefix tag := by
  rw [visitEntries_eq]
  by_cases hdocuments : ∃ comment body, Documents root comment place body
  · obtain ⟨comment, body, h⟩ := hdocuments
    have hjavadoc := javadoc?_of_documents hvisit h
    have htags : visitTags tagPrefix visit = readTags tagPrefix body := by
      rw [visitTags, hjavadoc]
      rfl
    rw [htags]
    refine ⟨(List.range (readTags tagPrefix body).length).map (Origin.mk comment place), ?_, ?_, ?_⟩
    · rw [List.forall₂_map_left_iff, List.forall₂_map_right_iff]
      apply List.forall₂_of_length_eq_of_get (List.length_range)
      intro i _ hi
      refine ⟨_, visit.node, level, location, ⟨body, h, ?_⟩, hvisit.node, hlocated, rfl⟩
      simp
    · rw [List.pairwise_map]
      exact List.pairwise_lt_range.imp fun hlt => .inr ⟨rfl, hlt⟩
    · rintro ⟨otherComment, otherPlace, number⟩
      simp only [List.mem_map, List.mem_range, Origin.mk.injEq]
      constructor
      · rintro ⟨k, hk, rfl, rfl, rfl⟩
        exact ⟨rfl, _, body, h, List.getElem?_eq_getElem hk⟩
      · rintro ⟨rfl, tag, otherBody, hother, htag⟩
        have hbody := (javadoc?_of_documents hvisit hother).symm.trans hjavadoc
        rw [Option.some.injEq] at hbody
        rw [hbody] at htag
        exact ⟨number, (List.getElem?_eq_some_iff.1 htag).1,
          h.isBefore.before_unique hother.isBefore, rfl, rfl⟩
  · -- Without a comment, or with nothing in it, there are no tags.
    have htags : visitTags tagPrefix visit = [] := by
      rw [visitTags]
      cases hjavadoc : visit.javadoc? with
      | none => rfl
      | some body =>
        by_cases hbody : body = []
        · rw [hbody]
          rfl
        · obtain ⟨comment, h⟩ := exists_documents hvisit hdeclares hjavadoc hbody
          exact absurd ⟨comment, body, h⟩ hdocuments
    rw [htags]
    refine ⟨[], .nil, .nil, ?_⟩
    simp only [List.not_mem_nil, false_iff]
    rintro ⟨otherComment, otherPlace, number⟩ ⟨rfl, tag, body, h, -⟩
    exact hdocuments ⟨otherComment, body, h⟩

/-! ## Locations -/

theorem exists_ownerName (hvisit : root.IsVisit place visit) (package : Text) :
    ∃ owner, OwnerName root place owner ∧ methodLocation package visit =
      qualified package (owner ++ '.' :: visit.node.declaredName ++ ['(', ')']) := by
  rw [methodLocation]
  cases howner : visit.owner with
  | none =>
    refine ⟨unknownOwner, .outside ?_, rfl⟩
    intro around haround
    obtain ⟨declaration, hat, -⟩ := haround.declares
    rw [(hvisit.owner _).2 ⟨around, declaration, haround, hat, rfl⟩] at howner
    cases howner
  | some name =>
    obtain ⟨around, declaration, haround, hat, rfl⟩ := (hvisit.owner name).1 howner
    by_cases hname : declaration.declaredName = []
    · exact ⟨unknownOwner, .nameless haround hat hname, by rw [hname]; rfl⟩
    · refine ⟨_, .named haround hat hname, ?_⟩
      simp [hname]

theorem isLocated_method (hvisit : root.IsVisit place visit)
    (h : visit.node.isMethodDeclaration = true) :
    IsLocated root place visit.node .implementation
      (methodLocation root.declaredPackage visit) := by
  obtain ⟨owner, howner, hlocation⟩ := exists_ownerName hvisit root.declaredPackage
  rw [hlocation]
  exact .method h howner

/-! ## The entries of a source -/

/-- The entries of declarations in ascending order come from the tags of their comments. -/
theorem exists_origins_of_stops (tagPrefix file : Text) {locate : Visit → Text}
    {stops : List (Place × Visit)}
    (hstops : ∀ stop ∈ stops, root.IsVisit stop.1 stop.2 ∧
      (stop.2.node.isTypeDeclaration = true ∨ stop.2.node.isMethodDeclaration = true) ∧
      IsLocated root stop.1 stop.2.node level (locate stop.2))
    (hascending : stops.Pairwise fun a b => a.1 < b.1) :
    ∃ origins : List Origin,
      List.Forall₂ (Origin.Gives root tagPrefix file) origins
        (stops.flatMap fun stop => visitEntries tagPrefix file level (locate stop.2) stop.2) ∧
      origins.Pairwise Origin.IsBefore ∧
      ∀ origin, origin ∈ origins ↔
        (∃ stop ∈ stops, origin.declaration = stop.1) ∧
          ∃ tag, origin.Holds root tagPrefix tag := by
  induction stops with
  | nil => exact ⟨[], .nil, .nil, by simp⟩
  | cons stop stops ih =>
    rw [List.forall_mem_cons] at hstops
    rw [List.pairwise_cons] at hascending
    obtain ⟨hvisit, hdeclares, hlocated⟩ := hstops.1
    obtain ⟨first, hgives, hordered, hmem⟩ :=
      exists_origins_of_visit tagPrefix file hvisit hdeclares hlocated
    obtain ⟨rest, hgives', hordered', hmem'⟩ := ih hstops.2 hascending.2
    refine ⟨first ++ rest, List.rel_append hgives hgives', ?_, ?_⟩
    · rw [List.pairwise_append]
      refine ⟨hordered, hordered', fun a ha b hb => .inl ?_⟩
      obtain ⟨later, hlater, hb⟩ := ((hmem' b).1 hb).1
      rw [((hmem a).1 ha).1, hb]
      exact hascending.1 later hlater
    · intro origin
      rw [List.mem_append, hmem, hmem', List.exists_mem_cons_iff, or_and_right]

/-- The entries of one kind of declarations come from the tags of all comments before them. -/
theorem exists_origins (root : Tree) (tagPrefix file : Text) {test : Tree → Bool}
    {locate : Visit → Text}
    (hdeclares : ∀ node : Tree, test node = true →
      node.isTypeDeclaration = true ∨ node.isMethodDeclaration = true)
    (hlocated : ∀ place visit, root.IsVisit place visit → test visit.node = true →
      IsLocated root place visit.node level (locate visit)) :
    ∃ origins : List Origin,
      List.Forall₂ (Origin.Gives root tagPrefix file) origins
        ((root.visits.filter (test ·.node)).flatMap fun visit =>
          visitEntries tagPrefix file level (locate visit) visit) ∧
      origins.Pairwise Origin.IsBefore ∧
      ∀ origin, origin ∈ origins ↔
        (∃ node, root.at? origin.declaration = some node ∧ test node = true) ∧
          ∃ tag, origin.Holds root tagPrefix tag := by
  have hmem_iff : ∀ stop, stop ∈ root.placedVisits.filter (test ·.2.node) ↔
      stop ∈ root.placedVisits ∧ test stop.2.node = true := fun stop => List.mem_filter
  obtain ⟨origins, hgives, hordered, hmem⟩ := exists_origins_of_stops tagPrefix file
    (fun stop hstop => by
      obtain ⟨hplaced, htest⟩ := (hmem_iff stop).1 hstop
      have hvisit := Tree.isVisit_of_mem_placedVisits hplaced
      exact ⟨hvisit, hdeclares _ htest, hlocated _ _ hvisit htest⟩)
    ((Tree.pairwise_placedVisits root).filter (test ·.2.node))
  refine ⟨origins, ?_, hordered, fun origin => (hmem origin).trans (and_congr_left fun _ => ?_)⟩
  · rw [← Tree.map_snd_placedVisits, List.filter_map, List.flatMap_map]
    exact hgives
  · constructor
    · rintro ⟨⟨place, visit⟩, hstop, hplace⟩
      obtain ⟨hplaced, htest⟩ := (hmem_iff _).1 hstop
      exact ⟨visit.node, hplace ▸ (Tree.isVisit_of_mem_placedVisits hplaced).node, htest⟩
    · rintro ⟨node, hat, htest⟩
      obtain ⟨visit, hplaced, rfl⟩ := Tree.exists_mem_placedVisits hat
      exact ⟨_, (hmem_iff _).2 ⟨hplaced, htest⟩, rfl⟩

theorem nodup_of_isBefore {origins : List Origin} (h : origins.Pairwise Origin.IsBefore) :
    origins.Nodup := by
  refine h.imp fun {first second} hbefore => ?_
  rintro rfl
  rcases hbefore with hlt | ⟨-, hlt⟩
  · exact lt_irrefl _ hlt
  · exact Nat.lt_irrefl _ hlt

/-- As a comment documents one declaration, a tag of a comment has one origin. -/
theorem nodup_map_of_holds {origins : List Origin} (h : origins.Nodup)
    (hholds : ∀ origin ∈ origins, ∃ tag, origin.Holds root tagPrefix tag) :
    (origins.map fun origin => (origin.comment, origin.number)).Nodup := by
  refine List.Nodup.map_on ?_ h
  rintro ⟨comment, first, number⟩ hfirst ⟨comment', second, number'⟩ hsecond heq
  obtain ⟨rfl, rfl⟩ : comment = comment' ∧ number = number' := by simpa using heq
  obtain ⟨-, body, hbody, -⟩ := hholds _ hfirst
  obtain ⟨-, body', hbody', -⟩ := hholds _ hsecond
  obtain rfl : first = second := hbody.declaration_unique hbody'
  rfl

/-- The entries of a source are the tags of the comments that document a declaration, each tag of
each comment once, and no comment documents two declarations. The entries of types come first. Both
groups are in the order of the declarations, and those of a declaration in the order of the tags. An
entry tells the declaration behind its comment, and a method is located by the innermost type
around it. -/
theorem sourceEntries_attributed (tagPrefix file : Text) (root : Tree) :
    (∀ comment first second body otherBody, Documents root comment first body →
      Documents root comment second otherBody → first = second) ∧
    ∃ types methods : List Origin,
      List.Forall₂ (Origin.Gives root tagPrefix file) (types ++ methods)
        (sourceEntries tagPrefix file root) ∧
      ((types ++ methods).map fun origin => (origin.comment, origin.number)).Nodup ∧
      (types.Pairwise Origin.IsBefore ∧ methods.Pairwise Origin.IsBefore) ∧
      (∀ origin, origin ∈ types ↔
        (∃ node, root.at? origin.declaration = some node ∧ node.isTypeDeclaration = true) ∧
          ∃ tag, origin.Holds root tagPrefix tag) ∧
      ∀ origin, origin ∈ methods ↔
        (∃ node, root.at? origin.declaration = some node ∧ node.isMethodDeclaration = true) ∧
          ∃ tag, origin.Holds root tagPrefix tag := by
  obtain ⟨types, htypes, hordered, hmem⟩ := exists_origins root tagPrefix file
    (fun _ => Or.inl) fun _ _ _ htype => .type htype
  obtain ⟨methods, hmethods, hordered', hmem'⟩ := exists_origins root tagPrefix file
    (fun _ => Or.inr) fun _ _ hvisit hmethod => isLocated_method hvisit hmethod
  have hholds : ∀ origin ∈ types ++ methods, ∃ tag, origin.Holds root tagPrefix tag := by
    intro origin horigin
    rcases List.mem_append.1 horigin with h | h
    · exact ((hmem origin).1 h).2
    · exact ((hmem' origin).1 h).2
  have hnodup : (types ++ methods).Nodup := by
    refine List.nodup_append.2 ⟨nodup_of_isBefore hordered, nodup_of_isBefore hordered', ?_⟩
    rintro origin htype other hmethod rfl
    obtain ⟨⟨node, hnode, hdeclares⟩, -⟩ := (hmem origin).1 htype
    obtain ⟨⟨node', hnode', hdeclares'⟩, -⟩ := (hmem' origin).1 hmethod
    rw [hnode, Option.some.injEq] at hnode'
    rw [← hnode', not_isMethodDeclaration hdeclares] at hdeclares'
    cases hdeclares'
  exact ⟨fun _ _ _ _ _ h h' => h.declaration_unique h', types, methods,
    List.rel_append htypes hmethods, nodup_map_of_holds hnodup hholds, ⟨hordered, hordered'⟩, hmem,
    hmem'⟩

/-- A comment inside an enum constant, whose method is located by the enum. -/
theorem sourceEntries_attributed_of_enum_constant :
    let text := "/**@aicontext-rule a @aicontext-rule b*/class A\x7b".toList ++
      "enum E\x7bX\x7b/**@aicontext-rule c*/void m()\x7b\x7d\x7d\x7d\x7d".toList
    let root := (readSource text).root
    let rule := fun (location : Text) (level : Level) (content : Text) =>
      (⟨location, "A.java".toList, 1, level, "rule".toList, content, none⟩ : Entry)
    let above : Place := [1, 2, 1, 2, 1, 1]
    Documents root (above ++ [1]) (above ++ [2]) "@aicontext-rule c".toList ∧
      (∀ other body, Documents root (above ++ [1]) other body → above ++ [2] = other) ∧
      sourceEntries defaultTagPrefix "A.java".toList root =
        [rule ['A'] .architectural ['a'], rule ['A'] .architectural ['b'],
          rule "E.m()".toList .implementation ['c']] ∧
      ∃ types methods : List Origin,
        List.Forall₂ (Origin.Gives root defaultTagPrefix "A.java".toList) (types ++ methods)
          (sourceEntries defaultTagPrefix "A.java".toList root) ∧
        ((types ++ methods).map fun origin => (origin.comment, origin.number)).Nodup := by
  intro text root rule above
  have hany : (root.at? (above ++ [1])).any (fun node => node.kind == .blockComment &&
      node.isNamed && node.text == "/**@aicontext-rule c*/".toList) = true := by decide +kernel
  have hmethod : (root.at? (above ++ [2])).any Tree.isMethodDeclaration = true := by
    decide +kernel
  obtain ⟨node, hnode, htest⟩ := (Option.any_eq_true _ _).1 hany
  obtain ⟨declaration, hdeclaration, hdeclares⟩ := (Option.any_eq_true _ _).1 hmethod
  simp only [Bool.and_eq_true, beq_iff_eq] at htest
  have hdocuments : Documents root (above ++ [1]) (above ++ [2]) "@aicontext-rule c".toList :=
    ⟨⟨node, hnode, htest.1.1, htest.2⟩, ⟨above, 1, 2, rfl, rfl, by decide,
      ⟨node, hnode, htest.1.2⟩, fun k hlower hupper => by omega⟩, declaration, hdeclaration,
      .inr hdeclares⟩
  obtain ⟨hunique, types, methods, hgives, hnodup, -⟩ :=
    sourceEntries_attributed defaultTagPrefix "A.java".toList root
  exact ⟨hdocuments, fun other body h => hunique _ _ other _ body hdocuments h, by decide +kernel,
    types, methods, hgives, hnodup⟩

end DocGraph
