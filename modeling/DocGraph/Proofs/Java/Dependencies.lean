import DocGraph.Java.Dependencies
import DocGraph.Java.Grammar
import DocGraph.Proofs.Text.Order

/-!
# What a declaration depends on

A declaration mentions the type identifiers that are reached from the types of its members: through
the parts of composite types and the elements of array types, never through an annotation. Which
these are does not depend on any project. The types that are used are the mentioned ones that belong
to the project, without the declaration itself.

Whatever is not on the way from a declaration to its member types has no influence, and neither has
the place where they stand. `Tree.spelled` is what is left of a type without its place, annotations
and comments, and it still names the same types.
-/

namespace DocGraph.Java

/-- The kinds of types that are made of types. -/
def NodeKind.isComposite : NodeKind → Bool
  | .genericType => true
  | .scopedType => true
  | .typeArguments => true
  | .wildcard => true
  | .annotatedType => true
  | _ => false

namespace Tree

variable {type part declaration member : Tree} {parts : List Tree} {name : Text}

/-! ## From a type to its identifiers -/

/-- That a type is reached from another one, through parts and elements. -/
inductive Reaches (inner : Tree) : Tree → Prop
  | self : Reaches inner inner
  | inPart {type part : Tree} (hkind : type.kind.isComposite = true)
      (hpart : part ∈ type.namedChildren) (hplain : part.kind ≠ .annotationUse)
      (h : Reaches inner part) : Reaches inner type
  | inElement {type element : Tree} (hkind : type.kind = .arrayType)
      (helement : type.child? .element = some element) (h : Reaches inner element) :
      Reaches inner type

/-- That a type identifier with a name is reached from a type. -/
def Names (type : Tree) (name : Text) : Prop :=
  ∃ role lexeme, Reaches (leaf .typeIdentifier role lexeme) type ∧ lexeme.text = name

theorem typeNames_branch (kind : NodeKind) (role : Option Role) (children : List Tree) :
    typeNames (branch kind role children) =
      if kind.isComposite then partNames children
      else if kind = .arrayType then elementNames children
      else [] := by
  cases kind <;> rfl

/-- Only types name anything. -/
theorem kind_of_mem_typeNames (h : name ∈ typeNames type) :
    type.kind = .typeIdentifier ∨ type.kind.isComposite = true ∨ type.kind = .arrayType := by
  cases type with
  | leaf kind role lexeme =>
    rw [typeNames] at h
    split at h
    · next hkind => exact .inl hkind
    · cases h
  | branch kind role children =>
    rw [typeNames_branch] at h
    split at h
    · next hkind => exact .inr (.inl hkind)
    · split at h
      · next hkind => exact .inr (.inr hkind)
      · cases h

theorem kind_ne_of_mem_typeNames {kind : NodeKind} (h : name ∈ typeNames type)
    (hkind : ¬ (kind = .typeIdentifier ∨ kind.isComposite = true ∨ kind = .arrayType)) :
    type.kind ≠ kind := by
  rintro rfl
  exact hkind (kind_of_mem_typeNames h)

theorem typeNames_eq_nil (h : ¬ (type.kind = .typeIdentifier ∨ type.kind.isComposite = true ∨
    type.kind = .arrayType)) : typeNames type = [] :=
  List.eq_nil_iff_forall_not_mem.2 fun _ hname => h (kind_of_mem_typeNames hname)

/-- Annotations would name nothing even if they were not left out. -/
theorem partNames_eq_flatMap (parts : List Tree) : partNames parts = parts.flatMap typeNames := by
  induction parts with
  | nil => rfl
  | cons part rest ih =>
    rw [partNames, List.flatMap_cons, ih]
    split
    · next hkind => rw [typeNames_eq_nil (by rw [hkind]; decide), List.nil_append]
    · rfl

theorem elementNames_eq (parts : List Tree) :
    elementNames parts = ((parts.find? (·.role == some .element)).map typeNames).getD [] := by
  induction parts with
  | nil => rfl
  | cons part rest ih =>
    rw [elementNames]
    split
    · next hrole =>
      rw [List.find?_cons_of_pos (by simp [hrole])]
      rfl
    · next hrole => rw [List.find?_cons_of_neg (by simp [hrole]), ih]

/-- A composite type names what its parts name. -/
theorem typeNames_of_isComposite (h : type.kind.isComposite = true) :
    typeNames type = type.children.flatMap typeNames := by
  cases type with
  | leaf kind role lexeme =>
    have hkind : kind ≠ .typeIdentifier := by
      rintro rfl
      cases h
    rw [typeNames, if_neg hkind]
    rfl
  | branch kind role children =>
    change kind.isComposite = true at h
    rw [typeNames_branch, if_pos h, partNames_eq_flatMap]
    rfl

/-- An array type names what its element names. -/
theorem typeNames_of_arrayType (h : type.kind = .arrayType) :
    typeNames type = ((type.child? .element).map typeNames).getD [] := by
  cases type with
  | leaf kind role lexeme =>
    cases h
    rfl
  | branch kind role children =>
    cases h
    exact elementNames_eq children

theorem names_of_mem_typeNames (h : name ∈ typeNames type) : type.Names name := by
  induction type using byChildren with
  | step type ih =>
    cases kind_of_mem_typeNames h with
    | inl hkind =>
      cases type with
      | leaf kind role lexeme =>
        cases hkind
        exact ⟨role, lexeme, .self, (List.mem_singleton.1 h).symm⟩
      | branch kind role children =>
        cases hkind
        cases h
    | inr hkind =>
      cases hkind with
      | inl hkind =>
        rw [typeNames_of_isComposite hkind] at h
        obtain ⟨part, hpart, hname⟩ := List.mem_flatMap.1 h
        obtain ⟨role, lexeme, hreaches, htext⟩ := ih part hpart hname
        -- Tokens and annotations name nothing, so the part is neither.
        have hnamed : part.isNamed = true :=
          bne_iff_ne.2 (kind_ne_of_mem_typeNames hname (by decide))
        have hplain : part.kind ≠ .annotationUse := kind_ne_of_mem_typeNames hname (by decide)
        have hchild : part ∈ type.namedChildren := List.mem_filter.2 ⟨hpart, hnamed⟩
        exact ⟨role, lexeme, .inPart hkind hchild hplain hreaches, htext⟩
      | inr hkind =>
        rw [typeNames_of_arrayType hkind] at h
        cases helement : type.child? .element with
        | none =>
          rw [helement] at h
          cases h
        | some element =>
          rw [helement] at h
          have hchild : element ∈ type.children := List.mem_of_find?_eq_some helement
          obtain ⟨role, lexeme, hreaches, htext⟩ := ih element hchild h
          exact ⟨role, lexeme, .inElement hkind helement hreaches, htext⟩

theorem mem_typeNames_of_reaches {role : Option Role} {lexeme : Lexeme}
    (h : Reaches (leaf .typeIdentifier role lexeme) type) : lexeme.text ∈ typeNames type := by
  induction h with
  | self => exact List.mem_singleton_self _
  | @inPart type part hkind hpart _ _ ih =>
    rw [typeNames_of_isComposite hkind]
    exact List.mem_flatMap.2 ⟨part, List.mem_of_mem_filter hpart, ih⟩
  | inElement hkind helement _ ih =>
    rw [typeNames_of_arrayType hkind, helement]
    exact ih

/-- The names that are collected from a type are those of the identifiers that it reaches. -/
theorem mem_typeNames_iff : name ∈ typeNames type ↔ type.Names name := by
  constructor
  · exact names_of_mem_typeNames
  · rintro ⟨role, lexeme, hreaches, rfl⟩
    exact mem_typeNames_of_reaches hreaches

/-! ## From a declaration to its member types -/

/-- That a type is that of a parameter, one of variable number included. -/
inductive IsParameterOf (type parameter : Tree) : Prop
  | formal (hkind : parameter.kind = .formalParameter) (htype : parameter.child? .type = some type)
  | spread (hkind : parameter.kind = .spreadParameter) (htype : type ∈ parameter.namedChildren)
      (hbeside : type.kind ∉ [.modifiers, .declarators, .annotationUse])

/-- That a type stands in the parentheses of a callable member or a record. -/
inductive HasParameterType (owner type : Tree) : Prop
  | intro {parameters parameter : Tree} (hparameters : owner.child? .parameters = some parameters)
      (hparameter : parameter ∈ parameters.namedChildren) (htype : type.IsParameterOf parameter)

/-- That a node is a member in the body of a declaration. -/
inductive HasMember (declaration member : Tree) : Prop
  | inBody {body : Tree} (hbody : declaration.child? .body = some body)
      (hmember : member ∈ body.namedChildren) (hkind : member.kind ≠ .enumBodyDeclarations)
  | afterConstants {body group : Tree} (hbody : declaration.child? .body = some body)
      (hgroup : group ∈ body.namedChildren) (hkind : group.kind = .enumBodyDeclarations)
      (hmember : member ∈ group.namedChildren)

/-- That a type is one of those that a member has itself, be it a field or something to call. -/
inductive HasOwnType (member type : Tree) : Prop
  | typed (hkind : member.kind = .fieldDeclaration ∨ member.kind = .constantDeclaration ∨
        member.kind = .annotationElementDeclaration)
      (htype : member.child? .type = some type)
  | parameter
      (hkind : member.kind = .constructorDeclaration ∨ member.kind = .methodDeclaration)
      (htype : member.HasParameterType type)
  | result (hkind : member.kind = .methodDeclaration) (htype : member.child? .type = some type)

/-- That a type is a member type of a declaration. -/
inductive HasMemberType (declaration type : Tree) : Prop
  | component (hkind : declaration.kind = .recordDeclaration)
      (htype : declaration.HasParameterType type)
  | ofMember {member : Tree} (hmember : declaration.HasMember member)
      (htype : member.HasOwnType type)

theorem mem_typesOfParameter_iff {parameter : Tree} :
    type ∈ parameter.typesOfParameter ↔ type.IsParameterOf parameter := by
  rw [typesOfParameter]
  constructor
  · intro h
    split at h
    · next hkind => exact .formal hkind (Option.mem_toList.1 h)
    · next hkind =>
      obtain ⟨htype, hbeside⟩ := List.mem_filter.1 h
      exact .spread hkind htype (of_decide_eq_true hbeside)
    · cases h
  · intro h
    cases h with
    | formal hkind htype =>
      rw [hkind]
      exact Option.mem_toList.2 htype
    | spread hkind htype hbeside =>
      rw [hkind]
      exact List.mem_filter.2 ⟨htype, decide_eq_true hbeside⟩

theorem mem_parenthesesTypes_iff :
    type ∈ declaration.parenthesesTypes ↔ declaration.HasParameterType type := by
  rw [parenthesesTypes]
  cases hparameters : declaration.child? .parameters with
  | none =>
    constructor
    · intro h
      cases h
    · rintro ⟨hsome, -, -⟩
      rw [hparameters] at hsome
      cases hsome
  | some parameters =>
    simp only [typesOfParameters, List.mem_flatMap, mem_typesOfParameter_iff]
    constructor
    · rintro ⟨parameter, hparameter, htype⟩
      exact ⟨hparameters, hparameter, htype⟩
    · rintro ⟨hsome, hparameter, htype⟩
      cases hparameters.symm.trans hsome
      exact ⟨_, hparameter, htype⟩

theorem mem_members_iff : member ∈ declaration.members ↔ declaration.HasMember member := by
  rw [members]
  cases hbody : declaration.child? .body with
  | none =>
    constructor
    · intro h
      cases h
    · intro h
      cases h with
      | inBody hsome => cases hbody.symm.trans hsome
      | afterConstants hsome => cases hbody.symm.trans hsome
  | some body =>
    rw [List.mem_flatMap]
    constructor
    · rintro ⟨child, hchild, hmember⟩
      split at hmember
      · next hkind => exact .afterConstants hbody hchild hkind hmember
      · next hkind =>
        cases List.mem_singleton.1 hmember
        exact .inBody hbody hchild hkind
    · intro h
      cases h with
      | inBody hsome hmember hkind =>
        cases hbody.symm.trans hsome
        exact ⟨member, hmember, by rw [if_neg hkind]; exact List.mem_singleton_self _⟩
      | afterConstants hsome hgroup hkind hmember =>
        cases hbody.symm.trans hsome
        exact ⟨_, hgroup, by rw [if_pos hkind]; exact hmember⟩

theorem mem_ownTypes_iff : type ∈ member.ownTypes ↔ member.HasOwnType type := by
  rw [ownTypes]
  constructor
  · intro h
    split at h
    · next hkind => exact .typed (.inl hkind) (Option.mem_toList.1 h)
    · next hkind => exact .typed (.inr (.inl hkind)) (Option.mem_toList.1 h)
    · next hkind => exact .typed (.inr (.inr hkind)) (Option.mem_toList.1 h)
    · next hkind => exact .parameter (.inl hkind) (mem_parenthesesTypes_iff.1 h)
    · next hkind =>
      cases List.mem_append.1 h with
      | inl htype => exact .parameter (.inr hkind) (mem_parenthesesTypes_iff.1 htype)
      | inr htype => exact .result hkind (Option.mem_toList.1 htype)
    · cases h
  · intro h
    cases h with
    | typed hkind htype =>
      obtain hkind | hkind | hkind := hkind <;> rw [hkind] <;> exact Option.mem_toList.2 htype
    | parameter hkind htype =>
      cases hkind with
      | inl hkind =>
        rw [hkind]
        exact mem_parenthesesTypes_iff.2 htype
      | inr hkind =>
        rw [hkind]
        exact List.mem_append_left _ (mem_parenthesesTypes_iff.2 htype)
    | result hkind htype =>
      rw [hkind]
      exact List.mem_append_right _ (Option.mem_toList.2 htype)

theorem mem_typesOfMember_iff :
    type ∈ declaration.typesOfMember ↔ declaration.HasMemberType type := by
  rw [typesOfMember, List.mem_append, List.mem_flatMap]
  simp only [mem_members_iff, mem_ownTypes_iff]
  constructor
  · intro h
    cases h with
    | inl hcomponent =>
      split at hcomponent
      · next hkind => exact .component hkind (mem_parenthesesTypes_iff.1 hcomponent)
      · cases hcomponent
    | inr hmember =>
      obtain ⟨member, hmember, htype⟩ := hmember
      exact .ofMember hmember htype
  · intro h
    cases h with
    | component hkind htype =>
      rw [if_pos hkind]
      exact .inl (mem_parenthesesTypes_iff.2 htype)
    | @ofMember member hmember htype => exact .inr ⟨member, hmember, htype⟩

/-! ## What is mentioned -/

/-- That a member type of a declaration names a type. -/
def Mentions (declaration : Tree) (name : Text) : Prop :=
  ∃ type, declaration.HasMemberType type ∧ type.Names name

theorem mem_memberTypeNames_iff :
    name ∈ declaration.memberTypeNames ↔ declaration.Mentions name := by
  simp only [memberTypeNames, List.mem_flatMap, mem_typesOfMember_iff, mem_typeNames_iff, Mentions]

/-! ## Types as they are spelled -/

/-- The node in another role, or in none. -/
def inRole (role : Option Role) : Tree → Tree
  | leaf kind _ lexeme => leaf kind role lexeme
  | branch kind _ children => branch kind role children

/-- Whether a node is an annotation or a comment and nothing else for its parent. -/
def isRemark (node : Tree) : Bool :=
  node.role == none &&
    (node.kind == .annotationUse || node.kind == .lineComment || node.kind == .blockComment)

/-- A node with parts. An annotated type of which one part is left is just that part. -/
def withParts (kind : NodeKind) (role : Option Role) (parts : List Tree) : Tree :=
  match kind, parts with
  | .annotatedType, [part] => part.inRole role
  | kind, parts => branch kind role parts

mutual

/-- A type without annotations and comments, wherever it stands. -/
def spelled : Tree → Tree
  | leaf kind role lexeme => leaf kind role { lexeme with line := 0, gap := [] }
  | branch kind role children => withParts kind role (spelledParts children)

/-- The parts of a type that are neither annotations nor comments. -/
def spelledParts : List Tree → List Tree
  | [] => []
  | part :: rest => if part.isRemark then spelledParts rest else spelled part :: spelledParts rest

end

theorem typeNames_inRole (role : Option Role) (type : Tree) :
    typeNames (type.inRole role) = typeNames type := by
  cases type with
  | leaf => rfl
  | branch kind => rw [inRole, typeNames_branch, typeNames_branch]

theorem typeNames_of_isRemark (h : type.isRemark = true) : typeNames type = [] := by
  apply typeNames_eq_nil
  rw [isRemark, Bool.and_eq_true, Bool.or_eq_true, Bool.or_eq_true, beq_iff_eq, beq_iff_eq,
    beq_iff_eq, beq_iff_eq] at h
  rcases h.2 with (hkind | hkind) | hkind <;> rw [hkind] <;> decide

theorem typeNames_withParts (kind : NodeKind) (role : Option Role) (parts : List Tree) :
    typeNames (withParts kind role parts) = typeNames (branch kind role parts) := by
  unfold withParts
  split
  · next part =>
    have hcomposite : NodeKind.annotatedType.isComposite = true := rfl
    rw [typeNames_inRole, typeNames_branch, if_pos hcomposite, partNames_eq_flatMap]
    exact (List.append_nil _).symm
  · rfl

@[simp]
theorem role_inRole (role : Option Role) (type : Tree) : (type.inRole role).role = role := by
  cases type <;> rfl

@[simp]
theorem role_withParts (kind : NodeKind) (role : Option Role) (parts : List Tree) :
    (withParts kind role parts).role = role := by
  unfold withParts
  split
  · exact role_inRole _ _
  · rfl

theorem role_spelled (type : Tree) : type.spelled.role = type.role := by
  cases type with
  | leaf => rfl
  | branch kind role children => rw [spelled, role_withParts]; rfl

theorem flatMap_typeNames_spelledParts
    (h : ∀ part ∈ parts, typeNames part.spelled = typeNames part) :
    (spelledParts parts).flatMap typeNames = parts.flatMap typeNames := by
  induction parts with
  | nil => rfl
  | cons part rest ih =>
    rw [List.forall_mem_cons] at h
    rw [spelledParts, List.flatMap_cons]
    split
    · next hremark => rw [ih h.2, typeNames_of_isRemark hremark, List.nil_append]
    · rw [List.flatMap_cons, ih h.2, h.1]

theorem elementNames_spelledParts
    (h : ∀ part ∈ parts, typeNames part.spelled = typeNames part) :
    elementNames (spelledParts parts) = elementNames parts := by
  induction parts with
  | nil => rfl
  | cons part rest ih =>
    rw [List.forall_mem_cons] at h
    rw [spelledParts, elementNames]
    split
    · next hremark =>
      have hrole : part.role = none := by
        rw [isRemark, Bool.and_eq_true, beq_iff_eq] at hremark
        exact hremark.1
      rw [ih h.2, hrole]
      rfl
    · rw [elementNames, role_spelled, ih h.2, h.1]

/-- A type names the same types wherever it stands and however it is annotated. -/
theorem typeNames_spelled (type : Tree) : typeNames type.spelled = typeNames type := by
  induction type using byChildren with
  | step type ih =>
    cases type with
    | leaf kind role lexeme => rfl
    | branch kind role children =>
      change ∀ part ∈ children, typeNames part.spelled = typeNames part at ih
      rw [spelled, typeNames_withParts, typeNames_branch, typeNames_branch, partNames_eq_flatMap,
        partNames_eq_flatMap, flatMap_typeNames_spelledParts ih, elementNames_spelledParts ih]

/-- That declarations have the same member types, wherever these stand and however they are
annotated. A comment beside a type is none. -/
def SameMemberTypes (declaration other : Tree) : Prop :=
  ∀ type, type.isRemark = false →
    ((∃ member, declaration.HasMemberType member ∧ member.spelled = type) ↔
      ∃ member, other.HasMemberType member ∧ member.spelled = type)

theorem SameMemberTypes.mentions {other : Tree} (h : declaration.SameMemberTypes other)
    (hmentions : declaration.Mentions name) : other.Mentions name := by
  obtain ⟨type, htype, hnames⟩ := hmentions
  have hname : name ∈ typeNames type.spelled := by
    rwa [typeNames_spelled, mem_typeNames_iff]
  have hremark : type.spelled.isRemark = false := by
    by_contra hremark
    rw [typeNames_of_isRemark (by simpa using hremark)] at hname
    cases hname
  obtain ⟨found, hfound, hspelled⟩ := (h type.spelled hremark).1 ⟨type, htype, rfl⟩
  refine ⟨found, hfound, ?_⟩
  rwa [← mem_typeNames_iff, ← typeNames_spelled, hspelled]

theorem SameMemberTypes.mentions_iff {other : Tree} (h : declaration.SameMemberTypes other) :
    other.Mentions name ↔ declaration.Mentions name :=
  ⟨SameMemberTypes.mentions fun type hremark => (h type hremark).symm, h.mentions⟩

theorem SameMemberTypes.of_map_spelled {other : Tree}
    (h : declaration.typesOfMember.map spelled = other.typesOfMember.map spelled) :
    declaration.SameMemberTypes other := by
  intro type _
  simp only [← mem_typesOfMember_iff, ← List.mem_map, h]

end Tree

theorem mem_usedTypes_iff {declaration : Tree} {project : List Text} {name : Text} :
    name ∈ usedTypes declaration project ↔
      declaration.Mentions name ∧ name ∈ project ∧ name ≠ declaration.declaredName := by
  rw [usedTypes, List.mem_eraseDups, List.mem_filter, Tree.mem_memberTypeNames_iff,
    Bool.and_eq_true, bne_iff_ne, List.elem_iff, and_comm (a := name ≠ _)]

/-- The types that a declaration uses are those that it mentions and that belong to the project, but
for itself. So they can be found for each part of a project on its own, and all declarations with
one name and the same member types use the same types, whatever else they hold. -/
theorem usedTypes_mentioned (declaration : Tree) (project : List Text) :
    (usedTypes declaration project).Nodup ∧
      (∀ name, name ∈ usedTypes declaration project ↔
        declaration.Mentions name ∧ name ∈ project ∧ name ≠ declaration.declaredName) ∧
      declaration.declaredName ∉ usedTypes declaration project ∧
      usedTypes declaration project ⊆ project ∧
      (∀ few more : List Text, (∀ name, name ∈ project ↔ name ∈ few ∨ name ∈ more) →
        ∀ name, name ∈ usedTypes declaration project ↔
          name ∈ usedTypes declaration few ∨ name ∈ usedTypes declaration more) ∧
      ∀ other : Tree, other.declaredName = declaration.declaredName →
        declaration.SameMemberTypes other →
        ∀ name, name ∈ usedTypes other project ↔ name ∈ usedTypes declaration project := by
  refine ⟨nodup_eraseDups _, fun name => mem_usedTypes_iff, ?_, ?_, ?_, ?_⟩
  · intro hown
    exact (mem_usedTypes_iff.1 hown).2.2 rfl
  · intro name hname
    exact (mem_usedTypes_iff.1 hname).2.1
  · intro few more hproject name
    rw [mem_usedTypes_iff, mem_usedTypes_iff, mem_usedTypes_iff, hproject, ← and_or_left,
      ← or_and_right]
  · intro other hname hsame name
    rw [mem_usedTypes_iff, mem_usedTypes_iff, hsame.mentions_iff, hname]

/-- Two classes that differ in annotations, a supertype, a value, a body, a nested class and line
breaks. -/
theorem usedTypes_mentioned_of_two_bodies :
    ∃ first ∈ (outline
        "class A\x7b@X List<@Y B[]> f = new C(); F m(D... d)\x7bC c;\x7d\x7d".toList
        ).root.findType? ['A'],
      ∃ second ∈ (outline
          "class A extends C\x7bList<B[]>\nf; class G\x7bC c;\x7d F m(D... d)\x7b\x7d\x7d".toList
          ).root.findType? ['A'],
        second.declaredName = first.declaredName ∧ first.SameMemberTypes second ∧
          usedTypes first [['A'], ['B'], ['C'], ['F']] = [['B'], ['F']] ∧
          (∀ name, name ∈ usedTypes second [['A'], ['B'], ['C'], ['F']] ↔
            name ∈ usedTypes first [['A'], ['B'], ['C'], ['F']]) ∧
          ∀ name, name ∈ usedTypes first [['A'], ['B'], ['C'], ['F']] ↔
            name ∈ usedTypes first [['A'], ['B']] ∨ name ∈ usedTypes first [['C'], ['F']] := by
  have hread :
      ∃ first ∈ (outline
          "class A\x7b@X List<@Y B[]> f = new C(); F m(D... d)\x7bC c;\x7d\x7d".toList
          ).root.findType? ['A'],
        ∃ second ∈ (outline
            "class A extends C\x7bList<B[]>\nf; class G\x7bC c;\x7d F m(D... d)\x7b\x7d\x7d".toList
            ).root.findType? ['A'],
          second.declaredName = first.declaredName ∧
            first.typesOfMember.map Tree.spelled = second.typesOfMember.map Tree.spelled ∧
            usedTypes first [['A'], ['B'], ['C'], ['F']] = [['B'], ['F']] := by
    decide +kernel
  obtain ⟨first, hfirst, second, hsecond, hname, hspelled, hused⟩ := hread
  have hsame : first.SameMemberTypes second := .of_map_spelled hspelled
  have hboth : ∀ name : Text, name ∈ [['A'], ['B'], ['C'], ['F']] ↔
      name ∈ [['A'], ['B']] ∨ name ∈ [['C'], ['F']] := by
    intro name
    rw [← List.mem_append]
    rfl
  obtain ⟨-, -, -, -, hsplit, hother⟩ :=
    usedTypes_mentioned first [['A'], ['B'], ['C'], ['F']]
  exact ⟨first, hfirst, second, hsecond, hname, hsame, hused, hother second hname hsame,
    hsplit _ _ hboth⟩

end DocGraph.Java
