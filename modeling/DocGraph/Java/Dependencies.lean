import DocGraph.Java.Walk

/-!
# Dependencies of a type declaration

A type declaration depends on the types that its members name: the types of fields, constants,
annotation elements, parameters and results, and the components of a record. A type names its own
identifier and those of its arguments, bounds, scopes and elements. Annotations, bodies, values,
supertypes and nested declarations do not count.

`usedTypes` keeps the names that belong to a project, without the name of the declaration itself.
-/

namespace DocGraph.Java

namespace Tree

mutual

/-- The type identifiers in a type, left to right. -/
def typeNames : Tree → List Text
  | leaf kind _ lexeme => if kind = .typeIdentifier then [lexeme.text] else []
  | branch kind _ children =>
    match kind with
    | .genericType => partNames children
    | .scopedType => partNames children
    | .typeArguments => partNames children
    | .wildcard => partNames children
    | .annotatedType => partNames children
    | .arrayType => elementNames children
    | _ => []

/-- The type identifiers in the parts of a type, annotations left out. -/
def partNames : List Tree → List Text
  | [] => []
  | part :: rest =>
    if part.kind = .annotationUse then partNames rest else typeNames part ++ partNames rest

/-- The type identifiers in the element of an array type. -/
def elementNames : List Tree → List Text
  | [] => []
  | part :: rest => if part.role = some .element then typeNames part else elementNames rest

end

/-- The types of one parameter. In one of variable number the type has no role of its own: it is
what stands beside the modifiers, the annotations and the name. -/
def typesOfParameter (parameter : Tree) : List Tree :=
  match parameter.kind with
  | .formalParameter => (parameter.child? .type).toList
  | .spreadParameter =>
    parameter.namedChildren.filter (·.kind ∉ [.modifiers, .declarators, .annotationUse])
  | _ => []

def typesOfParameters (parameters : Tree) : List Tree :=
  parameters.namedChildren.flatMap typesOfParameter

/-- The types in the parentheses of a callable member or a record. -/
def parenthesesTypes (declaration : Tree) : List Tree :=
  match declaration.child? .parameters with
  | some parameters => parameters.typesOfParameters
  | none => []

/-- The types of one member. -/
def ownTypes (member : Tree) : List Tree :=
  match member.kind with
  | .fieldDeclaration => (member.child? .type).toList
  | .constantDeclaration => (member.child? .type).toList
  | .annotationElementDeclaration => (member.child? .type).toList
  | .constructorDeclaration => member.parenthesesTypes
  | .methodDeclaration => member.parenthesesTypes ++ (member.child? .type).toList
  | _ => []

/-- The members in the body of a declaration. Those of an enumeration follow its constants. -/
def members (declaration : Tree) : List Tree :=
  match declaration.child? .body with
  | some body =>
    body.namedChildren.flatMap fun child =>
      if child.kind = .enumBodyDeclarations then child.namedChildren else [child]
  | none => []

/-- The types that the members of a declaration name. -/
def typesOfMember (declaration : Tree) : List Tree :=
  (if declaration.kind = .recordDeclaration then declaration.parenthesesTypes else []) ++
    declaration.members.flatMap ownTypes

/-- The type identifiers in the members of a declaration. -/
def memberTypeNames (declaration : Tree) : List Text := declaration.typesOfMember.flatMap typeNames

end Tree

/-- The types of a project that a declaration uses, each once. -/
def usedTypes (declaration : Tree) (project : List Text) : List Text :=
  (declaration.memberTypeNames.filter fun name =>
    name != declaration.declaredName && project.elem name).eraseDups

end DocGraph.Java
