import DocGraph.Java.Lexeme

/-!
# Syntax trees of Java

A syntax tree keeps every lexeme of the source as a leaf, so the text of a node is the part of the
source from its first lexeme to its last. A comment is a child of the smallest node that has lexemes
both before and after it.

A node has a kind. Marks, keywords and the words of expressions have the kind `token`; all other
kinds are named, and only named nodes count as neighbours of each other. A node may have a role for
its parent, such as being its name.
-/

namespace DocGraph.Java

inductive NodeKind
  | program
  | packageDeclaration
  | importDeclaration
  | moduleDeclaration
  | classDeclaration
  | interfaceDeclaration
  | enumDeclaration
  | recordDeclaration
  | annotationTypeDeclaration
  | header
  | classBody
  | interfaceBody
  | annotationTypeBody
  | enumBody
  | enumBodyDeclarations
  | enumConstant
  | fieldDeclaration
  | constantDeclaration
  | annotationElementDeclaration
  | methodDeclaration
  | constructorDeclaration
  | initializer
  | modifiers
  | annotationUse
  | typeParameters
  | formalParameters
  | formalParameter
  | spreadParameter
  | receiverParameter
  | declarators
  | typeIdentifier
  | primitiveType
  | scopedType
  | genericType
  | typeArguments
  | wildcard
  | annotatedType
  | arrayType
  | dimensions
  | identifier
  | scopedIdentifier
  | block
  | statement
  | switchBlock
  | switchGroup
  | switchRule
  | switchLabel
  | parenthesized
  | expression
  | lineComment
  | blockComment
  | fault
  | token
deriving DecidableEq, Repr

/-- What a node is for its parent. -/
inductive Role
  | name
  | type
  | parameters
  | body
  | element
deriving DecidableEq, Repr

/-- A syntax tree. -/
inductive Tree
  | leaf (kind : NodeKind) (role : Option Role) (lexeme : Lexeme)
  | branch (kind : NodeKind) (role : Option Role) (children : List Tree)
deriving Repr

namespace Tree

def kind : Tree → NodeKind
  | leaf kind _ _ => kind
  | branch kind _ _ => kind

/-- The role of a node for its parent. -/
def role : Tree → Option Role
  | leaf _ role _ => role
  | branch _ role _ => role

def children : Tree → List Tree
  | leaf .. => []
  | branch _ _ children => children

/-- The node with another role. -/
def withRole (role : Role) : Tree → Tree
  | leaf kind _ lexeme => leaf kind (some role) lexeme
  | branch kind _ children => branch kind (some role) children

def isNamed (node : Tree) : Bool := node.kind != .token

mutual

/-- Trees are compared node by node. -/
def decEq (first second : Tree) : Decidable (first = second) :=
  match first, second with
  | leaf kind role lexeme, leaf kind' role' lexeme' =>
    decidable_of_iff (kind = kind' ∧ role = role' ∧ lexeme = lexeme') (by rw [leaf.injEq])
  | branch kind role children, branch kind' role' children' =>
    have := decEqAll children children'
    decidable_of_iff (kind = kind' ∧ role = role' ∧ children = children') (by rw [branch.injEq])
  | leaf .., branch .. => isFalse nofun
  | branch .., leaf .. => isFalse nofun

/-- Rows of trees are compared tree by tree. -/
def decEqAll (first second : List Tree) : Decidable (first = second) :=
  match first, second with
  | [], [] => isTrue rfl
  | [], _ :: _ => isFalse nofun
  | _ :: _, [] => isFalse nofun
  | node :: rest, node' :: rest' =>
    have := decEq node node'
    have := decEqAll rest rest'
    decidable_of_iff (node = node' ∧ rest = rest') (by rw [List.cons.injEq])

end

instance : DecidableEq Tree := decEq

section

variable {motive : Tree → Prop}

mutual

/-- What a node has if all its children have it is true of every tree. -/
@[elab_as_elim]
theorem byChildren (step : ∀ node : Tree, (∀ child ∈ node.children, motive child) → motive node)
    (node : Tree) : motive node := by
  cases node with
  | leaf kind role lexeme => exact step _ fun _ hchild => absurd hchild List.not_mem_nil
  | branch kind role children => exact step _ (byChildren_all step children)

theorem byChildren_all
    (step : ∀ node : Tree, (∀ child ∈ node.children, motive child) → motive node)
    (nodes : List Tree) : ∀ node ∈ nodes, motive node := by
  cases nodes with
  | nil => exact fun _ hnode => absurd hnode List.not_mem_nil
  | cons first rest =>
    exact List.forall_mem_cons.2 ⟨byChildren step first, byChildren_all step rest⟩

end

end

mutual

/-- The lexemes of a node, in order. -/
def lexemes : Tree → List Lexeme
  | leaf _ _ lexeme => [lexeme]
  | branch _ _ children => lexemesOfAll children

/-- The lexemes of several nodes, in order. -/
def lexemesOfAll : List Tree → List Lexeme
  | [] => []
  | node :: rest => lexemes node ++ lexemesOfAll rest

end

mutual

/-- The number of nodes of a tree. -/
def size : Tree → Nat
  | leaf .. => 1
  | branch _ _ children => sizeOfAll children + 1

/-- The number of nodes of several trees. -/
def sizeOfAll : List Tree → Nat
  | [] => 0
  | node :: rest => size node + sizeOfAll rest

end

/-- The part of the source that a node covers. -/
def text (node : Tree) : Text :=
  match node.lexemes with
  | [] => []
  | first :: rest => first.text ++ rest.flatMap fun x => x.gap ++ x.text

/-- The line on which a node starts. -/
def line (node : Tree) : Nat :=
  match node.lexemes with
  | [] => 1
  | first :: _ => first.line

def child? (node : Tree) (role : Role) : Option Tree :=
  node.children.find? (·.role == some role)

/-- The children of named kinds. -/
def namedChildren (node : Tree) : List Tree := node.children.filter isNamed

/-- Whether a node declares a named type. -/
def isTypeDeclaration (node : Tree) : Bool :=
  match node.kind with
  | .classDeclaration => true
  | .interfaceDeclaration => true
  | .enumDeclaration => true
  | .recordDeclaration => true
  | .annotationTypeDeclaration => true
  | _ => false

/-- Whether a node declares a method. Constructors and annotation elements are no methods. -/
def isMethodDeclaration (node : Tree) : Bool := node.kind == .methodDeclaration

/-- The name that a node declares, empty if it declares none. -/
def declaredName (node : Tree) : Text :=
  match node.child? .name with
  | some name => name.text
  | none => []

end Tree

end DocGraph.Java
