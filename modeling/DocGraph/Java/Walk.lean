import DocGraph.Java.Tree

/-!
# Walking a syntax tree

`Tree.visits` lists the nodes of a tree, every node before its children and the children from left
to right. A visit also tells what a node cannot know of itself: the nearest named sibling before it
and the type declaration around it.

The walk keeps a stack of visits to come, so that its depth does not depend on the tree. As each
step visits one node, the size of the tree bounds their number.
-/

namespace DocGraph.Java

/-- A node and its surroundings. -/
structure Visit where
  node : Tree
  previous : Option Tree
  owner : Option Text
deriving Repr

namespace Visit

/-- Visits to siblings, given the nearest named one before them. -/
def siblings (owner : Option Text) (previous : Option Tree) : List Tree → List Visit
  | [] => []
  | node :: rest =>
    ⟨node, previous, owner⟩ :: siblings owner (if node.isNamed then some node else previous) rest

/-- The name of the innermost type declaration around the children of a node. -/
def innerOwner (visit : Visit) : Option Text :=
  if visit.node.isTypeDeclaration then some visit.node.declaredName else visit.owner

def children (visit : Visit) : List Visit :=
  siblings visit.innerOwner none visit.node.children

/-- The walk from a stack of visits, in a given number of steps. -/
def walk : Nat → List Visit → List Visit
  | 0, _ => []
  | _ + 1, [] => []
  | steps + 1, visit :: pending => visit :: walk steps (visit.children ++ pending)

/-- The text of a documentation comment between its delimiters. -/
def commentBody? (text : Text) : Option Text :=
  if Text.startsWith "/**" text && Text.endsWith "*/" text then
    some ((text.drop 3).take (text.length - 5))
  else none

/-- The documentation comment of a declaration: the named sibling just before it, if that is one. -/
def javadoc? (visit : Visit) : Option Text :=
  match visit.previous with
  | some node => if node.kind = .blockComment then commentBody? node.text else none
  | none => none

end Visit

namespace Tree

def visits (root : Tree) : List Visit := Visit.walk root.size [⟨root, none, none⟩]

/-- The visits to type declarations, nested and local ones included. -/
def typeVisits (root : Tree) : List Visit := root.visits.filter (·.node.isTypeDeclaration)

def methodVisits (root : Tree) : List Visit := root.visits.filter (·.node.isMethodDeclaration)

/-- The names of all types declared in a source, each once. -/
def declaredTypeNames (root : Tree) : List Text :=
  ((root.typeVisits.map (·.node.declaredName)).filter (!·.isEmpty)).eraseDups

/-- The first declaration of a type with a name. -/
def findType? (root : Tree) (name : Text) : Option Tree :=
  (root.typeVisits.find? (·.node.declaredName == name)).map Visit.node

/-- The name of the package of a source as it is written, empty for the default package. -/
def declaredPackage (root : Tree) : Text :=
  match root.children.find? (·.kind == .packageDeclaration) with
  | some declaration =>
    match declaration.children.find? fun part =>
        part.kind == .identifier || part.kind == .scopedIdentifier with
    | some name => name.text
    | none => []
  | none => []

end Tree

end DocGraph.Java
