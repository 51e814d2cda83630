import DocGraph.Text.Basic

/-!
# Paths

A path is an anchor and the names behind it. A relative path has no anchor; an absolute one starts
with one slash, or with exactly two, which lead to the same place but stay visible. Empty names and
single dots are dropped when a path is read, double dots are kept.

A route is the list of names that leads from the root of a file system to an object. It holds no
dots.
-/

namespace DocGraph

/-- What stands in front of the names of a path. -/
inductive Anchor
  | here
  | root
  | doubleRoot
deriving DecidableEq, Repr

/-- A path in a file system. -/
structure Path where
  anchor : Anchor
  names : List Text
deriving DecidableEq, Repr

/-- The names that lead from the root of a file system to an object. -/
abbrev Route := List Text

namespace Anchor

/-- An anchor as it is written. -/
def text : Anchor → Text
  | here => []
  | root => ['/']
  | doubleRoot => ['/', '/']

/-- The anchor of a written path. Three slashes or more are one. -/
def ofText : Text → Anchor
  | '/' :: '/' :: '/' :: _ => root
  | '/' :: '/' :: _ => doubleRoot
  | '/' :: _ => root
  | _ => here

end Anchor

namespace Path

/-- The name of the folder that holds a folder. -/
def up : Text := ['.', '.']

/-- Whether a piece of a written path counts as a name. -/
def keepsName (name : Text) : Bool := !name.isEmpty && name != ['.']

/-- The names between the slashes of a written path. -/
def namesOf (t : Text) : List Text := (Text.pieces (· == '/') t).filter keepsName

/-- Reads a path. Every text is one. -/
def ofText (t : Text) : Path := ⟨Anchor.ofText t, namesOf t⟩

/-- The absolute path along a route. -/
def ofRoute (route : Route) : Path := ⟨.root, route⟩

/-- Whether a path does not depend on the working directory. -/
def isAbsolute (path : Path) : Bool := path.anchor != .here

/-- The path with slashes between its names. -/
def posix (path : Path) : Text := path.anchor.text ++ Text.join ['/'] path.names

/-- The path as it is shown. Where nothing would be seen, a dot stands for it. -/
def text (path : Path) : Text := if path.posix.isEmpty then ['.'] else path.posix

/-- The components of a path: its anchor, if it has one, and its names. -/
def components (path : Path) : List Text :=
  if path.isAbsolute then path.anchor.text :: path.names else path.names

/-- The second path seen from the first one. An absolute path is seen the same from anywhere. -/
def append (base path : Path) : Path :=
  if path.isAbsolute then path else ⟨base.anchor, base.names ++ path.names⟩

/-- The path behind another one to which names lead. -/
def behind (path : Path) (names : List Text) : Path := ⟨path.anchor, path.names ++ names⟩

def child (path : Path) (name : Text) : Path := ⟨path.anchor, path.names ++ [name]⟩

def parent (path : Path) : Path := ⟨path.anchor, path.names.dropLast⟩

/-- The names behind a list of names. -/
def namesAfter? : List Text → List Text → Option (List Text)
  | [], names => some names
  | _ :: _, [] => none
  | a :: base, b :: names => if a = b then namesAfter? base names else none

/-- The rest of a path behind `base`, if it starts with it. -/
def relativeTo? (path base : Path) : Option Path :=
  if path.anchor = base.anchor then
    (namesAfter? base.names path.names).map fun names => ⟨.here, names⟩
  else none

/-- One step along a route: two dots lead back. -/
def follow (route : Route) (name : Text) : Route :=
  if name = up then route.dropLast else route ++ [name]

/-- The route of a path from a working directory, by its text alone. -/
def routeFrom (cwd : Route) (path : Path) : Route :=
  path.names.foldl follow (if path.isAbsolute then [] else cwd)

/-- The absolute path without dots that a path stands for, by its text alone. -/
def resolve (cwd : Route) (path : Path) : Path := ofRoute (path.routeFrom cwd)

/-- Component-wise code point order on lists of names, as a Boolean "at most". -/
def namesLe : List Text → List Text → Bool
  | [], _ => true
  | _ :: _, [] => false
  | a :: s, b :: t => if a = b then namesLe s t else Text.le a b

/-- Puts names in front of the first ones that do not come before them. -/
def insertNames (names : List Text) : List (List Text) → List (List Text)
  | [] => [names]
  | first :: rest =>
    if namesLe names first then names :: first :: rest else first :: insertNames names rest

/-- Names in component-wise order. -/
def sortNames (names : List (List Text)) : List (List Text) := names.foldr insertNames []

end Path

end DocGraph
