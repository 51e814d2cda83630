import DocGraph.Files.Path
import DocGraph.Text.Glob

/-!
# Exclusion patterns

A pattern that holds a slash is matched against a whole path and against everything below it; any
other pattern is matched against each component of a path. Trailing slashes of a pattern count for
nothing, and a pattern of slashes only excludes nothing.

The items of an exclusion list come from a configuration, where they need not be texts. An item that
is no text is a fault, but only where it is reached: the items before it may decide.
-/

namespace DocGraph

/-- A pattern without its trailing slashes. -/
def dropSlashes (pattern : Text) : Text := (pattern.reverse.dropWhile (· = '/')).reverse

def patternExcludes (pattern : Text) (path : Path) : Bool :=
  let bare := dropSlashes pattern
  if bare.isEmpty then false
  else if bare.elem '/' then
    (Glob.parse bare).accepts path.text || (Glob.parse (bare ++ ['/', '*'])).accepts path.text
  else path.components.any fun component => (Glob.parse bare).accepts component

def anyExcludes (patterns : List Text) (path : Path) : Bool :=
  patterns.any fun pattern => patternExcludes pattern path

inductive ExclusionItem
  | pattern (t : Text)
  | bytes
  | other
deriving DecidableEq, Repr

/-- An item that is no pattern. Bytes are a kind of their own. -/
inductive ExclusionFault
  | bytes
  | other
deriving DecidableEq, Repr

/-- Whether a list of items excludes a path. -/
def excludes : List ExclusionItem → Path → Except ExclusionFault Bool
  | [], _ => .ok false
  | .pattern t :: rest, path => if patternExcludes t path then .ok true else excludes rest path
  | .bytes :: _, _ => .error .bytes
  | .other :: _, _ => .error .other

theorem excludes_patterns (patterns : List Text) (path : Path) :
    excludes (patterns.map .pattern) path = .ok (anyExcludes patterns path) := by
  induction patterns with
  | nil => rfl
  | cons t patterns ih =>
    simp only [List.map_cons, excludes, ih, anyExcludes, List.any_cons]
    cases patternExcludes t path <;> simp

end DocGraph
