import DocGraph.Number.Binary64
import DocGraph.Text.Quoted
import DocGraph.Text.Utf8
import DocGraph.Yaml.Timestamp

/-!
# Values

A value is what a node stands for. A mapping keeps its entries in the order in which their keys
first occurred, each key once; keys that are equal as numbers are one key. The number of a mapping
tells whether two mappings are one and the same that occurs in two places.

`Value.text` is a value as a user would read it: a text stands for itself, and everything inside a
collection is shown so that texts can be told from numbers.
-/

namespace DocGraph.Yaml

/-- A value. -/
inductive Value
  | null
  | bool (b : Bool)
  | integer (n : Int)
  | float (x : Binary64)
  | text (t : Text)
  | bytes (b : Bytes)
  | timestamp (t : Timestamp)
  | list (items : List Value)
  | pair (first second : Value)
  | set (items : List Value)
  | mapping (number : Option Nat) (entries : List (Value × Value))
deriving Repr, Inhabited

namespace Value

/-! ## Keys -/

/-- The number that a value is, if it is one. Truth values count as one and zero. -/
def number? : Value → Option (Int ⊕ Binary64)
  | bool b => some (.inl (if b then 1 else 0))
  | integer n => some (.inl n)
  | float x =>
    match x.toInteger? with
    | some n => some (.inl n)
    | none => some (.inr x)
  | _ => none

/-- Whether two values are one key. -/
def isSameKey (a b : Value) : Bool :=
  match a, b with
  | null, null => true
  | text s, text t => s == t
  | bytes s, bytes t => s == t
  | timestamp s, timestamp t => s.isSame t
  | a, b =>
    match a.number?, b.number? with
    | some m, some n => m == n
    | _, _ => false

/-- Whether a value can be a key. Collections that could change cannot. -/
def isKey : Value → Bool
  | list _ => false
  | set _ => false
  | mapping _ _ => false
  | pair a b => a.isKey && b.isKey
  | _ => true

/-- The value at a key of some entries. -/
def lookup? (entries : List (Value × Value)) (key : Value) : Option Value :=
  (entries.find? fun entry => entry.1.isSameKey key).map (·.2)

/-- The entries with a value at a key. A key that is there stays where it is. -/
def insert (entries : List (Value × Value)) (key value : Value) : List (Value × Value) :=
  match entries with
  | [] => [(key, value)]
  | entry :: rest =>
    if entry.1.isSameKey key then (entry.1, value) :: rest else entry :: insert rest key value

/-- Values of which each is kept only at its first place. -/
def distinct (items : List Value) : List Value :=
  items.foldl (fun kept item => if kept.any (·.isSameKey item) then kept else kept ++ [item]) []

/-- Whether a value counts as true. -/
def isTrue : Value → Bool
  | null => false
  | bool b => b
  | integer n => n ≠ 0
  | float x => !x.isZero
  | text t => !t.isEmpty
  | bytes b => !b.isEmpty
  | timestamp _ => true
  | list items => !items.isEmpty
  | pair _ _ => true
  | set items => !items.isEmpty
  | mapping _ entries => !entries.isEmpty

/-! ## Showing values -/

/-- One byte of shown bytes. -/
def showByte (quote : Char) (b : UInt8) : Text :=
  let c := Char.ofNat b.toNat
  if c = quote || c = '\\' then ['\\', c]
  else if c = '\t' then ['\\', 't']
  else if c = '\n' then ['\\', 'n']
  else if c = '\r' then ['\\', 'r']
  else if 0x20 ≤ b.toNat && b.toNat < 0x7F then [c]
  else ['\\', 'x'] ++ Text.hexDigits 2 b.toNat

/-- Bytes as they are shown. -/
def showBytes (b : Bytes) : Text :=
  let quote := Text.quoteFor (b.map fun byte => Char.ofNat byte.toNat)
  'b' :: quote :: b.flatMap (showByte quote) ++ [quote]

/-- A call with arguments, as it is shown. -/
def showCall (name : String) (arguments : List Text) : Text :=
  name.toList ++ '(' :: Text.join ", " arguments ++ [')']

/-- The distance of a zone, as it is shown. -/
def showOffset (minutes : Int) : Text :=
  if minutes = 0 then "datetime.timezone.utc"
  else
    let days := minutes.fdiv (24 * 60)
    let seconds := minutes.fmod (24 * 60) * 60
    let delta :=
      (if days = 0 then [] else ["days=".toList ++ writeInteger days]) ++
        (if seconds = 0 then [] else ["seconds=".toList ++ writeInteger seconds])
    showCall "datetime.timezone" [showCall "datetime.timedelta" delta]

/-- A timestamp inside a collection, as it is shown. -/
def showTimestamp : Timestamp → Text
  | .date d =>
    showCall "datetime.date" [writeNatural d.year, writeNatural d.month, writeNatural d.day]
  | .moment t =>
    let small :=
      if t.microsecond ≠ 0 then [writeNatural t.second, writeNatural t.microsecond]
      else if t.second ≠ 0 then [writeNatural t.second]
      else []
    showCall "datetime.datetime"
      ([t.date.year, t.date.month, t.date.day, t.hour, t.minute].map writeNatural ++ small ++
        (t.offset.map fun minutes => "tzinfo=".toList ++ showOffset minutes).toList)

mutual

/-- A value inside a collection, as it is shown. -/
def shown : Value → Text
  | null => "None"
  | bool b => if b then "True" else "False"
  | integer n => writeInteger n
  | float x => x.write
  | text t => t.quoted
  | bytes b => showBytes b
  | timestamp t => showTimestamp t
  | list items => '[' :: Text.join ", " (shownAll items) ++ [']']
  | pair a b => '(' :: shown a ++ ", ".toList ++ shown b ++ [')']
  | set items =>
    match items with
    | [] => "set()"
    | item :: rest => '\x7b' :: Text.join ", " (shown item :: shownAll rest) ++ ['\x7d']
  | mapping _ entries => '\x7b' :: Text.join ", " (shownEntries entries) ++ ['\x7d']

/-- Values inside a collection, as they are shown. -/
def shownAll : List Value → List Text
  | [] => []
  | value :: rest => shown value :: shownAll rest

/-- The entries of a mapping, as they are shown. -/
def shownEntries : List (Value × Value) → List Text
  | [] => []
  | (key, value) :: rest => (shown key ++ ':' :: ' ' :: shown value) :: shownEntries rest

end

/-- A value as it is read by a user. -/
def display : Value → Text
  | text t => t
  | timestamp t => t.text ' '
  | value => value.shown

end Value

end DocGraph.Yaml
