import DocGraph.Number.Binary64
import DocGraph.Yaml.Cursor

/-!
# Tags and the forms of plain scalars

The tag of a node says what kind of value it stands for. A plain scalar has no tag of its own; its
form tells the kind, which is one of YAML 1.1: truth values, integers in four bases and in groups of
sixty, numbers with a point, dates, null, the merge key and the default key. What has none of these
forms is text.
-/

namespace DocGraph.Yaml

/-- The start of the tags of YAML itself. -/
def standardTag : Text := "tag:yaml.org,2002:"

/-- The kinds of values that a node may stand for. -/
inductive Kind
  | null
  | bool
  | int
  | float
  | binary
  | timestamp
  | orderedMap
  | pairs
  | set
  | text
  | sequence
  | mapping
  | merge
  | value
  | other
deriving DecidableEq, Repr

namespace Kind

/-- The kinds that have a name, and their names. -/
def names : List (Kind × String) :=
  [(null, "null"), (bool, "bool"), (int, "int"), (float, "float"), (binary, "binary"),
    (timestamp, "timestamp"), (orderedMap, "omap"), (pairs, "pairs"), (set, "set"), (text, "str"),
    (sequence, "seq"), (mapping, "map"), (merge, "merge"), (value, "value")]

def ofTag (tag : Text) : Kind :=
  match Text.after? standardTag tag with
  | some name =>
    match names.find? (·.2.toList = name) with
    | some entry => entry.1
    | none => other
  | none => other

end Kind

/-! ## Forms -/

/-- The text without a sign in front. -/
def dropSign : Text → Text
  | '+' :: rest => rest
  | '-' :: rest => rest
  | t => t

/-- Whether a character is a digit of a base or an underscore. -/
def isDigitOf (base : Nat) (c : Char) : Bool :=
  c = '_' ||
    match asciiDigit? c with
    | some digit => digit < base
    | none => base = 16 && (('a' ≤ c && c ≤ 'f') || ('A' ≤ c && c ≤ 'F'))

/-- Whether a text is a group of sixty behind a colon: one or two digits below sixty. -/
def isSixtieth (t : Text) : Bool :=
  match t with
  | [a] => isAsciiDigit a
  | [a, b] => isDigitOf 6 a && a ≠ '_' && isAsciiDigit b
  | _ => false

/-- Whether a text has digits of a base and nothing else. -/
def isRun (base : Nat) (t : Text) : Bool := !t.isEmpty && t.all (isDigitOf base)

/-- Whether a text has the form of an integer, the sign left out. -/
def isUnsignedInteger (t : Text) : Bool :=
  match t with
  | ['0'] => true
  | '0' :: 'b' :: rest => isRun 2 rest
  | '0' :: 'x' :: rest => isRun 16 rest
  | '0' :: rest => isRun 8 rest
  | c :: _ =>
    match Text.pieces (· = ':') t with
    | first :: groups => isAsciiDigit c && first.all (isDigitOf 10) && groups.all isSixtieth
    | [] => false
  | [] => false

/-- Whether a text is an exponent with a sign, or nothing. -/
def isExponent : Text → Bool
  | [] => true
  | mark :: sign :: digits =>
    (mark = 'e' || mark = 'E') && (sign = '+' || sign = '-') && !digits.isEmpty &&
      digits.all isAsciiDigit
  | _ => false

/-- Whether a text is a fraction and an exponent. -/
def isFraction (t : Text) : Bool := isExponent (t.dropWhile (isDigitOf 10))

/-- The texts before and behind the first point. -/
def splitPoint (t : Text) : Text × Option Text :=
  match t.dropWhile (· ≠ '.') with
  | _ :: rest => (t.takeWhile (· ≠ '.'), some rest)
  | [] => (t, none)

/-- Whether a text is digits, the first no underscore, perhaps followed by groups of sixty. -/
def isWholePart (t : Text) : Bool × Bool :=
  match Text.pieces (· = ':') t with
  | first :: groups =>
    ((first.head?.any isAsciiDigit) && first.all (isDigitOf 10) && groups.all isSixtieth,
      !groups.isEmpty)
  | [] => (false, false)

/-- Whether a text has the form of a number with a point. -/
def isFloat (t : Text) : Bool :=
  let unsigned := dropSign t
  if (Text.ofStrings [".inf", ".Inf", ".INF"]).elem unsigned then true
  else if (Text.ofStrings [".nan", ".NaN", ".NAN"]).elem t then true
  else
    match t with
    | '.' :: c :: rest => isAsciiDigit c && isFraction rest
    | _ =>
      match splitPoint unsigned with
      | (whole, some rest) =>
        match isWholePart whole with
        | (true, false) => isFraction rest
        | (true, true) => rest.all (isDigitOf 10)
        | _ => false
      | (_, none) => false

/-- The parts of a date and time as they are written. -/
structure TimestampParts where
  year : Text
  month : Text
  day : Text
  hour : Text
  minute : Text
  second : Text
  fraction : Text
  zone : Text
deriving Repr

/-- Between `least` and `most` digits at the start of a text, and the rest. -/
def takeDigits (least most : Nat) (t : Text) : Option (Text × Text) :=
  let digits := (t.take most).takeWhile isAsciiDigit
  if digits.length < least then none else some (digits, t.drop digits.length)

/-- The rest of a text behind a character. -/
def behind (c : Char) : Text → Option Text
  | d :: rest => if c = d then some rest else none
  | [] => none

/-- Whether a character is a space or a tab. -/
def isTimeBlank (c : Char) : Bool := c = ' ' || c = '\t'

/-- Whether a text is a time zone: a `Z`, or a sign, hours and perhaps minutes. -/
def isZone (t : Text) : Bool :=
  match t with
  | ['Z'] => true
  | sign :: rest =>
    (sign = '+' || sign = '-') &&
      match takeDigits 1 2 rest with
      | some (_, []) => true
      | some (_, ':' :: minutes) => minutes.length = 2 && minutes.all isAsciiDigit
      | _ => false
  | [] => false

/-- The text behind the mark between date and time. -/
def behindDate (t : Text) : Option Text :=
  match t with
  | 'T' :: rest => some rest
  | 't' :: rest => some rest
  | c :: rest => if isTimeBlank c then some (rest.dropWhile isTimeBlank) else none
  | [] => none

/-- Takes a timestamp apart. The time may be missing. -/
def timestampParts? (t : Text) : Option TimestampParts := do
  let (year, t) ← takeDigits 4 4 t
  let (month, t) ← takeDigits 1 2 (← behind '-' t)
  let (day, t) ← takeDigits 1 2 (← behind '-' t)
  if t.isEmpty then pure ⟨year, month, day, [], [], [], [], []⟩
  else
    let (hour, t) ← takeDigits 1 2 (← behindDate t)
    let (minute, t) ← takeDigits 2 2 (← behind ':' t)
    let (second, t) ← takeDigits 2 2 (← behind ':' t)
    let (fraction, t) :=
      match t with
      | '.' :: rest => (rest.takeWhile isAsciiDigit, rest.dropWhile isAsciiDigit)
      | t => ([], t)
    let zone := t.dropWhile isTimeBlank
    if t.isEmpty || isZone zone then
      pure ⟨year, month, day, hour, minute, second, fraction, zone⟩
    else none

/-- Whether a plain scalar has the form of a timestamp. A date alone needs all its digits. -/
def isTimestamp (t : Text) : Bool :=
  match timestampParts? t with
  | some parts => !parts.hour.isEmpty || (parts.month.length = 2 && parts.day.length = 2)
  | none => false

/-- The words for truth values, in each of the three ways to capitalize them. -/
def truthWords : List Text :=
  Text.ofStrings ["yes", "Yes", "YES", "no", "No", "NO", "true", "True", "TRUE", "false", "False",
    "FALSE", "on", "On", "ON", "off", "Off", "OFF"]

def nullWords : List Text := Text.ofStrings ["~", "null", "Null", "NULL", ""]

/-- The kind of value that the form of a plain scalar tells. -/
def plainKind (t : Text) : Kind :=
  if truthWords.elem t then .bool
  else if isFloat t then .float
  else if isUnsignedInteger (dropSign t) then .int
  else if t = ['<', '<'] then .merge
  else if nullWords.elem t then .null
  else if isTimestamp t then .timestamp
  else if t = ['='] then .value
  else if t = ['!'] ∨ t = ['&'] ∨ t = ['*'] then .other
  else .text

end DocGraph.Yaml
