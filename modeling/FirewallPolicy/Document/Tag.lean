import FirewallPolicy.Document.Moment
import FirewallPolicy.Document.Token

/-!
## Tags

What a node of a document is.  A plain scalar without a tag of its own is recognised by its
text: null, truth values, whole numbers, fractions and moments have their forms, and everything
else is a text.
-/

namespace FirewallPolicy.Document

/-- What a node is. -/
inductive Tag where
  | null
  | bool
  | int
  | float
  | moment
  | bytes
  | text
  | merge
  | default
  | sequence
  | mapping
  | set
  | pairs
  | unknown
deriving DecidableEq, Repr

namespace Tag

/-- The start of the tags of the standard kinds. -/
def standardStart : String := "tag:yaml.org,2002:"

/-- The standard kinds by the ends of their tags. -/
def standardNames : List (String × Tag) := [
  ("null", null), ("bool", bool), ("int", int), ("float", float), ("timestamp", moment),
  ("binary", bytes), ("str", text), ("merge", merge), ("value", default), ("seq", sequence),
  ("map", mapping), ("set", set), ("omap", pairs), ("pairs", pairs)]

/-- The kind that a full tag names. -/
def ofName (name : String) : Tag :=
  ((standardNames.find? fun entry => standardStart ++ entry.1 == name).map (·.2)).getD unknown

/-! ### Forms of numbers -/

/-- A digit or an underscore. -/
def isDigitOrBar (c : Char) : Bool := Numeral.isDecimal c || c = '_'

/-- A text without a sign at its start. -/
def dropSign (cs : List Char) : List Char :=
  match cs with
  | '+' :: rest => rest
  | '-' :: rest => rest
  | _ => cs

/-- Digits and underscores that start with a digit. -/
def isNumeral (cs : List Char) : Bool :=
  cs.head?.any Numeral.isDecimal && cs.all isDigitOrBar

/-- One of the lower places of a number in base sixty. -/
def isSixtieth (cs : List Char) : Bool :=
  match cs with
  | [c] => Numeral.isDecimal c
  | [tens, ones] => '0' ≤ tens && tens ≤ '5' && Numeral.isDecimal ones
  | _ => false

/-- Has the text the form of a whole number? -/
def isInt (cs : List Char) : Bool :=
  match dropSign cs with
  | ['0'] => true
  | '0' :: 'b' :: digits => !digits.isEmpty && digits.all fun c => c = '0' || c = '1' || c = '_'
  | '0' :: 'x' :: digits =>
    !digits.isEmpty && digits.all fun c => (Numeral.hexValue? c).isSome || c = '_'
  | '0' :: digits => digits.all fun c => ('0' ≤ c && c ≤ '7') || c = '_'
  | body =>
    match Text.splitAt ':' body with
    | [whole] => isNumeral whole
    | whole :: places => isNumeral whole && places.all isSixtieth
    | [] => false

/-- Is the text empty or an exponent with a sign? -/
def isExponentEnd (cs : List Char) : Bool :=
  match cs with
  | [] => true
  | e :: sign :: digits =>
    (e = 'e' || e = 'E') && (sign = '+' || sign = '-') && (Numeral.decimal? digits).isSome
  | _ => false

/-- Has the text the form of a fraction in base sixty? -/
def isSixtyFloat (cs : List Char) : Bool :=
  match Text.cutAt? '.' (dropSign cs) with
  | some (front, back) =>
    match Text.splitAt ':' front with
    | whole :: place :: places =>
      isNumeral whole && (place :: places).all isSixtieth && back.all isDigitOrBar
    | _ => false
  | none => false

/-- Has the text the form of a fraction? -/
def isFloat (cs : List Char) : Bool :=
  let body := dropSign cs
  let text := String.ofList
  [".nan", ".NaN", ".NAN"].contains (text cs) || [".inf", ".Inf", ".INF"].contains (text body) ||
    isSixtyFloat cs ||
    (match Text.cutAt? '.' cs with
      | some ([], back) =>
        back.head?.any Numeral.isDecimal && isExponentEnd (back.dropWhile isDigitOrBar)
      | some (front, back) =>
        isNumeral (dropSign front) && isExponentEnd (back.dropWhile isDigitOrBar)
      | none => false)

/-! ### Plain scalars -/

/-- A text without a line break at its end. -/
def withoutFinalBreak (cs : List Char) : List Char :=
  if cs.getLast? == some '\n' then cs.dropLast else cs

/-- The words for truth. -/
def trueWords : List String := ["yes", "Yes", "YES", "true", "True", "TRUE", "on", "On", "ON"]

/-- The words for falsehood. -/
def falseWords : List String := ["no", "No", "NO", "false", "False", "FALSE", "off", "Off", "OFF"]

/-- The words for null. -/
def nullWords : List String := ["", "~", "null", "Null", "NULL"]

/-- The words that are kept for the format itself. -/
def keptWords : List String := ["!", "&", "*"]

/-- What a plain scalar without a tag is.  A line break at the end of its text, which only a tag
can bring there, does not count, but a line break alone is a text. -/
def ofPlain (s : String) : Tag :=
  let cs := withoutFinalBreak s.toList
  let word := String.ofList cs
  if s = "" then null
  else if word = "" then text
  else if nullWords.contains word then null
  else if trueWords.contains word || falseWords.contains word then bool
  else if isFloat cs then float
  else if isInt cs then int
  else if word = "<<" then merge
  else if Moment.isRecognised cs then moment
  else if word = "=" then default
  else if keptWords.contains word then unknown
  else text

end Tag

end FirewallPolicy.Document
