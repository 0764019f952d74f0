import FirewallPolicy.Document.Token
import FirewallPolicy.Text.Half

/-!
## Reading positions

A position in the text of a document and the state of scanning there: the levels of flow
collections, the indentation of open block collections, and the keys that may turn out to be
simple.  The end of the text reads as the NUL character, which no document holds.
-/

namespace FirewallPolicy.Document

/-! ### Characters -/

/-- The character that stands for the end of the text. -/
def endMark : Char := '\x00'

/-- Does the character end a line? -/
def isBreak (c : Char) : Bool :=
  c = '\n' || c = '\r' || c = '\x85' || c.toNat = 0x2028 || c.toNat = 0x2029

/-- Does the character end a line or the text? -/
def isLineEnd (c : Char) : Bool := c = endMark || isBreak c

/-- Does the character end a line or the text, or is it a space? -/
def isSpaceOrEnd (c : Char) : Bool := c = ' ' || isLineEnd c

/-- Does the character end a line or the text, or is it a space or a tab? -/
def isGap (c : Char) : Bool := c = '\t' || isSpaceOrEnd c

/-- Is the character a letter, a digit, a hyphen or an underscore of ASCII? -/
def isWordChar (c : Char) : Bool := c.isAlphanum || c = '-' || c = '_'

/-- May the character stand in a document at all? -/
def isAllowed (c : Char) : Bool :=
  let n := c.toNat
  n = 0x9 || n = 0xa || n = 0xd || (0x20 ≤ n && n ≤ 0x7e) || n = 0x85 ||
    (0xa0 ≤ n && n ≤ 0xd7ff) || (0xe000 ≤ n && n ≤ 0xfffd) || 0x10000 ≤ n

/-! ### State -/

/-- A key that needs no mark of its own if a value mark follows on its line.  `position` is the
number of tokens before it. -/
structure SimpleKey where
  position : Nat
  required : Bool
  index : Nat
  line : Nat
  column : Nat

/-- The state of scanning. -/
structure Cursor where
  rest : List Char
  index : Nat := 0
  line : Nat := 0
  column : Nat := 0
  tokens : List Token := []
  flowLevel : Nat := 0
  indent : Int := -1
  indents : List Int := []
  keysAllowed : Bool := true
  simpleKeys : List (Nat × SimpleKey) := []

/-- A step of scanning, which may refuse the document. -/
abbrev Scan (α : Type) : Type := StateT Cursor (Except Refusal) α

namespace Cursor

/-- The character `ahead` places after the position. -/
def peek (cursor : Cursor) (ahead : Nat) : Char := cursor.rest[ahead]?.getD endMark

/-- The cursor behind one character. -/
def next (cursor : Cursor) : Cursor :=
  match cursor.rest with
  | [] => cursor
  | c :: rest =>
    let moved := { cursor with rest := rest, index := cursor.index + 1 }
    if isBreak c && !(c = '\r' && rest.head? == some '\n') then
      { moved with line := cursor.line + 1, column := 0 }
    else if c.toNat = 0xfeff then moved
    else { moved with column := cursor.column + 1 }

/-- The cursor behind a number of characters. -/
def advance (cursor : Cursor) : Nat → Cursor
  | 0 => cursor
  | n + 1 => cursor.next.advance n

/-- Does a mark of three equal characters stand at the position, with a gap behind it? -/
def atMark (cursor : Cursor) (c : Char) : Bool :=
  cursor.peek 0 = c && cursor.peek 1 = c && cursor.peek 2 = c && isGap (cursor.peek 3)

/-- Does a document mark stand at the position? -/
def atDocumentMark (cursor : Cursor) : Bool := cursor.atMark '-' || cursor.atMark '.'

end Cursor

namespace Scan

/-- Refuse the document. -/
def refuse {α : Type} : Scan α := throw .malformed

/-- The character `ahead` places after the position. -/
def peek (ahead : Nat) : Scan Char := do return (← get).peek ahead

/-- Go forward by a number of characters. -/
def forward (n : Nat) : Scan Unit := modify (·.advance n)

/-- Take the characters that satisfy a test. -/
def takeWhile (test : Char → Bool) : Scan (List Char) := do
  let taken := (← get).rest.takeWhile test
  forward taken.length
  return taken

/-- Take a line break, if one stands at the position; most breaks count as a newline. -/
def lineBreak : Scan (List Char) := do
  let cursor ← get
  let c := cursor.peek 0
  if c = '\r' && cursor.peek 1 = '\n' then
    forward 2
    return ['\n']
  else if c.toNat = 0x2028 || c.toNat = 0x2029 then
    forward 1
    return [c]
  else if isBreak c then
    forward 1
    return ['\n']
  else return []

/-- Add a token at the end. -/
def emit (token : Token) : Scan Unit :=
  modify fun cursor => { cursor with tokens := cursor.tokens ++ [token] }

/-- Add a token before the one with that number. -/
def emitAt (position : Nat) (token : Token) : Scan Unit :=
  modify fun cursor =>
    { cursor with tokens := cursor.tokens.take position ++ token :: cursor.tokens.drop position }

/-- Say whether a simple key may follow. -/
def allowKeys (allowed : Bool) : Scan Unit :=
  modify fun cursor => { cursor with keysAllowed := allowed }

end Scan

end FirewallPolicy.Document
