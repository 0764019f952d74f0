import FirewallPolicy.Address.Literal
import FirewallPolicy.Document.Cursor
import FirewallPolicy.Text.Digit

/-!
## Texts of scalars

Scanning of the four forms of scalars: quoted with single or double quotes, blocks of lines, and
plain.  Loops are bounded by the length of the text that is left.
-/

namespace FirewallPolicy.Document.Scan

/-! ### Quoted scalars -/

/-- The character that a one-character escape stands for. -/
def escape? (c : Char) : Option Char :=
  match c with
  | '0' => some '\x00'
  | 'a' => some '\x07'
  | 'b' => some '\x08'
  | 't' | '\t' => some '\t'
  | 'n' => some '\n'
  | 'v' => some '\x0b'
  | 'f' => some '\x0c'
  | 'r' => some '\r'
  | 'e' => some '\x1b'
  | ' ' => some ' '
  | '\x22' => some '\x22'
  | '\\' => some '\\'
  | '/' => some '/'
  | 'N' => some '\x85'
  | '_' => some (Char.ofNat 0xa0)
  | 'L' => some (Char.ofNat 0x2028)
  | 'P' => some (Char.ofNat 0x2029)
  | _ => none

/-- The number of hexadecimal digits of a numeric escape. -/
def escapeDigits? (c : Char) : Option Nat :=
  match c with
  | 'x' => some 2
  | 'u' => some 4
  | 'U' => some 8
  | _ => none

/-- The number of the hexadecimal digits at the start of a text. -/
def hexCode? (count : Nat) (cs : List Char) : Option Nat :=
  if cs.length < count then none
  else ((cs.take count).mapM Numeral.hexValue?).map (Text.ofDigitValues 16)

/-- What a numeric escape stands for, which may be half a character, as a text holds it. -/
def numericEscape (count : Nat) : Scan (List Char) := do
  match hexCode? count (← get).rest with
  | none => refuse
  | some code =>
    forward count
    if 0x110000 ≤ code then throw .unusable
    return Text.ofCode code

/-- The line breaks after a line of a quoted scalar; a document mark may not stand there. -/
def quotedBreaks : Nat → Scan (List Char)
  | 0 => return []
  | fuel + 1 => do
    if (← get).atDocumentMark then refuse
    let _ ← takeWhile fun c => c = ' ' || c = '\t'
    if isBreak (← peek 0) then
      let first ← lineBreak
      return first ++ (← quotedBreaks fuel)
    else return []

/-- Blanks inside a quoted scalar: a single line break becomes a space. -/
def quotedBlanks (fuel : Nat) : Scan (List Char) := do
  let blanks ← takeWhile fun c => c = ' ' || c = '\t'
  let c ← peek 0
  if c = endMark then refuse
  if isBreak c then
    let first ← lineBreak
    let more ← quotedBreaks fuel
    let joint := if first != ['\n'] then first else if more.isEmpty then [' '] else []
    return joint ++ more
  else return blanks

/-- Does a character of a quoted scalar stand for itself wherever it occurs? -/
def isQuotedPlain (c : Char) : Bool :=
  !(c = '\x27' || c = '\x22' || c = '\\' || isGap c)

/-- A quoted scalar up to a blank or the closing quote, as a text holds it. -/
def quotedRun (double : Bool) : Nat → Scan (List Char)
  | 0 => return []
  | fuel + 1 => do
    let plain ← takeWhile isQuotedPlain
    let cursor ← get
    let c := cursor.peek 0
    let special : Option (List Char) ←
      if !double && c = '\x27' && cursor.peek 1 = '\x27' then
        forward 2
        pure (some ['\x27'])
      else if (double && c = '\x27') || (!double && (c = '\x22' || c = '\\')) then
        forward 1
        pure (some [c])
      else if double && c = '\\' then
        forward 1
        let kind := cursor.peek 1
        match escape? kind, escapeDigits? kind with
        | some meant, _ =>
          forward 1
          pure (some [meant])
        | none, some count =>
          forward 1
          pure (some (← numericEscape count))
        | none, none =>
          if isBreak kind then
            let _ ← lineBreak
            pure (some (← quotedBreaks cursor.rest.length))
          else refuse
      else pure none
    match special with
    | some chars => return plain.flatMap Text.ofChar ++ chars ++ (← quotedRun double fuel)
    | none => return plain.flatMap Text.ofChar

/-- The parts of a quoted scalar up to the closing quote, as a text holds them. -/
def quotedParts (double : Bool) (quote : Char) : Nat → Scan (List Char)
  | 0 => refuse
  | fuel + 1 => do
    let run ← quotedRun double (fuel + 1)
    if (← peek 0) = quote then return run
    else
      let blanks ← quotedBlanks (fuel + 1)
      return run ++ blanks ++ (← quotedParts double quote fuel)

/-- A quoted scalar. -/
def quotedScalar (double : Bool) : Scan Token := do
  let quote ← peek 0
  forward 1
  let chars ← quotedParts double quote ((← get).rest.length + 1)
  forward 1
  return .scalar (String.ofList chars) false

/-! ### Block scalars -/

/-- What happens to the line breaks at the end of a block scalar. -/
inductive Chomping where
  | clip
  | keep
  | strip
deriving DecidableEq

/-- The chomping mark of a block scalar. -/
def chomping? : Scan (Option Chomping) := do
  let c ← peek 0
  if c = '+' then
    forward 1
    return some .keep
  else if c = '-' then
    forward 1
    return some .strip
  else return none

/-- The explicit indentation of a block scalar. -/
def increment? : Scan (Option Nat) := do
  let c ← peek 0
  if '0' ≤ c && c ≤ '9' then
    if c = '0' then refuse
    forward 1
    return some (c.toNat - 48)
  else return none

/-- The header of a block scalar: chomping and indentation in either order. -/
def blockHeader : Scan (Chomping × Option Nat) := do
  let result ← match ← chomping? with
    | some chomping => pure (chomping, ← increment?)
    | none =>
      match ← increment? with
      | some increment => pure ((← chomping?).getD .clip, some increment)
      | none => pure (.clip, none)
  if !isSpaceOrEnd (← peek 0) then refuse
  return result

/-- The rest of a line that may only hold a comment. -/
def ignoredLine : Scan Unit := do
  let _ ← takeWhile (· = ' ')
  if (← peek 0) = '#' then
    let _ ← takeWhile fun c => !isLineEnd c
  if !isLineEnd (← peek 0) then refuse
  let _ ← lineBreak

/-- Blank lines before the first line of a block scalar, with the greatest indentation. -/
def leadingLines : Nat → Nat → Scan (List Char × Nat)
  | 0, greatest => return ([], greatest)
  | fuel + 1, greatest => do
    let c ← peek 0
    if c = ' ' then
      forward 1
      leadingLines fuel (max greatest (← get).column)
    else if isBreak c then
      let first ← lineBreak
      let (more, greatest) ← leadingLines fuel greatest
      return (first ++ more, greatest)
    else return ([], greatest)

/-- Go forward over spaces, up to a column. -/
def skipIndent (indent : Nat) : Nat → Scan Unit
  | 0 => return
  | fuel + 1 => do
    let cursor ← get
    if cursor.column < indent && cursor.peek 0 = ' ' then
      forward 1
      skipIndent indent fuel

/-- The blank lines between two lines of a block scalar. -/
def blankLines (indent : Nat) : Nat → Scan (List Char)
  | 0 => return []
  | fuel + 1 => do
    skipIndent indent indent
    if isBreak (← peek 0) then
      let first ← lineBreak
      return first ++ (← blankLines indent fuel)
    else return []

/-- The lines of a block scalar, the blank lines before the next one given; the answer is what
was read, the last line break and the blank lines behind it. -/
def blockLines (folded : Bool) (indent : Nat) : Nat → List Char →
    Scan (List Char × List Char × List Char)
  | 0, blank => return ([], [], blank)
  | fuel + 1, blank => do
    let cursor ← get
    if cursor.column = indent && cursor.peek 0 != endMark then
      let startsPlain := !(cursor.peek 0 = ' ' || cursor.peek 0 = '\t')
      let line ← takeWhile fun c => !isLineEnd c
      let ending ← lineBreak
      let nextBlank ← blankLines indent (fuel + 1)
      let after ← get
      if after.column = indent && after.peek 0 != endMark then
        let nextPlain := !(after.peek 0 = ' ' || after.peek 0 = '\t')
        let joint :=
          if folded && ending == ['\n'] && startsPlain && nextPlain then
            if nextBlank.isEmpty then [' '] else []
          else ending
        let (more, last, trailing) ← blockLines folded indent fuel nextBlank
        return (blank ++ line ++ joint ++ more, last, trailing)
      else return (blank ++ line, ending, nextBlank)
    else return ([], [], blank)

/-- A block scalar. -/
def blockScalar (folded : Bool) : Scan Token := do
  forward 1
  let (chomping, increment) ← blockHeader
  ignoredLine
  let cursor ← get
  let fuel := cursor.rest.length + 1
  let least := (max (cursor.indent + 1) 1).toNat
  let (blank, indent) ← match increment with
    | some increment => do
      let indent := least + increment - 1
      pure (← blankLines indent fuel, indent)
    | none => do
      let (blank, greatest) ← leadingLines fuel 0
      pure (blank, max least greatest)
  let (chars, last, trailing) ← blockLines folded indent fuel blank
  let ending := match chomping with
    | .clip => last
    | .keep => last ++ trailing
    | .strip => []
  return .scalar (Text.ofChars (chars ++ ending)) false

/-! ### Plain scalars -/

/-- The length of a plain run: up to a gap, a value mark or, in a flow collection, a mark of
it. -/
def plainLength (inFlow : Bool) : List Char → Nat
  | [] => 0
  | c :: rest =>
    let following := rest.head?.getD endMark
    let isMark (c : Char) := c = ',' || c = '[' || c = ']' || c = '\x7b' || c = '\x7d'
    if isGap c || (c = ':' && (isGap following || (inFlow && isMark following))) ||
        (inFlow && (isMark c || c = '?')) then 0
    else 1 + plainLength inFlow rest

/-- The line breaks inside a plain scalar; none when a document mark follows. -/
def plainBreaks : Nat → Scan (Option (List Char))
  | 0 => return some []
  | fuel + 1 => do
    let c ← peek 0
    if c = ' ' then
      forward 1
      plainBreaks fuel
    else if isBreak c then
      let first ← lineBreak
      if (← get).atDocumentMark then return none
      return (← plainBreaks fuel).map (first ++ ·)
    else return some []

/-- The blanks behind a run of a plain scalar; a single line break becomes a space. -/
def plainBlanks (fuel : Nat) : Scan (List Char) := do
  let blanks ← takeWhile (· = ' ')
  if isBreak (← peek 0) then
    let first ← lineBreak
    allowKeys true
    if (← get).atDocumentMark then return []
    match ← plainBreaks fuel with
    | none => return []
    | some more =>
      let joint := if first != ['\n'] then first else if more.isEmpty then [' '] else []
      return joint ++ more
  else return blanks

/-- The runs of a plain scalar, the blanks before the next one given. -/
def plainRuns (indent : Int) : Nat → List Char → Scan (List Char)
  | 0, _ => return []
  | fuel + 1, blanks => do
    let cursor ← get
    let length := plainLength (cursor.flowLevel != 0) cursor.rest
    if cursor.peek 0 = '#' || length = 0 then return []
    allowKeys false
    let run := cursor.rest.take length
    forward length
    let nextBlanks ← plainBlanks (fuel + 1)
    let after ← get
    if nextBlanks.isEmpty || after.peek 0 = '#' ||
        (after.flowLevel = 0 && (after.column : Int) < indent) then
      return blanks ++ run
    else return blanks ++ run ++ (← plainRuns indent fuel nextBlanks)

/-- A plain scalar. -/
def plainScalar : Scan Token := do
  let cursor ← get
  let chars ← plainRuns (cursor.indent + 1) (cursor.rest.length + 1) []
  return .scalar (Text.ofChars chars) true

end FirewallPolicy.Document.Scan
