import FirewallPolicy.Document.ScalarText

/-!
## Scanning of documents

The text of a document as a list of tokens.  Indentation opens and closes block collections, and
a value mark makes the node before it on its line a key.
-/

namespace FirewallPolicy.Document

namespace Scan

/-! ### Simple keys -/

/-- Longer nodes are not taken for simple keys. -/
def maxSimpleKey : Nat := 1024

/-- Forget the simple keys that are too far back; a required one must not be lost. -/
def dropStaleKeys : Scan Unit := do
  let cursor ← get
  let isStale (key : SimpleKey) : Bool :=
    key.line != cursor.line || maxSimpleKey < cursor.index - key.index
  if cursor.simpleKeys.any fun entry => isStale entry.2 && entry.2.required then refuse
  set { cursor with simpleKeys := cursor.simpleKeys.filter fun entry => !isStale entry.2 }

/-- Forget the simple key of the current level; a required one must not be lost. -/
def dropKey : Scan Unit := do
  let cursor ← get
  if cursor.simpleKeys.any fun entry => entry.1 = cursor.flowLevel && entry.2.required then refuse
  set { cursor with simpleKeys := cursor.simpleKeys.filter (·.1 != cursor.flowLevel) }

/-- Note that the next node may be a simple key. -/
def noteKey : Scan Unit := do
  let cursor ← get
  if cursor.keysAllowed then
    dropKey
    let key : SimpleKey :=
      { position := cursor.tokens.length, index := cursor.index, line := cursor.line,
        column := cursor.column,
        required := cursor.flowLevel = 0 && cursor.indent = cursor.column }
    modify fun cursor =>
      { cursor with simpleKeys := (cursor.flowLevel, key) :: cursor.simpleKeys }

/-! ### Indentation -/

/-- Close block collections that are indented deeper than `column`. -/
def unwindTo (column : Int) : List Int → Scan Unit
  | [] => return
  | outer :: rest => do
    if column < (← get).indent then
      emit .blockEnd
      modify fun cursor => { cursor with indent := outer, indents := rest }
      unwindTo column rest

/-- Close block collections that are indented deeper than `column`, outside flow collections. -/
def unwind (column : Int) : Scan Unit := do
  let cursor ← get
  if cursor.flowLevel = 0 then unwindTo column cursor.indents

/-- Indent to `column`, if that is deeper; the answer says whether it is. -/
def indentTo (column : Nat) : Scan Bool := do
  let cursor ← get
  if cursor.indent < column then
    set { cursor with indent := column, indents := cursor.indent :: cursor.indents }
    return true
  else return false

/-! ### Directives -/

/-- The digits of a version number. -/
def versionNumber : Scan Nat := do
  let digits ← takeWhile Numeral.isDecimal
  if Text.maxNumeralLength < digits.length then throw .unusable
  match Numeral.decimal? digits with
  | some n => return n
  | none => refuse

/-- The handle of a tag: exclamation marks around a word, or a single one. -/
def tagHandle : Scan String := do
  if (← peek 0) != '!' then refuse
  forward 1
  if (← peek 0) = ' ' then return "!"
  let word ← takeWhile isWordChar
  if (← peek 0) != '!' then refuse
  forward 1
  return String.ofList ('!' :: word ++ ['!'])

/-- May the character stand in a tag? -/
def isTagChar (c : Char) : Bool :=
  c.isAlphanum || "-;/?:@&=+$,_.!~*\x27()[]".toList.contains c

/-- The bytes of a run of percent escapes. -/
def escapedBytes : Nat → Scan (List UInt8)
  | 0 => return []
  | fuel + 1 => do
    if (← peek 0) = '%' then
      match Numeral.hexValue? (← peek 1), Numeral.hexValue? (← peek 2) with
      | some high, some low =>
        forward 3
        return UInt8.ofNat (high * 16 + low) :: (← escapedBytes fuel)
      | _, _ => refuse
    else return []

/-- The text of a tag, which must not be empty. -/
def tagText : Nat → Scan String
  | 0 => refuse
  | fuel + 1 => do
    let run := String.ofList (← takeWhile isTagChar)
    if (← peek 0) = '%' then
      let bytes ← escapedBytes (fuel + 1)
      match String.fromUTF8? (ByteArray.mk bytes.toArray) with
      | none => refuse
      | some text =>
        let c ← peek 0
        if isTagChar c || c = '%' then return run ++ Text.ofChars text.toList ++ (← tagText fuel)
        else return run ++ Text.ofChars text.toList
    else if run.isEmpty then refuse
    else return run

/-- A directive. -/
def directive : Scan Token := do
  forward 1
  let name ← takeWhile isWordChar
  if name.isEmpty || !isSpaceOrEnd (← peek 0) then refuse
  let fuel := (← get).rest.length + 1
  let token ←
    if name == "YAML".toList then
      let _ ← takeWhile (· = ' ')
      let major ← versionNumber
      if (← peek 0) != '.' then refuse
      forward 1
      let _ ← versionNumber
      if !isSpaceOrEnd (← peek 0) then refuse
      pure (.versionDirective major)
    else if name == "TAG".toList then
      let _ ← takeWhile (· = ' ')
      let handle ← tagHandle
      if (← peek 0) != ' ' then refuse
      let _ ← takeWhile (· = ' ')
      let start ← tagText fuel
      if !isSpaceOrEnd (← peek 0) then refuse
      pure (.tagDirective handle start)
    else
      let _ ← takeWhile fun c => !isLineEnd c
      pure .otherDirective
  ignoredLine
  return token

/-! ### Properties of nodes -/

/-- May the character stand behind an anchor or an alias? -/
def endsAnchor (c : Char) : Bool :=
  isGap c || "?:,]\x7d%@\x60".toList.contains c

/-- The name of an anchor or an alias. -/
def anchorName : Scan String := do
  forward 1
  let name ← takeWhile isWordChar
  if name.isEmpty || !endsAnchor (← peek 0) then refuse
  return String.ofList name

/-- Is there an exclamation mark behind the first character, before the next space? -/
def hasHandle (rest : List Char) : Bool :=
  ((rest.drop 1).takeWhile fun c => !isSpaceOrEnd c).contains '!'

/-- A tag. -/
def tag : Scan Token := do
  let cursor ← get
  let fuel := cursor.rest.length + 1
  let following := cursor.peek 1
  let token ←
    if following = '<' then
      forward 2
      let suffix ← tagText fuel
      if (← peek 0) != '>' then refuse
      forward 1
      pure (Token.tag none suffix)
    else if isGap following then
      forward 1
      pure (Token.tag none "!")
    else
      let handle ←
        if hasHandle cursor.rest then tagHandle
        else
          forward 1
          pure "!"
      pure (Token.tag (some handle) (← tagText fuel))
  if !isSpaceOrEnd (← peek 0) then refuse
  return token

/-! ### Tokens -/

/-- Skip blanks, comments and line ends before a token. -/
def skipToToken : Nat → Scan Unit
  | 0 => return
  | fuel + 1 => do
    let _ ← takeWhile (· = ' ')
    if (← peek 0) = '#' then
      let _ ← takeWhile fun c => !isLineEnd c
    if isBreak (← peek 0) then
      let _ ← lineBreak
      if (← get).flowLevel = 0 then allowKeys true
      skipToToken fuel

/-- A mark of one character, which is no part of a simple key. -/
def mark (token : Token) (keysFollow : Bool) : Scan Unit := do
  allowKeys keysFollow
  dropKey
  forward 1
  emit token

/-- The start of a flow collection. -/
def openFlow (token : Token) : Scan Unit := do
  noteKey
  modify fun cursor => { cursor with flowLevel := cursor.flowLevel + 1, keysAllowed := true }
  forward 1
  emit token

/-- The end of a flow collection. -/
def closeFlow (token : Token) : Scan Unit := do
  dropKey
  if (← get).flowLevel = 0 then refuse
  modify fun cursor => { cursor with flowLevel := cursor.flowLevel - 1, keysAllowed := false }
  forward 1
  emit token

/-- A document mark. -/
def documentMark (token : Token) : Scan Unit := do
  unwind (-1)
  dropKey
  allowKeys false
  forward 3
  emit token

/-- A node that may be a simple key. -/
def node (scan : Scan Token) : Scan Unit := do
  noteKey
  allowKeys false
  emit (← scan)

/-- Open a block collection at the position where the indentation is new. -/
def openBlock (token : Token) : Scan Unit := do
  let cursor ← get
  if cursor.flowLevel = 0 then
    if !cursor.keysAllowed then refuse
    if ← indentTo cursor.column then emit token

/-- A value mark: it makes the noted simple key a key. -/
def valueMark : Scan Unit := do
  let cursor ← get
  match cursor.simpleKeys.lookup cursor.flowLevel with
  | some key =>
    modify fun cursor =>
      { cursor with simpleKeys := cursor.simpleKeys.filter (·.1 != cursor.flowLevel) }
    emitAt key.position .key
    if cursor.flowLevel = 0 then
      if ← indentTo key.column then emitAt key.position .blockMappingStart
    allowKeys false
  | none =>
    openBlock .blockMappingStart
    allowKeys (cursor.flowLevel = 0)
    dropKey
  forward 1
  emit .value

/-- Is the character the start of a plain scalar? -/
def startsPlain (cursor : Cursor) : Bool :=
  let c := cursor.peek 0
  !(isGap c || "-?:,[]\x7b\x7d#&*!|>\x27\x22%@\x60".toList.contains c) ||
    (!isGap (cursor.peek 1) && (c = '-' || (cursor.flowLevel = 0 && (c = '?' || c = ':'))))

/-- Scan the next token; the answer is whether the text goes on. -/
def step : Scan Bool := do
  skipToToken ((← get).rest.length + 1)
  dropStaleKeys
  unwind (← get).column
  let cursor ← get
  let c := cursor.peek 0
  let inFlow := cursor.flowLevel != 0
  let gapFollows := isGap (cursor.peek 1)
  if c = endMark then
    unwind (-1)
    dropKey
    return false
  else
    if c = '%' && cursor.column = 0 then
      unwind (-1)
      dropKey
      allowKeys false
      emit (← directive)
    else if cursor.column = 0 && cursor.atMark '-' then documentMark .documentStart
    else if cursor.column = 0 && cursor.atMark '.' then documentMark .documentEnd
    else if c = '[' then openFlow .flowSequenceStart
    else if c = '\x7b' then openFlow .flowMappingStart
    else if c = ']' then closeFlow .flowSequenceEnd
    else if c = '\x7d' then closeFlow .flowMappingEnd
    else if c = ',' then mark .flowEntry true
    else if c = '-' && gapFollows then
      openBlock .blockSequenceStart
      mark .blockEntry true
    else if c = '?' && (inFlow || gapFollows) then
      openBlock .blockMappingStart
      mark .key (!inFlow)
    else if c = ':' && (inFlow || gapFollows) then valueMark
    else if c = '*' then node (do return .alias (← anchorName))
    else if c = '&' then node (do return .anchor (← anchorName))
    else if c = '!' then node tag
    else if c = '|' && !inFlow then
      allowKeys true
      dropKey
      emit (← blockScalar false)
    else if c = '>' && !inFlow then
      allowKeys true
      dropKey
      emit (← blockScalar true)
    else if c = '\x27' then node (quotedScalar false)
    else if c = '\x22' then node (quotedScalar true)
    else if startsPlain cursor then node plainScalar
    else refuse
    return true

end Scan

/-! ### Texts -/

/-- The tokens of a text and, if the text is refused behind them, why. -/
structure Scanned where
  tokens : List Token
  refusal : Option Refusal := none
deriving DecidableEq, Repr

/-- The number of tokens that are settled: before a node that may turn out to be a key, other
tokens may still be put. -/
def Cursor.settled (cursor : Cursor) : Nat :=
  let isPending (key : SimpleKey) : Bool :=
    key.line = cursor.line && cursor.index - key.index ≤ Scan.maxSimpleKey
  ((cursor.simpleKeys.filter (isPending ·.2)).map (·.2.position)).foldl min cursor.tokens.length

/-- Scan the tokens behind a position; each step takes at least one character. -/
def Scanned.ofCursor : Nat → Cursor → Scanned
  | 0, cursor => { tokens := cursor.tokens }
  | fuel + 1, cursor =>
    match Scan.step.run cursor with
    | .ok (true, next) => Scanned.ofCursor fuel next
    | .ok (false, last) => { tokens := last.tokens }
    | .error refusal => { tokens := cursor.tokens.take cursor.settled, refusal }

/-- A text without the mark of byte order at its start. -/
def withoutOrderMark (cs : List Char) : List Char :=
  match cs with
  | c :: rest => if c.toNat = 0xfeff then rest else cs
  | [] => []

/-- The tokens of a text; a text with a half of a character, or with a character that may not
stand in a document, has none. -/
def Scanned.ofText (text : String) : Scanned :=
  match (Text.chars? text).filter (·.all isAllowed) with
  | some chars => Scanned.ofCursor (chars.length + 1) { rest := withoutOrderMark chars }
  | none => { tokens := [], refusal := some .malformed }

end FirewallPolicy.Document
