import WorkflowInstall.Decimal.Numeral
import WorkflowInstall.Yaml.Supply

/-!
# Tokens of a YAML document

The signs and scalars that a document is made of. Indentation becomes tokens too: a block collection
opens where a line is indented more than the lines before, and closes where one is indented less.

## Main Definitions

* `Yaml.Token` — a token
* `Yaml.Scanner` — the place in the text, and what is open there
* `Yaml.Token.scan` — the tokens of a document, up to the first fault

## Design Notes

Whether a scalar is a key shows only at the colon after it. Each place where a key could begin is
therefore remembered, one for each level of brackets, and the tokens that open the mapping and the
key are put in front of it when the colon is met. Such a place lapses at the end of its line, or
after 1024 characters.

A token is given out as soon as no key can begin at it, and nothing is read before a token is asked
for. So a fault further on does not show when the tokens before it break the grammar. For the same
reason `reach` is called wherever characters are looked at: the text that comes in may end in a
fault.

Every loop of the scanner is bounded by the length of the text.
-/

namespace WorkflowInstall.Yaml

/-- A token of a document. -/
inductive Token
  /-- A directive that names the version of the language. -/
  | versionDirective (major : Int)
  /-- A directive that names a short form of tags. -/
  | tagDirective (handle uri : Text)
  /-- A directive that means nothing. -/
  | otherDirective
  | documentStart
  | documentEnd
  | streamEnd
  | blockSequenceStart
  | blockMappingStart
  | blockEnd
  | flowSequenceStart
  | flowSequenceEnd
  | flowMappingStart
  | flowMappingEnd
  | blockEntry
  | flowEntry
  | key
  | value
  | alias (name : Text)
  | anchor (name : Text)
  | tag (handle : Option Text) (suffix : Text)
  | scalar (text : Text) (plain : Bool)
  deriving DecidableEq, Repr

/-- A place where a key could begin. -/
structure KeyPlace where
  /-- The number of tokens before it. -/
  tokens : Nat
  /-- Whether a key must stand there. -/
  required : Bool
  /-- The number of characters before it. -/
  index : Nat
  /-- The number of lines before it. -/
  line : Nat
  /-- The number of characters before it in its line. -/
  column : Nat
  deriving DecidableEq, Repr

/-- The place that a scanner has reached, and what is open there. -/
structure Scanner where
  /-- The text that is left. -/
  rest : Text
  /-- The fault behind the text, if there is one. -/
  fault : Option Fault := none
  /-- The number of characters read. -/
  index : Nat := 0
  /-- The number of lines read. -/
  line : Nat := 0
  /-- The number of characters read in the line. -/
  column : Nat := 0
  /-- The brackets that are open. -/
  flow : Nat := 0
  /-- The column of the block collection that is open. -/
  indent : Int := -1
  /-- The columns of the collections around it, the innermost first. -/
  indents : List Int := []
  /-- Whether a key may begin here. -/
  allowKey : Bool := true
  /-- Where keys could begin, by the number of brackets around them. -/
  keys : List (Nat × KeyPlace) := []
  /-- The tokens read. -/
  tokens : Array Token := #[]

/-- A step of the scanner. -/
abbrev Scan := StateT Scanner (Except Fault)

/-! ## Characters -/

/-- Whether a character breaks a line. -/
def isBreak (c : Char) : Bool :=
  c == '\r' || c == '\n' || c.toNat == 0x85 || c.toNat == 0x2028 || c.toNat == 0x2029

/-- Whether a line ends here. -/
def endsLine : Option Char → Bool
  | none => true
  | some c => isBreak c

/-- Whether a line ends here or a space stands here. -/
def endsField (c : Option Char) : Bool := endsLine c || c == some ' '

/-- Whether a word ends here. -/
def endsWord (c : Option Char) : Bool := endsField c || c == some '\t'

/-- Whether a character may stand in the name of an anchor, a handle or a directive. -/
def isNameChar (c : Char) : Bool := c.isAlphanum || c == '-' || c == '_'

/-- Whether a character may stand in a tag. -/
def isTagChar (c : Char) : Bool := c.isAlphanum || ("-;/?:@&=+$,_.!~*'()[]%" : Text).contains c

/-- Whether a character is a hexadecimal digit. -/
def isHexDigit (c : Char) : Bool :=
  match Text.digitValue? c with
  | some n => n < 16
  | none => false

/-- The number that hexadecimal digits stand for. -/
def hexNumber (digits : Text) : Nat :=
  digits.foldl (fun n c => n * 16 + (Text.digitValue? c).getD 0) 0

/-- The mark that may begin a text. -/
def byteOrderMark : Char := Char.ofNat 0xFEFF

namespace Scanner

/-- The character at a distance. -/
def peek (s : Scanner) (distance : Nat) : Option Char := s.rest[distance]?

/-- The scanner one character on. -/
def step (s : Scanner) : Scanner :=
  match s.rest with
  | [] => s
  | c :: rest =>
    let breaks := isBreak c && !(c == '\r' && rest.head? == some '\n')
    { s with
      rest := rest
      index := s.index + 1
      line := if breaks then s.line + 1 else s.line
      column := if breaks then 0 else if c == byteOrderMark then s.column else s.column + 1 }

/-- The scanner some characters on. -/
def forward (s : Scanner) : Nat → Scanner
  | 0 => s
  | n + 1 => s.step.forward n

end Scanner

/-! ## Reading characters -/

/-- Looks at some characters, or meets the fault behind the text. -/
def reach (count : Nat) : Scan Unit := do
  let s ← get
  match s.fault with
  | none => return
  | some fault => if s.rest.length < count then throw fault

/-- The character at a distance. -/
def peek (distance : Nat) : Scan (Option Char) := do
  reach (distance + 1)
  return (← get).peek distance

/-- Goes on by some characters, and looks at the one behind them. -/
def forward (n : Nat) : Scan Unit := do
  reach (n + 1)
  modify fun s => s.forward n

/-- Refuses the text. -/
def refuse {α : Type} : Scan α := throw .malformed

/-- Goes on unless a condition fails. -/
def expect (condition : Bool) : Scan Unit := if condition then pure () else refuse

/-- Reads the characters that satisfy a test. -/
def takeWhile (test : Char → Bool) : Scan Text := do
  let taken := (← get).rest.takeWhile test
  forward taken.length
  return taken

/-- Whether the text goes on with three times the given character, alone at the start of a line. -/
def atMarker (mark : Char) : Scan Bool := do
  reach 3
  if (← get).rest.take 3 == [mark, mark, mark] then return endsWord (← peek 3) else return false

/-- Whether a sign between documents stands here. -/
def atDocumentSign : Scan Bool := do
  if ← atMarker '-' then return true else atMarker '.'

/-- Passes over spaces. -/
def skipSpaces : Scan Unit := do
  let _ ← takeWhile (· == ' ')

/-- Passes over a comment that begins here. -/
def skipComment : Scan Unit := do
  if (← peek 0) == some '#' then
    let _ ← takeWhile fun c => !isBreak c

/-- Reads a line break. The two separators stand for themselves, every other break for a line feed,
and no break for nothing. -/
def takeBreak : Scan Text := do
  match ← peek 0 with
  | none => return []
  | some c =>
    if !isBreak c then return []
    reach 2
    if c == '\r' && (← get).peek 1 == some '\n' then forward 2 else forward 1
    return if c.toNat == 0x2028 || c.toNat == 0x2029 then [c] else "\n"

/-- Passes over the rest of a line that may hold only a comment. -/
def skipEmptyLine : Scan Unit := do
  skipSpaces
  skipComment
  expect (endsLine (← peek 0))
  let _ ← takeBreak

/-! ## Tokens and places for keys -/

/-- Adds a token. -/
def emit (token : Token) : Scan Unit := modify fun s => { s with tokens := s.tokens.push token }

/-- Sets whether a key may begin here. -/
def setAllowKey (allow : Bool) : Scan Unit := modify fun s => { s with allowKey := allow }

/-- Lets the places lapse that lie on an earlier line or too far back. -/
def dropStaleKeys : Scan Unit := do
  let s ← get
  let stale := fun (entry : Nat × KeyPlace) =>
    entry.2.line != s.line || 1024 < s.index - entry.2.index
  expect !(s.keys.any fun entry => stale entry && entry.2.required)
  set { s with keys := s.keys.filter fun entry => !stale entry }

/-- Forgets the place between the brackets that are open. -/
def forgetKey : Scan Unit := do
  let s ← get
  match s.keys.lookup s.flow with
  | none => return
  | some place =>
    expect !place.required
    set { s with keys := s.keys.filter (·.1 != s.flow) }

/-- Remembers that a key could begin here. -/
def rememberKey : Scan Unit := do
  let s ← get
  if s.allowKey then
    forgetKey
    modify fun t =>
      let place : KeyPlace :=
        { tokens := s.tokens.size
          required := s.flow == 0 && s.indent == (s.column : Int)
          index := s.index
          line := s.line
          column := s.column }
      { t with keys := t.keys ++ [(s.flow, place)] }

/-- Closes the block collections that are indented more than a column. The list holds the columns of
the collections around the one that is open. -/
def closeBlocks (column : Int) : List Int → Scan Unit
  | [] => return
  | outer :: indents => do
    if column < (← get).indent then
      modify fun s =>
        { s with indent := outer, indents := indents, tokens := s.tokens.push .blockEnd }
      closeBlocks column indents

/-- Closes the block collections that are indented more than a column. Between brackets indentation
means nothing. -/
def unwind (column : Int) : Scan Unit := do
  let s ← get
  if s.flow == 0 then closeBlocks column s.indents

/-- Opens a block collection at a column, if it is indented more than the one that is open. -/
def openBlock (column : Int) : Scan Bool := do
  let s ← get
  if s.indent < column then
    set { s with indents := s.indent :: s.indents, indent := column }
    return true
  else return false

/-! ## Directives, anchors and tags -/

/-- Reads a handle of a tag: a mark, or a name between two marks. -/
def takeHandle : Scan Text := do
  expect ((← peek 0) == some '!')
  forward 1
  if (← peek 0) == some ' ' then return "!"
  let name ← takeWhile isNameChar
  expect ((← peek 0) == some '!')
  forward 1
  return '!' :: (name ++ "!")

/-- Reads hexadecimal digits of a given number and gives the number they stand for. -/
def takeHex (count : Nat) : Scan Nat := do
  let digits := ((← get).rest.take count).takeWhile isHexDigit
  if digits.length < count then
    reach (digits.length + 1)
    refuse
  forward count
  return hexNumber digits

/-- Reads escaped bytes of a tag. -/
def takeEscapes : Nat → Scan Bytes
  | 0 => return []
  | bound + 1 => do
    if (← peek 0) == some '%' then
      forward 1
      let byte ← takeHex 2
      return UInt8.ofNat byte :: (← takeEscapes bound)
    else return []

/-- Reads the characters of a tag, the escaped ones decoded. -/
def takeTagChars : Nat → Scan Text
  | 0 => return []
  | bound + 1 => do
    let plain ← takeWhile fun c => isTagChar c && c != '%'
    if (← peek 0) == some '%' then
      match Utf8.decode (← takeEscapes bound) with
      | .ok text => return plain ++ text ++ (← takeTagChars bound)
      | .error _ => refuse
    else return plain

/-- Reads the text of a tag, which has at least one character. -/
def takeTagText : Scan Text := do
  expect ((← peek 0).any isTagChar)
  takeTagChars ((← get).rest.length + 1)

/-- Reads the number of a version. -/
def takeVersionNumber : Scan Int := do
  expect ((← peek 0).any Char.isDigit)
  let digits := (← get).rest.takeWhile Char.isDigit
  reach (digits.length + 1)
  match Numeral.readInt 10 digits with
  | .ok n => forward digits.length; return n
  | .error (.tooLong count) => throw (.integerTooLong count)
  | .error .malformed => refuse

/-- Reads what the named directive says. -/
def takeDirectiveValue (name : Text) : Scan Token := do
  if name = "YAML" then
    skipSpaces
    let major ← takeVersionNumber
    expect ((← peek 0) == some '.')
    forward 1
    let _ ← takeVersionNumber
    expect (endsField (← peek 0))
    return .versionDirective major
  else if name = "TAG" then
    skipSpaces
    let handle ← takeHandle
    expect ((← peek 0) == some ' ')
    skipSpaces
    let uri ← takeTagText
    expect (endsField (← peek 0))
    return .tagDirective handle uri
  else
    let _ ← takeWhile fun c => !isBreak c
    return .otherDirective

/-- Reads a directive. -/
def takeDirective : Scan Token := do
  forward 1
  let name ← takeWhile isNameChar
  expect (!name.isEmpty && endsField (← peek 0))
  let token ← takeDirectiveValue name
  skipEmptyLine
  return token

/-- Reads the name of an anchor or alias. -/
def takeAnchorName : Scan Text := do
  forward 1
  let name ← takeWhile isNameChar
  let next ← peek 0
  expect (!name.isEmpty && (endsWord next || next.any ("?:,]\x7d%@\x60" : Text).contains))
  return name

/-- Reads a tag. -/
def takeTag : Scan Token := do
  let next ← peek 1
  let token ←
    if next == some '<' then do
      forward 2
      let suffix ← takeTagText
      expect ((← peek 0) == some '>')
      forward 1
      pure (Token.tag none suffix)
    else if endsWord next then do
      forward 1
      pure (Token.tag none "!")
    else do
      let word := ((← get).rest.drop 1).takeWhile fun c => !endsField (some c) && c != '!'
      let named := (← peek (word.length + 1)) == some '!'
      let handle ← if named then takeHandle else do forward 1; pure "!"
      let suffix ← takeTagText
      pure (Token.tag (some handle) suffix)
  expect (endsField (← peek 0))
  return token

/-! ## Block scalars -/

/-- What becomes of the line breaks at the end of a block scalar. -/
inductive Chomping
  /-- None is kept. -/
  | strip
  /-- One is kept. -/
  | clip
  /-- All are kept. -/
  | keep
  deriving DecidableEq, Repr

/-- Reads the sign for the line breaks at the end. -/
def takeChomping : Scan (Option Chomping) := do
  match ← peek 0 with
  | some '+' => forward 1; return some .keep
  | some '-' => forward 1; return some .strip
  | _ => return none

/-- Reads the digit for the indentation, which is not zero. -/
def takeIncrement : Scan (Option Nat) := do
  match ← peek 0 with
  | some c =>
    if c.isDigit then
      expect (c != '0')
      forward 1
      return some (c.toNat - '0'.toNat)
    else return none
  | none => return none

/-- Reads the signs of a block scalar, in either order. -/
def takeBlockHeader : Scan (Chomping × Option Nat) := do
  let header ←
    match ← takeChomping with
    | some chomping => do pure (chomping, ← takeIncrement)
    | none => do
      match ← takeIncrement with
      | none => pure (.clip, none)
      | some increment => do pure ((← takeChomping).getD .clip, some increment)
  expect (endsField (← peek 0))
  skipEmptyLine
  return header

/-- Passes over the spaces in front of a column. -/
def skipIndent (indent : Nat) : Scan Unit := do
  let s ← get
  forward ((s.rest.take (indent - s.column)).takeWhile (· == ' ')).length

/-- Reads the line breaks in front of a line, and the spaces in front of a column. -/
def takeBreaks (indent : Nat) : Nat → Scan Text
  | 0 => return []
  | bound + 1 => do
    skipIndent indent
    if (← peek 0).any isBreak then
      let one ← takeBreak
      return one ++ (← takeBreaks indent bound)
    else return []

/-- Reads the line breaks and spaces in front of the first line that has a character, and finds the
greatest column among the spaces. -/
def takeLeadingBreaks (deepest : Nat) : Nat → Scan (Text × Nat)
  | 0 => return ([], deepest)
  | bound + 1 => do
    match ← peek 0 with
    | some ' ' =>
      forward 1
      takeLeadingBreaks (max deepest (← get).column) bound
    | some c =>
      if isBreak c then
        let one ← takeBreak
        let (more, deepest) ← takeLeadingBreaks deepest bound
        return (one ++ more, deepest)
      else return ([], deepest)
    | none => return ([], deepest)

/-- Whether a line of a block scalar stands here. -/
def atBlockLine (indent : Nat) : Scan Bool := do
  if (← get).column == indent then return (← peek 0).isSome else return false

/-- Whether a line does not begin with a blank. -/
def beginsFlush (c : Option Char) : Bool := c != some ' ' && c != some '\t'

/-- Reads the lines of a block scalar. `breaks` are the line breaks in front of the line that stands
here. Gives the text, and the line breaks after it. -/
def takeBlockLines (folded : Bool) (indent : Nat) (breaks : Text) :
    Nat → Scan (Text × Text × Text)
  | 0 => return ([], [], breaks)
  | bound + 1 => do
    if !(← atBlockLine indent) then return ([], [], breaks)
    let flush := beginsFlush (← peek 0)
    let line ← takeWhile fun c => !isBreak c
    let lineBreak ← takeBreak
    let after ← takeBreaks indent (bound + 1)
    let text := breaks ++ line
    if ← atBlockLine indent then
      let joint : Text :=
        if folded && lineBreak = "\n" && flush && beginsFlush (← peek 0) then
          if after.isEmpty then " " else []
        else lineBreak
      let (more, ending) ← takeBlockLines folded indent after bound
      return (text ++ joint ++ more, ending)
    else return (text, lineBreak, after)

/-- Reads a block scalar. -/
def takeBlockScalar (folded : Bool) : Scan Token := do
  forward 1
  let (chomping, increment) ← takeBlockHeader
  let s ← get
  let bound := s.rest.length + 1
  let least := (max (s.indent + 1) 1).toNat
  let (breaks, indent) ←
    match increment with
    | none => do
      let (breaks, deepest) ← takeLeadingBreaks 0 bound
      pure (breaks, max least deepest)
    | some increment => do
      let indent := least + increment - 1
      pure (← takeBreaks indent bound, indent)
  let (text, lineBreak, after) ← takeBlockLines folded indent breaks bound
  let ending : Text :=
    match chomping with
    | .strip => []
    | .clip => lineBreak
    | .keep => lineBreak ++ after
  return .scalar (text ++ ending) false

/-! ## Quoted scalars -/

/-- What a letter stands for after a backslash. -/
def escaped? : Char → Option Char
  | '0' => some (Char.ofNat 0)
  | 'a' => some (Char.ofNat 7)
  | 'b' => some (Char.ofNat 8)
  | 't' => some '\t'
  | '\t' => some '\t'
  | 'n' => some '\n'
  | 'v' => some (Char.ofNat 0xB)
  | 'f' => some (Char.ofNat 0xC)
  | 'r' => some '\r'
  | 'e' => some (Char.ofNat 0x1B)
  | ' ' => some ' '
  | '"' => some '"'
  | '\\' => some '\\'
  | '/' => some '/'
  | 'N' => some (Char.ofNat 0x85)
  | '_' => some (Char.ofNat 0xA0)
  | 'L' => some (Char.ofNat 0x2028)
  | 'P' => some (Char.ofNat 0x2029)
  | _ => none

/-- The number of digits of a code after a backslash and a letter. -/
def codeLength? : Char → Option Nat
  | 'x' => some 2
  | 'u' => some 4
  | 'U' => some 8
  | _ => none

/-- Reads the line breaks between two lines of a quoted scalar. -/
def takeQuotedBreaks : Nat → Scan Text
  | 0 => return []
  | bound + 1 => do
    expect !(← atDocumentSign)
    let _ ← takeWhile fun c => c == ' ' || c == '\t'
    if (← peek 0).any isBreak then
      let one ← takeBreak
      return one ++ (← takeQuotedBreaks bound)
    else return []

/-- Reads the hexadecimal digits of a code point. -/
def takeCode (length : Nat) : Scan Nat := do
  let digits := ((← get).rest.take length).takeWhile isHexDigit
  if digits.length == length && 0x10FFFF < hexNumber digits then
    throw (.badCodePoint (hexNumber digits))
  takeHex length

/-- Reads what stands after a backslash. -/
def takeEscape : Scan Text := do
  match ← peek 0 with
  | none => refuse
  | some c =>
    match escaped? c, codeLength? c with
    | some meant, _ => forward 1; return [meant]
    | none, some length =>
      forward 1
      let code ← takeCode length
      return Surrogate.ofCode code
    | none, none =>
      expect (isBreak c)
      let _ ← takeBreak
      takeQuotedBreaks ((← get).rest.length + 1)

/-- Reads the characters of a quoted scalar up to a blank or its end. -/
def takeQuotedWord (double : Bool) : Nat → Scan Text
  | 0 => return []
  | bound + 1 => do
    let plain ← takeWhile fun c =>
      !(c == '\'' || c == '"' || c == '\\' || c == ' ' || c == '\t' || isBreak c)
    match ← peek 0 with
    | some c =>
      let doubled ← if !double && c == '\'' then do pure ((← peek 1) == some '\'') else pure false
      if doubled then
        forward 2
        return plain ++ '\'' :: (← takeQuotedWord double bound)
      else if (double && c == '\'') || (!double && (c == '"' || c == '\\')) then
        forward 1
        return plain ++ c :: (← takeQuotedWord double bound)
      else if double && c == '\\' then
        forward 1
        let meant ← takeEscape
        return plain ++ meant ++ (← takeQuotedWord double bound)
      else return plain
    | none => return plain

/-- Reads the blanks or line breaks between two words of a quoted scalar. -/
def takeQuotedGap : Scan Text := do
  let blanks ← takeWhile fun c => c == ' ' || c == '\t'
  match ← peek 0 with
  | none => refuse
  | some c =>
    if isBreak c then
      let lineBreak ← takeBreak
      let breaks ← takeQuotedBreaks ((← get).rest.length + 1)
      if lineBreak ≠ "\n" then return lineBreak ++ breaks
      else if breaks.isEmpty then return " "
      else return breaks
    else return blanks

/-- Reads the words of a quoted scalar up to its end. -/
def takeQuotedWords (double : Bool) (mark : Char) : Nat → Scan Text
  | 0 => refuse
  | bound + 1 => do
    if (← peek 0) == some mark then return []
    let gap ← takeQuotedGap
    let word ← takeQuotedWord double (bound + 1)
    return gap ++ word ++ (← takeQuotedWords double mark bound)

/-- Reads a quoted scalar. -/
def takeQuotedScalar (double : Bool) : Scan Token := do
  forward 1
  let bound := (← get).rest.length + 1
  let word ← takeQuotedWord double bound
  let words ← takeQuotedWords double (if double then '"' else '\'') bound
  forward 1
  return .scalar (word ++ words) false

/-! ## Plain scalars -/

/-- Whether a character ends a plain scalar because of the brackets around it. -/
def isFlowSign (c : Char) : Bool := (",[]\x7b\x7d" : Text).contains c

/-- The number of characters up to the end of a word of a plain scalar. -/
def plainLength (inFlow : Bool) : Text → Nat
  | [] => 0
  | c :: rest =>
    let next := rest.head?
    if endsWord (some c) || (c == ':' && (endsWord next || (inFlow && next.any isFlowSign))) ||
        (inFlow && (isFlowSign c || c == '?')) then 0
    else plainLength inFlow rest + 1

/-- Reads the breaks and spaces between two lines of a plain scalar; none when a document ends
there. -/
def takePlainBreaks : Nat → Scan (Option Text)
  | 0 => return some []
  | bound + 1 => do
    match ← peek 0 with
    | some ' ' =>
      forward 1
      takePlainBreaks bound
    | some c =>
      if isBreak c then
        let one ← takeBreak
        if ← atDocumentSign then return none
        return (← takePlainBreaks bound).map (one ++ ·)
      else return some []
    | none => return some []

/-- Reads the blanks or line breaks between two words of a plain scalar. Nothing means that the
scalar ends here. -/
def takePlainGap : Scan Text := do
  let blanks ← takeWhile (· == ' ')
  if (← peek 0).any isBreak then
    let lineBreak ← takeBreak
    setAllowKey true
    if ← atDocumentSign then return []
    match ← takePlainBreaks ((← get).rest.length + 1) with
    | none => return []
    | some breaks =>
      if lineBreak ≠ "\n" then return lineBreak ++ breaks
      else if breaks.isEmpty then return " "
      else return breaks
  else return blanks

/-- Reads the words of a plain scalar. `gap` stands between the word that stands here and the one
before. -/
def takePlainWords (indent : Int) (gap : Text) : Nat → Scan Text
  | 0 => return []
  | bound + 1 => do
    if (← peek 0) == some '#' then return []
    let s ← get
    let length := plainLength (s.flow != 0) s.rest
    if (← peek length) == some ':' then reach (length + 2)
    if length == 0 then return []
    setAllowKey false
    forward length
    let text := gap ++ s.rest.take length
    let next ← takePlainGap
    if next.isEmpty then return text
    let after ← peek 0
    let t ← get
    if after == some '#' || (t.flow == 0 && (t.column : Int) < indent) then return text
    else return text ++ (← takePlainWords indent next bound)

/-- Reads a plain scalar. -/
def takePlainScalar : Scan Token := do
  let s ← get
  return .scalar (← takePlainWords (s.indent + 1) [] (s.rest.length + 1)) true

/-! ## The next token -/

/-- Passes over spaces, comments and line breaks. A key may begin on a new line, except between
brackets. -/
def skipToToken : Nat → Scan Unit
  | 0 => return
  | bound + 1 => do
    skipSpaces
    skipComment
    if (← peek 0).any isBreak then
      let _ ← takeBreak
      if (← get).flow == 0 then setAllowKey true
      skipToToken bound

/-- Passes over the mark at the very front of the text. -/
def skipByteOrderMark : Scan Unit := do
  if (← get).index == 0 then
    if (← peek 0) == some byteOrderMark then forward 1

/-- Closes all that is open. -/
def closeAll : Scan Unit := do
  unwind (-1)
  forgetKey
  setAllowKey false

/-- Opens brackets. -/
def openFlow (token : Token) : Scan Unit := do
  rememberKey
  modify fun s => { s with flow := s.flow + 1, allowKey := true }
  forward 1
  emit token

/-- Closes brackets. -/
def closeFlow (token : Token) : Scan Unit := do
  forgetKey
  expect ((← get).flow != 0)
  modify fun s => { s with flow := s.flow - 1, allowKey := false }
  forward 1
  emit token

/-- Reads the sign of an entry of a block sequence. -/
def takeBlockEntry : Scan Unit := do
  let s ← get
  if s.flow == 0 then
    expect s.allowKey
    if ← openBlock s.column then emit .blockSequenceStart
  setAllowKey true
  forgetKey
  forward 1
  emit .blockEntry

/-- Reads the sign of a key. -/
def takeKeySign : Scan Unit := do
  let s ← get
  if s.flow == 0 then
    expect s.allowKey
    if ← openBlock s.column then emit .blockMappingStart
  setAllowKey (s.flow == 0)
  forgetKey
  forward 1
  emit .key

/-- Reads the sign of a value. When a key could begin before it, the key begins there. -/
def takeValueSign : Scan Unit := do
  let s ← get
  match s.keys.lookup s.flow with
  | some place =>
    let opens ← if s.flow == 0 then openBlock place.column else pure false
    let front : Array Token := if opens then #[.blockMappingStart, .key] else #[.key]
    modify fun t =>
      { t with
        keys := t.keys.filter (·.1 != s.flow)
        tokens := t.tokens.extract 0 place.tokens ++ front ++
          t.tokens.extract place.tokens t.tokens.size
        allowKey := false }
  | none =>
    if s.flow == 0 then
      expect s.allowKey
      if ← openBlock s.column then emit .blockMappingStart
    setAllowKey (s.flow == 0)
    forgetKey
  forward 1
  emit .value

/-- Reads a token that could be a key. -/
def takeKeyLike (token : Scan Token) : Scan Unit := do
  rememberKey
  setAllowKey false
  emit (← token)

/-- Whether a plain scalar can begin here with a character. -/
def beginsPlain (c : Char) : Scan Bool := do
  if !(endsWord (some c) || ("-?:,[]\x7b\x7d#&*!|>'\"%@\x60" : Text).contains c) then return true
  let inFlow := (← get).flow != 0
  return !endsWord (← peek 1) && (c == '-' || (!inFlow && (c == '?' || c == ':')))

/-- Whether a sign between documents made of a character stands here. -/
def atSign (mark c : Char) : Scan Bool := do
  if c == mark && (← get).column == 0 then atMarker mark else return false

/-- Whether the character that stands here is a word of its own. -/
def standsAlone : Scan Bool := do return endsWord (← peek 1)

/-- Reads the token that begins with a character. -/
def takeTokenAt (c : Char) : Scan Unit := do
  let inFlow := (← get).flow != 0
  if c == '%' && (← get).column == 0 then
    closeAll
    emit (← takeDirective)
  else if ← atSign '-' c then
    closeAll
    forward 3
    emit .documentStart
  else if ← atSign '.' c then
    closeAll
    forward 3
    emit .documentEnd
  else if c == '[' then openFlow .flowSequenceStart
  else if c == '\x7b' then openFlow .flowMappingStart
  else if c == ']' then closeFlow .flowSequenceEnd
  else if c == '\x7d' then closeFlow .flowMappingEnd
  else if c == ',' then
    setAllowKey true
    forgetKey
    forward 1
    emit .flowEntry
  else if ← pure (c == '-') <&&> standsAlone then takeBlockEntry
  else if ← pure (c == '?') <&&> (pure inFlow <||> standsAlone) then takeKeySign
  else if ← pure (c == ':') <&&> (pure inFlow <||> standsAlone) then takeValueSign
  else if c == '*' then takeKeyLike do return .alias (← takeAnchorName)
  else if c == '&' then takeKeyLike do return .anchor (← takeAnchorName)
  else if c == '!' then takeKeyLike takeTag
  else if (c == '|' || c == '>') && !inFlow then
    setAllowKey true
    forgetKey
    emit (← takeBlockScalar (c == '>'))
  else if c == '\'' then takeKeyLike (takeQuotedScalar false)
  else if c == '"' then takeKeyLike (takeQuotedScalar true)
  else if ← beginsPlain c then takeKeyLike takePlainScalar
  else refuse

/-- Reads the next token. Gives whether it was the last one. -/
def takeToken : Scan Bool := do
  skipByteOrderMark
  skipToToken ((← get).rest.length + 1)
  dropStaleKeys
  unwind (← get).column
  match ← peek 0 with
  | none =>
    closeAll
    emit .streamEnd
    return true
  | some c =>
    takeTokenAt c
    dropStaleKeys
    return false

/-- The tokens that are given out: those in front of the first place where a key could begin. -/
def Scanner.settled (s : Scanner) : Array Token :=
  s.tokens.extract 0 (s.keys.foldl (fun count entry => min count entry.2.tokens) s.tokens.size)

/-- The tokens from a place on, up to the last one or the first fault. -/
def scanFrom (s : Scanner) : Nat → Array Token × Option Fault
  | 0 => (s.settled, some .malformed)
  | bound + 1 =>
    match takeToken.run s with
    | .ok (true, s) => (s.tokens, none)
    | .ok (false, s) => scanFrom s bound
    | .error fault => (s.settled, some fault)

/-- The tokens of a document, up to the last one or the first fault. -/
def Token.scan (supply : Supply) : Array Token × Option Fault :=
  scanFrom { rest := supply.text, fault := supply.fault } (supply.text.length + 2)

end WorkflowInstall.Yaml
