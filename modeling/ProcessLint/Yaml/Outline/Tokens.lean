import ProcessLint.Text.Alphabetic
import ProcessLint.Text.Numeric
import ProcessLint.Yaml.Outline.Scalars

/-!
Tokens of the outline, read one at a time. A token is given out only when no key that starts
before it is still possible, because a colon later on puts tokens before it.
-/
namespace ProcessLint.Yaml.Outline.Scan

/-- Characters of anchor names. -/
def isAnchorChar (c : Char) : Bool :=
  !isBlankOrEnd c && !isFlow c && c ≠ '\ufeff'

/-- Characters of a URI, escapes included. -/
def isUriChar (c : Char) : Bool :=
  (isNameChar c && c ≠ '_') || "#;/?:@&=+$,_.!~*'()[]%".toList.contains c

/-- Characters of a tag without angle brackets. -/
def isTagChar (c : Char) : Bool := isUriChar c && !isFlow c && c ≠ '!'

/-- Moves to the next content over blanks, breaks and comments. -/
def skipToContent : Scan Unit :=
  loop do
    let s ← get
    let c := s.current
    if c = '\t' && !s.outer.isEmpty && s.atLineStart && s.column < s.indent then
      let _ ← skipBlanks true
      if !isBreakOrEnd (← current) then fail .tabIndentation
      return true
    else if isBlank c then
      skipBlank
      return true
    else if isBreak c then
      skipBreak
      if s.flowDepth = 0 then allowKey
      return true
    else if c = '#' then
      skipToBreak
      return true
    else return false

def skipAllBlanks : Scan Unit := loop do
  if isBlank (← current) then
    skipBlank
    return true
  else return false

/-- Moves over a run of characters of a class and gives it. -/
def takeRun (p : Char → Bool) : Scan (List Char) := do
  let run := (← get).rest.takeWhile p
  skipRun run.length
  return run

section Directives

def versionNumber (start : Mark) : Scan Nat := do
  let digits ← takeRun Text.isDigit
  if 9 < digits.length then failAt start .versionTooLong
  if digits.isEmpty then failAt start .versionNumber
  return Text.decimalValue digits

def versionDirective (start : Mark) : Scan Token := do
  skipAllBlanks
  let major ← versionNumber start
  if (← current) ≠ '.' then failAt start .versionPoint
  skipInk
  return .versionDirective major (← versionNumber start)

/-- How many bytes a character has whose first byte is given. -/
def sequenceLength? (byte : Nat) : Option Nat :=
  if byte < 0x80 then some 1
  else if 0xC0 ≤ byte ∧ byte < 0xE0 then some 2
  else if 0xE0 ≤ byte ∧ byte < 0xF0 then some 3
  else if 0xF0 ≤ byte ∧ byte < 0xF8 then some 4
  else none

/-- One escaped byte of a URI. -/
def escapedByte (start : Mark) : Scan Nat := do
  let s ← get
  match s.current, Text.digitValue? 16 (s.peek 1), Text.digitValue? 16 (s.peek 2) with
  | '%', some high, some low =>
      skipInks 3
      return high * 16 + low
  | _, _, _ => failAt start .tagEscape

/-- The bytes behind the first one are joined as they stand, without taking their marker bits
away. -/
def escapedTail (start : Mark) : Nat → Nat → Scan Nat
  | 0, code => pure code
  | n + 1, code => do
      let s ← get
      match s.current, Text.digitValue? 16 (s.peek 1), Text.digitValue? 16 (s.peek 2) with
      | '%', some high, some low =>
          let byte := high * 16 + low
          if byte < 0x80 || 0xC0 ≤ byte then failAt start .tagEscapeTrail
          skipInks 3
          escapedTail start n ((code * 256 + byte) % 4294967296)
      | _, _, _ => failAt start .tagEscape

def escapedUriChar (start : Mark) : Scan Char := do
  let lead ← escapedByte start
  match sequenceLength? lead with
  | none => failAt start .tagEscapeLead
  | some length =>
      let code ← escapedTail start (length - 1) lead
      match charOfCode? code with
      | some c => return c
      | none => failAt start .tagEscapeCode

/-- A run of URI characters with the escaped ones read. -/
def uriRun (p : Char → Bool) (start : Mark) : Scan (List Char) := do
  go ((← get).rest.length + 1) []
where
  go : Nat → List Char → Scan (List Char)
    | 0, reversed => pure reversed.reverse
    | n + 1, reversed => do
        let c ← current
        if !p c then return reversed.reverse
        if c = '%' then go n ((← escapedUriChar start) :: reversed)
        else
          skipInk
          go n (c :: reversed)

/-- An exclamation mark, name characters, and a second mark. In a directive the second mark may
be missing only if there is no name. -/
def tagHandle (inDirective : Bool) (start : Mark) : Scan (List Char) := do
  if (← current) ≠ '!' then failAt start .tagStart
  skipInk
  let name ← takeRun isNameChar
  if (← current) = '!' then
    skipInk
    return '!' :: name ++ ['!']
  if inDirective && !name.isEmpty then failAt start .tagDirectiveHandle
  return '!' :: name

def tagPrefix (start : Mark) : Scan (List Char) := do
  let c ← current
  if c = '!' then
    skipInk
    return '!' :: (← uriRun isUriChar start)
  else if !isTagChar c then failAt start .tagDirectivePrefix
  else uriRun isUriChar start

def tagDirective (start : Mark) : Scan Token := do
  skipAllBlanks
  let handle ← tagHandle true start
  skipAllBlanks
  let uri ← tagPrefix start
  if !isBlankOrEnd (← current) then failAt start .tagDirectiveTrail
  return .tagDirective (String.ofList handle) (String.ofList uri)

/-- A directive line. One with an unknown name is passed over and leaves an empty directive. -/
def fetchDirective : Scan Unit := do
  closeBlocks (-1)
  dropKey
  forbidKey
  let start ← mark
  skipInk
  let nameMark ← mark
  let name ← takeRun isNameChar
  if name.isEmpty then failAt nameMark .directiveName
  if !isBlankOrEnd (← current) then failAt nameMark .directiveNameEnd
  let token ←
    if name = "YAML".toList then versionDirective start
    else if name = "TAG".toList then tagDirective start
    else do
      skipToBreak
      pure (.tagDirective "" "")
  let _ ← skipBlanks true
  if !isBreakOrEnd (← current) then failAt start .directiveTrail
  skipBreak
  push start token

end Directives

def fetchDocumentIndicator (token : Token) : Scan Unit := do
  closeBlocks (-1)
  dropKey
  forbidKey
  let start ← mark
  skipInks 3
  push start token

/-- The end of the text stands on a line of its own. -/
def fetchStreamEnd : Scan Unit := do
  modify fun s =>
    if s.mark.column = 0 then s
    else { s with mark := { s.mark with column := 0, line := s.mark.line + 1 } }
  if (← get).keys.any fun key => key.required && key.possible then fail .keyExpected
  modify fun s => { s with keys := s.keys.map fun key => { key with possible := false } }
  closeBlocks (-1)
  dropKey
  forbidKey
  push (← mark) .streamEnd

/-- More than this many flow collections inside each other are refused. -/
def maxFlowDepth : Nat := 255

def fetchFlowStart (token : Token) : Scan Unit := do
  noteKey
  deepen
  if maxFlowDepth ≤ (← get).flowDepth then fail .flowTooDeep
  modify fun s => { s with keys := .none :: s.keys, flowDepth := s.flowDepth + 1 }
  allowKey
  let start ← mark
  skipInk
  if token = .flowMappingStart then modify fun s => { s with inFlowMapping := true }
  let _ ← skipBlanks true
  push start token

/-- Closes a pair without braces in a flow collection, if one is open. -/
def closeBarePair : Scan Unit := do
  if (← get).barePair then
    modify fun s => { s with inFlowMapping := false, barePair := false }
    push (← mark) .flowMappingEnd

def fetchFlowEnd (token : Token) : Scan Unit := do
  dropKey
  modify fun s =>
    if s.flowDepth = 0 then s else { s with flowDepth := s.flowDepth - 1, keys := s.keys.tail }
  forbidKey
  closeBarePair
  let start ← mark
  skipInk
  let _ ← skipBlanks true
  modify fun s => if 0 < s.flowDepth then { s with touchingColonAt := s.mark.index } else s
  push start token

def fetchFlowEntry : Scan Unit := do
  dropKey
  allowKey
  closeBarePair
  let start ← mark
  skipInk
  let _ ← skipBlanks true
  push start .flowEntry

def fetchBlockEntry : Scan Unit := do
  let s ← get
  if 0 < s.flowDepth then fail .blockEntryInFlow
  if !s.keyAllowed then fail .misplacedBlockEntry
  match s.queue.getLast? with
  | some (mark, .anchor _) | some (mark, .tag _ _) =>
      if s.mark.column = 0 && mark.column = 0 && -1 < s.indent then failAt mark .misplacedAnchor
  | _ => pure ()
  skipInk
  openBlock s.mark.column none .blockSequenceStart s.mark
  let blanks ← skipBlanks true
  if blanks.tabs && (← current) = '-' && isBlankOrEnd (← peek 1) then fail .tabAfterDash
  let c ← current
  if isBreak c || isFlow c then deepen
  dropKey
  allowKey
  push (← mark) .blockEntry

/-- Blanks other than tabs, breaks and comments behind a question mark; there must be one. -/
def skipKeyBlanks : Scan Unit := do
  let before := (← mark).index
  loop do
    let c ← current
    if c = ' ' then
      skipBlank
      return true
    else if isBreak c then
      skipBreak
      if (← get).flowDepth = 0 then allowKey
      return true
    else if c = '#' && before < (← mark).index then
      skipToBreak
      return true
    else return false
  if (← mark).index = before then fail .blankExpected
  if (← current) = '\t' then fail .tabAfterQuestionMark

def fetchKey : Scan Unit := do
  let s ← get
  if s.flowDepth = 0 then
    if !s.keyAllowed then fail .misplacedKey
    openBlock s.mark.column none .blockMappingStart s.mark
  else modify fun s => { s with inFlowMapping := true }
  dropKey
  if s.flowDepth = 0 then allowKey else forbidKey
  skipInk
  skipKeyBlanks
  push s.mark .key

/-- A colon: behind a possible key it makes that a key, elsewhere it stands behind an explicit or
a missing one. -/
def fetchValue : Scan Unit := do
  let s ← get
  let key := s.keys.headD .none
  let isBarePair := 0 < s.flowDepth && !s.inFlowMapping
  modify fun s => { s with barePair := isBarePair }
  skipInk
  if (← current) = '\t' then
    let blanks ← skipBlanks true
    let c ← current
    if !blanks.spaces && (c = '-' || Text.isAlphabetic c || Text.isNumeric c) then
      fail .tabAfterColon
  if key.possible then
    insert key.tokenNumber key.mark .key
    if isBarePair then
      if key.mark.line < s.mark.line then failAt s.mark .valueOnLaterLine
      insert key.tokenNumber (← mark) .flowMappingStart
    openBlock key.mark.column (some key.tokenNumber) .blockMappingStart s.mark
    deepen
    modify fun s => { s with keys := { key with possible := false } :: s.keys.tail }
    forbidKey
  else
    if isBarePair then push s.mark .flowMappingStart
    if s.flowDepth = 0 then
      if !s.keyAllowed then failAt s.mark .misplacedValue
      openBlock s.mark.column none .blockMappingStart s.mark
    deepen
    if s.flowDepth = 0 then allowKey else forbidKey
  push s.mark .value

def fetchAnchor (isAlias : Bool) : Scan Unit := do
  noteKey
  forbidKey
  let start ← mark
  skipInk
  let name ← takeRun isAnchorChar
  if name.isEmpty then failAt start .emptyAnchor
  let name := String.ofList name
  push start (if isAlias then .reference name else .anchor name)

def verbatimTag (start : Mark) : Scan (List Char) := do
  skipInks 2
  let uri ← uriRun isUriChar start
  if (← current) ≠ '>' then failAt start .verbatimTagEnd
  skipInk
  return uri

/-- Handle and suffix of a tag. A tag of one exclamation mark has an empty handle. -/
def tagParts (start : Mark) : Scan (List Char × List Char) := do
  if (← peek 1) = '<' then return ([], ← verbatimTag start)
  let handle ← tagHandle false start
  if 2 ≤ handle.length && handle.getLast? = some '!' then
    let suffix ← uriRun isTagChar start
    if suffix.isEmpty then failAt start .tagSuffix
    return (handle, suffix)
  let suffix := handle.drop 1 ++ (← uriRun isTagChar start)
  return if suffix.isEmpty then ([], ['!']) else (['!'], suffix)

def fetchTag : Scan Unit := do
  noteKey
  forbidKey
  let start ← mark
  let (handle, suffix) ← tagParts start
  let s ← get
  if !(isBlankOrEnd s.current || (0 < s.flowDepth && isFlow s.current)) then
    failAt start .tagTrail
  push start (.tag (String.ofList handle) (String.ofList suffix))

def fetchBlockScalar (literal : Bool) : Scan Unit := do
  noteKey
  allowKey
  scanBlock literal

def fetchQuoted (quote : Char) (style : ScalarStyle) : Scan Unit := do
  noteKey
  forbidKey
  let (start, token) ← scanQuoted quote style
  skipToContent
  modify fun s => { s with touchingColonAt := s.mark.index }
  push start token

def fetchPlain : Scan Unit := do
  noteKey
  forbidKey
  scanPlain

/-- Reads what starts at the present character. -/
def fetchContent : Scan Unit := do
  let s ← get
  let c := s.current
  let next := s.peek 1
  let inFlow := 0 < s.flowDepth
  if c = '[' then fetchFlowStart .flowSequenceStart
  else if c = '\x7b' then fetchFlowStart .flowMappingStart
  else if c = ']' then fetchFlowEnd .flowSequenceEnd
  else if c = '\x7d' then fetchFlowEnd .flowMappingEnd
  else if c = ',' then fetchFlowEntry
  else if c = '-' && isBlankOrEnd next then fetchBlockEntry
  else if c = '?' && isBlankOrEnd next then fetchKey
  else if c = ':' &&
      (isBlankOrEnd next || (inFlow && (isFlow next || s.mark.index = s.touchingColonAt))) then
    fetchValue
  else if c = '*' then fetchAnchor true
  else if c = '&' then fetchAnchor false
  else if c = '!' then fetchTag
  else if c = '|' && !inFlow then fetchBlockScalar true
  else if c = '>' && !inFlow then fetchBlockScalar false
  else if c = '\'' then fetchQuoted '\'' .singleQuoted
  else if c = '"' then fetchQuoted '"' .doubleQuoted
  else if c = '%' || c = '@' || c = '\x60' then fail (.strayCharacter c)
  else fetchPlain

/-- Reads at least one token more. -/
def fetch : Scan Unit := do
  skipToContent
  dropStaleKeys
  closeBlocks (← get).column
  let s ← get
  if s.current = endMark then fetchStreamEnd
  else if s.mark.column = 0 && s.current = '%' then fetchDirective
  else if isDocumentIndicator '-' s then fetchDocumentIndicator .documentStart
  else if isDocumentIndicator '.' s then
    fetchDocumentIndicator .documentEnd
    let _ ← skipBlanks true
    if !isBreakOrEnd (← current) then fail .trailingContent
  else
    if s.column < s.indent then fail .indentation
    fetchContent

/-- Reads until the next token is certain. -/
def fetchMore : Nat → Scan Unit
  | 0 => pure ()
  | n + 1 => do
      if (← get).queue.isEmpty then
        fetch
        fetchMore n
      else
        dropStaleKeys
        let s ← get
        if s.keys.any fun key => key.possible && key.tokenNumber = s.taken then
          fetch
          fetchMore n

/-- The next token, left in place. -/
def peekToken : Scan (Mark × Token) := do
  let s ← get
  fetchMore (s.rest.length + 3)
  match (← get).queue with
  | token :: _ => return token
  | [] => fail .endOfTokens

/-- Takes the next token. -/
def skipToken : Scan Unit :=
  modify fun s => { s with queue := s.queue.tail, taken := s.taken + 1 }

end ProcessLint.Yaml.Outline.Scan
