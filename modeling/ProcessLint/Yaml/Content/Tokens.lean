import ProcessLint.Yaml.Content.Scalars

/-!
Tokens of the content, read one at a time. A token is given out only when no key that starts
before it is still possible.
-/
namespace ProcessLint.Yaml.Content.Scan

/-- Moves to the next content over blanks, breaks and comments. Outside of flow collections tabs
are blanks only where no key may start. A byte order mark at the start of a line is passed over,
but takes a column. -/
def skipToContent : Scan Unit :=
  loop do
    let s ← get
    if s.mark.column = 0 && s.current = byteOrderMark then skip
    let tabs := 0 < s.flowDepth || !s.keyAllowed
    let _ ← takeRun fun c => c = ' ' || (tabs && c = '\t')
    if (← current) = '#' then skipToBreak
    match ← readBreak with
    | some _ =>
        if s.flowDepth = 0 then allowKey true
        return true
    | none => return false

section Directives

def versionNumber (start : Mark) : Scan Nat := do
  let digits := (← get).rest.takeWhile Text.isDigit
  skipRun (min digits.length 9)
  if 9 < digits.length then fail .versionTooLong .versionDirective start
  if digits.isEmpty then fail .versionNumber .versionDirective start
  return Text.decimalValue digits

def versionDirective (start : Mark) : Scan Token := do
  skipBlanks
  let major ← versionNumber start
  if (← current) ≠ '.' then fail .versionPoint .versionDirective start
  skip
  return .versionDirective major (← versionNumber start)

/-- Number of bytes of a character and the bits that its first byte holds. -/
def leadByte? (byte : Nat) : Option (Nat × Nat) :=
  if byte < 0x80 then some (1, byte)
  else if 0xC0 ≤ byte ∧ byte < 0xE0 then some (2, byte - 0xC0)
  else if 0xE0 ≤ byte ∧ byte < 0xF0 then some (3, byte - 0xE0)
  else if 0xF0 ≤ byte ∧ byte < 0xF8 then some (4, byte - 0xF0)
  else none

def escapedByte (context : Context) (start : Mark) : Scan Nat := do
  let s ← get
  match s.current, Text.digitValue? 16 (s.peek 1), Text.digitValue? 16 (s.peek 2) with
  | '%', some high, some low => return high * 16 + low
  | _, _, _ => fail .tagEscape context start

def escapedTail (context : Context) (start : Mark) : Nat → Nat → Scan Nat
  | 0, code => pure code
  | n + 1, code => do
      let byte ← escapedByte context start
      if byte < 0x80 || 0xC0 ≤ byte then fail .tagEscapeTrail context start
      skipRun 3
      escapedTail context start n (code * 64 + (byte - 0x80))

/-- A character of a URI whose bytes are escaped one by one. -/
def escapedUriChar (context : Context) (start : Mark) : Scan Char := do
  let byte ← escapedByte context start
  match leadByte? byte with
  | none => fail .tagEscapeLead context start
  | some (length, bits) =>
      skipRun 3
      let code ← escapedTail context start (length - 1) bits
      return (charOfCode? code).getD '\ufffd'

/-- Characters of a tag; those of flow collections only where angle brackets or a directive hold
it. -/
def isTagChar (anyUri : Bool) (c : Char) : Bool :=
  isNameChar c || ";/?:@&=+$.%!~*'()".toList.contains c || (anyUri && ",[]".toList.contains c)

def uriRun (anyUri : Bool) (context : Context) (start : Mark) : Scan (List Char) := do
  go ((← get).rest.length + 1) []
where
  go : Nat → List Char → Scan (List Char)
    | 0, reversed => pure reversed.reverse
    | n + 1, reversed => do
        let c ← current
        if !isTagChar anyUri c then return reversed.reverse
        if c = '%' then go n ((← escapedUriChar context start) :: reversed)
        else
          skip
          go n (c :: reversed)

/-- An exclamation mark, name characters, and a second mark, which in a directive may be missing
only if there is no name. -/
def tagHandle (inDirective : Bool) (start : Mark) : Scan (List Char) := do
  if (← current) ≠ '!' then
    fail .exclamationExpected (if inDirective then .tagDirective else .tag) start
  skip
  let name ← takeRun isNameChar
  if (← current) = '!' then
    skip
    return '!' :: name ++ ['!']
  if inDirective && !name.isEmpty then fail .exclamationExpected .tagDirectiveHandle start
  return '!' :: name

def tagDirective (start : Mark) : Scan Token := do
  skipBlanks
  let handle ← tagHandle true start
  if !isBlank (← current) then fail .tagDirectiveBlank .tagDirective start
  skipBlanks
  let uri ← uriRun true .tagDirectiveParts start
  if uri.isEmpty then fail .tagUri .tagDirectiveParts start
  if !isBlankOrEnd (← current) then fail .tagDirectiveTrail .tagDirective start
  return .tagDirective (String.ofList handle) (String.ofList uri)

def fetchDirective : Scan Unit := do
  closeBlocks (-1)
  dropKey
  allowKey false
  let start ← mark
  skip
  let name ← takeRun isNameChar
  if name.isEmpty then fail .directiveName .directive start
  if !isBlankOrEnd (← current) then fail .directiveNameEnd .directive start
  let token ←
    if name = "YAML".toList then versionDirective start
    else if name = "TAG".toList then tagDirective start
    else fail .unknownDirective .directive start
  skipBlanks
  if (← current) = '#' then skipToBreak
  if !isBreakOrEnd (← current) then fail .directiveTrail .directive start
  skipBreak
  push start token

end Directives

def fetchDocumentIndicator (token : Token) : Scan Unit := do
  closeBlocks (-1)
  dropKey
  allowKey false
  let start ← mark
  skipRun 3
  push start token

/-- The end of the text stands on a line of its own. -/
def fetchStreamEnd : Scan Unit := do
  modify fun s =>
    if s.mark.column = 0 then s
    else { s with mark := { s.mark with column := 0, line := s.mark.line + 1 } }
  closeBlocks (-1)
  dropKey
  allowKey false
  push (← mark) .streamEnd

def fetchFlowStart (token : Token) : Scan Unit := do
  noteKey
  modify fun s => { s with keys := .none :: s.keys, flowDepth := s.flowDepth + 1 }
  allowKey true
  let start ← mark
  skip
  push start token

def fetchFlowEnd (token : Token) : Scan Unit := do
  dropKey
  modify fun s =>
    if s.flowDepth = 0 then s else { s with flowDepth := s.flowDepth - 1, keys := s.keys.tail }
  allowKey false
  let start ← mark
  skip
  push start token

def fetchFlowEntry : Scan Unit := do
  dropKey
  allowKey true
  let start ← mark
  skip
  push start .flowEntry

/-- Inside of a flow collection a dash is no error yet. -/
def fetchBlockEntry : Scan Unit := do
  let s ← get
  if s.flowDepth = 0 then
    if !s.keyAllowed then failHere .misplacedBlockEntry
    openBlock s.mark.column none .blockSequenceStart s.mark
  dropKey
  allowKey true
  skip
  push s.mark .blockEntry

def fetchKey : Scan Unit := do
  let s ← get
  if s.flowDepth = 0 then
    if !s.keyAllowed then failHere .misplacedKey
    openBlock s.mark.column none .blockMappingStart s.mark
  dropKey
  allowKey (s.flowDepth = 0)
  skip
  push s.mark .key

/-- A colon: behind a possible key it makes that a key, elsewhere it stands behind an explicit or
a missing one. -/
def fetchValue : Scan Unit := do
  let s ← get
  let key := s.keys.headD .none
  if key.possible then
    insert key.tokenNumber key.mark .key
    openBlock key.mark.column (some key.tokenNumber) .blockMappingStart key.mark
    modify fun s => { s with keys := { key with possible := false } :: s.keys.tail }
    allowKey false
  else
    if s.flowDepth = 0 then
      if !s.keyAllowed then failHere .misplacedValue
      openBlock s.mark.column none .blockMappingStart s.mark
    allowKey (s.flowDepth = 0)
  skip
  push s.mark .value

/-- What may follow the name of an anchor or alias. -/
def endsName (c : Char) : Bool :=
  isBlankOrEnd c || "?:,]\x7d%@\x60".toList.contains c

def fetchAnchor (isAlias : Bool) : Scan Unit := do
  noteKey
  allowKey false
  let start ← mark
  skip
  let name ← takeRun isNameChar
  if name.isEmpty || !endsName (← current) then
    fail .nameExpected (if isAlias then .reference else .anchor) start
  let name := String.ofList name
  push start (if isAlias then .reference name else .anchor name)

/-- Handle and suffix of a tag. A tag in angle brackets, and one of an exclamation mark only, has
an empty handle. -/
def tagParts (start : Mark) : Scan (List Char × List Char) := do
  if (← peek 1) = '<' then
    skipRun 2
    let uri ← uriRun true .tagParts start
    if uri.isEmpty then fail .tagUri .tagParts start
    if (← current) ≠ '>' then fail .verbatimTagEnd .tag start
    skip
    return ([], uri)
  let handle ← tagHandle false start
  if 2 ≤ handle.length && handle.getLast? = some '!' then
    let suffix ← uriRun false .tagParts start
    if suffix.isEmpty then fail .tagUri .tagParts start
    return (handle, suffix)
  let suffix := handle.drop 1 ++ (← uriRun false .tagParts start)
  return if suffix.isEmpty then ([], ['!']) else (['!'], suffix)

def fetchTag : Scan Unit := do
  noteKey
  allowKey false
  let start ← mark
  let (handle, suffix) ← tagParts start
  let s ← get
  if !(isBlankOrEnd s.current || (0 < s.flowDepth && s.current = ',')) then
    fail .tagTrail .tag start
  push start (.tag (String.ofList handle) (String.ofList suffix))

def fetchBlockScalar (literal : Bool) : Scan Unit := do
  dropKey
  allowKey true
  scanBlock literal

def fetchQuoted (quote : Char) (style : ScalarStyle) : Scan Unit := do
  noteKey
  allowKey false
  scanQuoted quote style

def fetchPlain : Scan Unit := do
  noteKey
  allowKey false
  scanPlain

/-- Characters that mean something at the start of a token. -/
def isIndicator (c : Char) : Bool :=
  "-?:,[]\x7b\x7d#&*!|>'\"%@\x60".toList.contains c

def fetchContent : Scan Unit := do
  let s ← get
  let c := s.current
  let next := s.peek 1
  let inFlow := 0 < s.flowDepth
  if c = '[' then fetchFlowStart .flowSequenceStart
  else if c = '\x7b' then fetchFlowStart .flowMappingStart
  else if c = ']' then fetchFlowEnd .flowSequenceEnd
  else if c = '\x7d' then fetchFlowEnd .flowMappingEnd
  else if c = ',' then fetchFlowEntry
  else if c = '-' && isBlankOrEnd next then fetchBlockEntry
  else if c = '?' && (inFlow || isBlankOrEnd next) then fetchKey
  else if c = ':' && (inFlow || isBlankOrEnd next) then fetchValue
  else if c = '*' then fetchAnchor true
  else if c = '&' then fetchAnchor false
  else if c = '!' then fetchTag
  else if c = '|' && !inFlow then fetchBlockScalar true
  else if c = '>' && !inFlow then fetchBlockScalar false
  else if c = '\'' then fetchQuoted '\'' .singleQuoted
  else if c = '"' then fetchQuoted '"' .doubleQuoted
  else if (!isBlankOrEnd c && !isIndicator c) || c = '-' || c = '?' || c = ':' then fetchPlain
  else fail .startOfToken .nextToken s.mark

/-- Reads at least one token more. -/
def fetch : Scan Unit := do
  skipToContent
  dropStaleKeys
  closeBlocks (← get).column
  let s ← get
  if s.current = endMark then fetchStreamEnd
  else if s.mark.column = 0 && s.current = '%' then fetchDirective
  else if isDocumentIndicator '-' s then fetchDocumentIndicator .documentStart
  else if isDocumentIndicator '.' s then fetchDocumentIndicator .documentEnd
  else fetchContent

/-- Reads until the next token is certain. -/
def fetchMore : Nat → Scan Unit
  | 0 => pure ()
  | n + 1 => do
      if (← get).queue.isEmpty then
        fetch
        fetchMore n
      else
        dropStaleKeys
        let s ← get
        if s.keys.any fun key => key.possible && key.tokenNumber = s.taken then
          fetch
          fetchMore n

/-- The next token, left in place. Behind the end of the stream there is nothing else. -/
def peekToken : Scan (Mark × Token) := do
  let s ← get
  fetchMore (s.rest.length + 3)
  let s ← get
  return s.queue.headD (s.mark, .streamEnd)

/-- Takes the next token. -/
def skipToken : Scan Unit :=
  modify fun s => { s with queue := s.queue.tail, taken := s.taken + 1 }

end ProcessLint.Yaml.Content.Scan
