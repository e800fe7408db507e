import ProcessLint.Yaml.Token

/-!
Why a text has no content: the problem and its mark, and what was being read and where that
began.
-/
namespace ProcessLint.Yaml.Content

inductive Problem where
  | startOfToken
  | colonAfterKey
  | misplacedBlockEntry
  | misplacedKey
  | misplacedValue
  -- Directives
  | directiveName
  | directiveNameEnd
  | unknownDirective
  | directiveTrail
  | versionNumber
  | versionPoint
  | versionTooLong
  | tagDirectiveBlank
  | tagDirectiveTrail
  | duplicateVersion
  | incompatibleVersion
  | duplicateTagDirective
  | documentStartExpected
  -- Anchors and tags
  | nameExpected
  | exclamationExpected
  | verbatimTagEnd
  | tagTrail
  | tagUri
  | tagEscape
  | tagEscapeLead
  | tagEscapeTrail
  | undefinedHandle
  -- Scalars
  | zeroIndentation
  | blockScalarHeader
  | blockScalarTab
  | quotedIndicator
  | quotedEnd
  | unknownEscape
  | escapeDigits
  | escapeCode
  | flowColon
  | plainTab
  -- Structure
  | nodeExpected
  | blockMappingKey
  | blockSequenceEntry
  | flowMappingSeparator
  | flowSequenceSeparator
  deriving DecidableEq, Repr

def Problem.message : Problem → String
  | startOfToken => "found character that cannot start any token"
  | colonAfterKey => "could not find expected ':'"
  | misplacedBlockEntry => "block sequence entries are not allowed in this context"
  | misplacedKey => "mapping keys are not allowed in this context"
  | misplacedValue => "mapping values are not allowed in this context"
  | directiveName => "could not find expected directive name"
  | directiveNameEnd => "found unexpected non-alphabetical character"
  | unknownDirective => "found unknown directive name"
  | directiveTrail => "did not find expected comment or line break"
  | versionNumber => "did not find expected version number"
  | versionPoint => "did not find expected digit or '.' character"
  | versionTooLong => "found extremely long version number"
  | tagDirectiveBlank => "did not find expected whitespace"
  | tagDirectiveTrail => "did not find expected whitespace or line break"
  | duplicateVersion => "found duplicate %YAML directive"
  | incompatibleVersion => "found incompatible YAML document"
  | duplicateTagDirective => "found duplicate %TAG directive"
  | documentStartExpected => "did not find expected <document start>"
  | nameExpected => "did not find expected alphabetic or numeric character"
  | exclamationExpected => "did not find expected '!'"
  | verbatimTagEnd => "did not find the expected '>'"
  | tagTrail => "did not find expected whitespace or line break"
  | tagUri => "did not find expected tag URI"
  | tagEscape => "did not find URI escaped octet"
  | tagEscapeLead => "found an incorrect leading UTF-8 octet"
  | tagEscapeTrail => "found an incorrect trailing UTF-8 octet"
  | undefinedHandle => "found undefined tag handle"
  | zeroIndentation => "found an indentation indicator equal to 0"
  | blockScalarHeader => "did not find expected comment or line break"
  | blockScalarTab => "found a tab character where an indentation space is expected"
  | quotedIndicator => "found unexpected document indicator"
  | quotedEnd => "found unexpected end of stream"
  | unknownEscape => "found unknown escape character"
  | escapeDigits => "did not find expected hexdecimal number"
  | escapeCode => "found invalid Unicode character escape code"
  | flowColon => "found unexpected ':'"
  | plainTab => "found a tab character that violates indentation"
  | nodeExpected => "did not find expected node content"
  | blockMappingKey => "did not find expected key"
  | blockSequenceEntry => "did not find expected '-' indicator"
  | flowMappingSeparator => "did not find expected ',' or '\x7d'"
  | flowSequenceSeparator => "did not find expected ',' or ']'"

/-- What was being read. -/
inductive Context where
  | nextToken
  | simpleKey
  | directive
  | versionDirective
  | tagDirective
  | tagDirectiveParts
  | tagDirectiveHandle
  | anchor
  | reference
  | tag
  | tagParts
  | blockScalar
  | quotedScalar
  | quotedEscape
  | plainScalar
  | node
  | blockNode
  | flowNode
  | blockMapping
  | blockCollection
  | flowMapping
  | flowSequence
  deriving DecidableEq, Repr

def Context.message : Context → String
  | nextToken => "while scanning for the next token"
  | simpleKey => "while scanning a simple key"
  | directive => "while scanning a directive"
  | versionDirective => "while scanning a %YAML directive"
  | tagDirective => "while scanning a %TAG directive"
  | tagDirectiveParts => "while parsing a %TAG directive"
  | tagDirectiveHandle => "while parsing a tag directive"
  | anchor => "while scanning an anchor"
  | reference => "while scanning an alias"
  | tag => "while scanning a tag"
  | tagParts => "while parsing a tag"
  | blockScalar => "while scanning a block scalar"
  | quotedScalar => "while scanning a quoted scalar"
  | quotedEscape => "while parsing a quoted scalar"
  | plainScalar => "while scanning a plain scalar"
  | node => "while parsing a node"
  | blockNode => "while parsing a block node"
  | flowNode => "while parsing a flow node"
  | blockMapping => "while parsing a block mapping"
  | blockCollection => "while parsing a block collection"
  | flowMapping => "while parsing a flow mapping"
  | flowSequence => "while parsing a flow sequence"

inductive Rejection where
  /-- A control character, by the number of bytes before it. -/
  | forbiddenCharacter (offset : Nat)
  | malformed (problem : Problem) (mark : Mark) (context : Option (Context × Mark))
  deriving DecidableEq, Repr

/-- Where a mark is, unless it is the start of the text. -/
def placeText (mark : Mark) : String :=
  if mark.line = 1 ∧ mark.column = 0 then ""
  else s!" at line {mark.line} column {mark.column + 1}"

/-- The mark of the context is left out where it would say nothing new. -/
def Rejection.message : Rejection → String
  | forbiddenCharacter offset =>
      "control characters are not allowed" ++
        (if offset = 0 then "" else s!" at position {offset}")
  | malformed problem mark none => problem.message ++ placeText mark
  | malformed problem mark (some (context, contextMark)) =>
      let isSame := contextMark.line = mark.line ∧ contextMark.column = mark.column
      problem.message ++ placeText mark ++ ", " ++ context.message ++
        (if isSame then "" else placeText contextMark)

end ProcessLint.Yaml.Content
