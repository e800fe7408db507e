import ProcessLint.Yaml.Token

/-!
Why a text has no outline: the cause and the mark at which it is reported.
-/
namespace ProcessLint.Yaml.Outline

inductive Fault where
  -- Lines and indentation
  | indentation
  | tabIndentation
  | glued
  | trailingContent
  | misplacedBlockEntry
  | misplacedKey
  | misplacedValue
  | misplacedAnchor
  | blockEntryInFlow
  | tabAfterDash
  | tabAfterColon
  | tabAfterQuestionMark
  | blankExpected
  | keyWithoutColon
  | keyExpected
  | valueOnLaterLine
  | flowTooDeep
  | strayCharacter (c : Char)
  -- Directives
  | directiveName
  | directiveNameEnd
  | directiveTrail
  | versionNumber
  | versionPoint
  | versionTooLong
  | tagDirectiveHandle
  | tagDirectivePrefix
  | tagDirectiveTrail
  | duplicateVersion
  | documentStartExpected
  | directiveAfterContent
  -- Anchors and tags
  | emptyAnchor
  | unknownAnchor
  | tagStart
  | tagSuffix
  | tagTrail
  | verbatimTagEnd
  | undeclaredHandle
  | tagEscape
  | tagEscapeLead
  | tagEscapeTrail
  | tagEscapeCode
  -- Scalars
  | zeroIndentation
  | blockScalarHeader
  | blockScalarTab
  | blockScalarIndentation
  | quotedIndicator
  | quotedEnd
  | quotedIndentation
  | quotedTab
  | quotedTrail
  | unknownEscape
  | escapeDigits
  | escapeCode
  | plainInFlowIndentation
  | plainDash
  | plainTab
  -- Structure
  | nodeExpected
  | blockMappingKey
  | blockSequenceEntry
  | flowMappingSeparator
  | flowSequenceSeparator
  | endOfTokens
  deriving DecidableEq, Repr

def Fault.message : Fault → String
  | indentation => "invalid indentation"
  | tabIndentation => "tabs disallowed within this context (block indentation)"
  | glued => "comments must be separated from other tokens by whitespace"
  | trailingContent => "invalid content after document end marker"
  | misplacedBlockEntry => "block sequence entries are not allowed in this context"
  | misplacedKey => "mapping keys are not allowed in this context"
  | misplacedValue => "mapping values are not allowed in this context"
  | misplacedAnchor => "invalid indentation for anchor"
  | blockEntryInFlow => "\"-\" is only valid inside a block"
  | tabAfterDash => "'-' must be followed by a valid YAML whitespace"
  | tabAfterColon => "':' must be followed by a valid YAML whitespace"
  | tabAfterQuestionMark => "tabs disallowed in this context"
  | blankExpected => "expected whitespace"
  | keyWithoutColon => "simple key expect ':'"
  | keyExpected => "simple key expected"
  | valueOnLaterLine => "illegal placement of ':' indicator"
  | flowTooDeep => "recursion limit exceeded"
  | strayCharacter c => s!"unexpected character: `{c}'"
  | directiveName => "while scanning a directive, could not find expected directive name"
  | directiveNameEnd => "while scanning a directive, found unexpected non-alphabetical character"
  | directiveTrail => "while scanning a directive, did not find expected comment or line break"
  | versionNumber => "while scanning a YAML directive, did not find expected version number"
  | versionPoint =>
      "while scanning a YAML directive, did not find expected digit or '.' character"
  | versionTooLong => "while scanning a YAML directive, found extremely long version number"
  | tagDirectiveHandle => "while parsing a tag directive, did not find expected '!'"
  | tagDirectivePrefix => "invalid global tag character"
  | tagDirectiveTrail => "while scanning TAG, did not find expected whitespace or line break"
  | duplicateVersion => "duplicate version directive"
  | documentStartExpected => "did not find expected <document start>"
  | directiveAfterContent => "missing explicit document end marker before directive"
  | emptyAnchor =>
      "while scanning an anchor or alias, did not find expected alphabetic or numeric character"
  | unknownAnchor => "while parsing node, found unknown anchor"
  | tagStart => "while scanning a tag, did not find expected '!'"
  | tagSuffix => "while parsing a tag, did not find expected tag URI"
  | tagTrail => "while scanning a tag, did not find expected whitespace or line break"
  | verbatimTagEnd => "while scanning a verbatim tag, did not find the expected '>'"
  | undeclaredHandle => "the handle wasn't declared"
  | tagEscape => "while parsing a tag, found an invalid escape sequence"
  | tagEscapeLead => "while parsing a tag, found an incorrect leading UTF-8 byte"
  | tagEscapeTrail => "while parsing a tag, found an incorrect trailing UTF-8 byte"
  | tagEscapeCode => "while parsing a tag, found an invalid UTF-8 codepoint"
  | zeroIndentation =>
      "while scanning a block scalar, found an indentation indicator equal to 0"
  | blockScalarHeader =>
      "while scanning a block scalar, did not find expected comment or line break"
  | blockScalarTab => "a block scalar content cannot start with a tab"
  | blockScalarIndentation => "wrongly indented line in block scalar"
  | quotedIndicator => "while scanning a quoted scalar, found unexpected document indicator"
  | quotedEnd => "while scanning a quoted scalar, found unexpected end of stream"
  | quotedIndentation => "invalid indentation in quoted scalar"
  | quotedTab => "tab cannot be used as indentation"
  | quotedTrail => "invalid trailing content after double-quoted scalar"
  | unknownEscape => "while parsing a quoted scalar, found unknown escape character"
  | escapeDigits => "while parsing a quoted scalar, did not find expected hexadecimal number"
  | escapeCode => "while parsing a quoted scalar, found invalid Unicode character escape code"
  | plainInFlowIndentation => "invalid indentation in flow construct"
  | plainDash => "plain scalar cannot start with '-' followed by ,[]\x7b\x7d"
  | plainTab => "while scanning a plain scalar, found a tab"
  | nodeExpected => "while parsing a node, did not find expected node content"
  | blockMappingKey => "while parsing a block mapping, did not find expected key"
  | blockSequenceEntry =>
      "while parsing a block collection, did not find expected '-' indicator"
  | flowMappingSeparator => "while parsing a flow mapping, did not find expected ',' or '\x7d'"
  | flowSequenceSeparator => "while parsing a flow sequence, expected ',' or ']'"
  | endOfTokens => "unexpected eof"

structure Malformed where
  mark : Mark
  fault : Fault
  deriving DecidableEq, Repr

end ProcessLint.Yaml.Outline
