/-!
# What can be wrong with a YAML text

Flaws of the text itself, and well-formed nodes of the wrong shape.
-/

namespace Lifecycle.Yaml

inductive Fault
  | controlCharacter
  | tabIndentation
  | badDirective
  | badAnchor
  | badTag
  | unknownTagHandle
  | badEscape
  | openQuote
  | markerInQuote
  | badBlockHeader
  | lostKey
  | misplacedEntry
  | misplacedKey
  | misplacedValue
  | strayColon
  | strayCharacter
  | noNode
  | noSeparator
  | noDocumentStart
  | unknownAlias
  | tooManyAliases
  | severalDocuments
  | tooDeep
  | mismatch (expected : String)
  | missingField (name : String)
  | duplicateField (name : String)
  | unknownName (name : String)
  | outOfRange (expected : String)

def Fault.message : Fault → String
  | .controlCharacter => "control characters are not allowed"
  | .tabIndentation => "a tab is used for indentation"
  | .badDirective => "a directive is not well formed"
  | .badAnchor => "an anchor or alias is not well formed"
  | .badTag => "a tag is not well formed"
  | .unknownTagHandle => "a tag handle is not declared"
  | .badEscape => "an escape sequence is not well formed"
  | .openQuote => "a quoted scalar is not closed"
  | .markerInQuote => "a document marker stands inside a quoted scalar"
  | .badBlockHeader => "the header of a block scalar is not well formed"
  | .lostKey => "a key lacks its colon"
  | .misplacedEntry => "a sequence entry is not allowed here"
  | .misplacedKey => "a mapping key is not allowed here"
  | .misplacedValue => "a mapping value is not allowed here"
  | .strayColon => "a colon stands before a flow indicator"
  | .strayCharacter => "a character cannot start any token"
  | .noNode => "a node is expected"
  | .noSeparator => "a separator or the end of a collection is expected"
  | .noDocumentStart => "the start of a document is expected"
  | .unknownAlias => "an alias refers to no anchor"
  | .tooManyAliases => "aliases are followed too often"
  | .severalDocuments => "more than one document is given"
  | .tooDeep => "nodes are nested too deeply"
  | .mismatch expected => "expected " ++ expected
  | .missingField name => "missing field " ++ name
  | .duplicateField name => "duplicate field " ++ name
  | .unknownName name => "unknown variant " ++ name
  | .outOfRange expected => "a number is out of range, expected " ++ expected

end Lifecycle.Yaml
