/-! Why a text is not YAML. -/
namespace FabricLoader.Yaml

inductive Malformed where
  /-- A tab where indentation is measured. -/
  | tab
  | unclosedQuote
  | documentMarkInQuote
  | escape
  | blockHeader
  | directive
  | tag
  | anchor
  /-- A character that begins no token. -/
  | character (c : Char)
  /-- A key that has to be followed by a value and is not. -/
  | keyWithoutValue
  | misplacedEntry
  | misplacedKey
  | misplacedValue
  /-- Flow collections nested too deeply. -/
  | nesting
  | unexpectedToken
  | unknownAlias (name : String)
  deriving DecidableEq, Repr

def Malformed.message : Malformed → String
  | tab => "found a tab character where indentation is expected"
  | unclosedQuote => "while scanning a quoted scalar, found unexpected end of stream"
  | documentMarkInQuote => "while scanning a quoted scalar, found unexpected document indicator"
  | escape => "while parsing a quoted scalar, found unknown escape character"
  | blockHeader => "while scanning a block scalar, found a malformed header"
  | directive => "while scanning a directive, found a malformed one"
  | tag => "while scanning a tag, found a malformed one"
  | anchor => "while scanning an anchor or alias, found a malformed name"
  | character c => s!"unexpected character: {c}"
  | keyWithoutValue => "simple key expected"
  | misplacedEntry => "block sequence entries are not allowed in this context"
  | misplacedKey => "mapping keys are not allowed in this context"
  | misplacedValue => "mapping values are not allowed in this context"
  | nesting => "recursion limit exceeded"
  | unexpectedToken => "did not find expected node content"
  | unknownAlias name => s!"while parsing node, found unknown anchor {name}"

end FabricLoader.Yaml
