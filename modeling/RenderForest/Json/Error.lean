import RenderForest.Json.Value
/-!
# Error — why a JSON text is refused

A text is refused because its syntax is broken or because a value has not the expected shape.
This file defines:

* `Json.Error`, the causes;
* `Json.Error.message`, the wording of each.
-/

namespace RenderForest
namespace Json

inductive Error where
  | endInList
  | endInObject
  | endInString
  | endInValue
  | noColon
  | noListSeparator
  | noObjectSeparator
  | badWord
  | noValue
  | badEscape
  | badNumber
  | numberTooLarge
  | badCodePoint
  | controlCharacter
  | keyNotString
  | loneSurrogate
  | halfSurrogatePair
  | trailingComma
  | trailingCharacters
  | tooDeep
  | wrongType (found expected : String)
  | wrongValue (found expected : String)
  | wrongLength (found : Nat) (expected : String)
  | repeatedField (name : String)
  | refused (reason : String)
  deriving DecidableEq, Repr

def Error.message : Error → String
  | .endInList => "EOF while parsing a list"
  | .endInObject => "EOF while parsing an object"
  | .endInString => "EOF while parsing a string"
  | .endInValue => "EOF while parsing a value"
  | .noColon => "expected `:`"
  | .noListSeparator => "expected `,` or `]`"
  | .noObjectSeparator => "expected `,` or `\x7d`"
  | .badWord => "expected ident"
  | .noValue => "expected value"
  | .badEscape => "invalid escape"
  | .badNumber => "invalid number"
  | .numberTooLarge => "number out of range"
  | .badCodePoint => "invalid unicode code point"
  | .controlCharacter =>
    "control character (\\u0000-\\u001F) found while parsing a string"
  | .keyNotString => "key must be a string"
  | .loneSurrogate => "lone leading surrogate in hex escape"
  | .halfSurrogatePair => "unexpected end of hex escape"
  | .trailingComma => "trailing comma"
  | .trailingCharacters => "trailing characters"
  | .tooDeep => "recursion limit exceeded"
  | .wrongType found expected => "invalid type: " ++ found ++ ", expected " ++ expected
  | .wrongValue found expected => "invalid value: " ++ found ++ ", expected " ++ expected
  | .wrongLength found expected =>
    "invalid length " ++ toString found ++ ", expected " ++ expected
  | .repeatedField name => "duplicate field `" ++ name ++ "`"
  | .refused reason => reason

end Json
end RenderForest
