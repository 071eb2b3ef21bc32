/-
The tokens of a YAML document: indicators, scalars and the marks of block structure that
indentation stands for.
-/
import AuditTrail.Yaml.Source

namespace AuditTrail.Yaml

/-- What a token is. -/
inductive TokenKind where
  | streamStart
  | streamEnd
  | yamlDirective (major minor : Nat)
  | tagDirective (handle lead : Text)
  | otherDirective
  | documentStart
  | documentEnd
  | blockSequenceStart
  | blockMappingStart
  | blockEnd
  | flowSequenceStart
  | flowSequenceEnd
  | flowMappingStart
  | flowMappingEnd
  | blockEntry
  | flowEntry
  | key
  | value
  | alias (name : Text)
  | anchor (name : Text)
  | tag (handle : Option Text) (suffix : Text)
  | scalar (text : Text) (plain : Bool)
  deriving DecidableEq, Repr, Inhabited

/-- A token and the places of its beginning and its end. -/
structure Token where
  kind : TokenKind
  start : Mark
  stop : Mark
  deriving DecidableEq, Repr, Inhabited

/-- The name of a kind of token in complaints. -/
def TokenKind.label : TokenKind → Text
  | .streamStart => "<stream start>".toList
  | .streamEnd => "<stream end>".toList
  | .yamlDirective .. | .tagDirective .. | .otherDirective => "<directive>".toList
  | .documentStart => "<document start>".toList
  | .documentEnd => "<document end>".toList
  | .blockSequenceStart => "<block sequence start>".toList
  | .blockMappingStart => "<block mapping start>".toList
  | .blockEnd => "<block end>".toList
  | .flowSequenceStart => ['[']
  | .flowSequenceEnd => [']']
  | .flowMappingStart => ['\x7b']
  | .flowMappingEnd => ['\x7d']
  | .blockEntry => ['-']
  | .flowEntry => [',']
  | .key => ['?']
  | .value => [':']
  | .alias _ => "<alias>".toList
  | .anchor _ => "<anchor>".toList
  | .tag .. => "<tag>".toList
  | .scalar .. => "<scalar>".toList

/-- A token's kind between quotes, as complaints show it. -/
def Token.shown (t : Token) : Text := Text.quoted t.kind.label

end AuditTrail.Yaml
