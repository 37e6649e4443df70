/-!
# Faults of documents

A fault is where a document departs from its schema and how: the path of keys and indices from
the top, and the name of the rule.
-/

namespace ReleaseRunner.Config

/-- A step into a document. -/
inductive Place where
  | key (name : String)
  | index (n : Nat)
deriving Repr, DecidableEq

/-- The rules of documents. -/
inductive Rule where
  | validJson
  | isModel
  | isList
  | isMapping
  | isText
  | isTruth
  | readsAsTruth
  | isNumber
  | readsAsNumber
  | isPositive
  | isPresent
  | isKnown
  | isAccepted
deriving Repr, DecidableEq

/-- The name under which the breach of a rule is reported. -/
def Rule.breach : Rule → String
  | validJson => "json_invalid"
  | isModel => "model_type"
  | isList => "list_type"
  | isMapping => "dict_type"
  | isText => "string_type"
  | isTruth => "bool_type"
  | readsAsTruth => "bool_parsing"
  | isNumber => "float_type"
  | readsAsNumber => "float_parsing"
  | isPositive => "greater_than"
  | isPresent => "missing"
  | isKnown => "extra_forbidden"
  | isAccepted => "value_error"

/-- A breach of a rule at a place. -/
structure Fault where
  path : List Place
  rule : Rule
deriving Repr, DecidableEq

end ReleaseRunner.Config
