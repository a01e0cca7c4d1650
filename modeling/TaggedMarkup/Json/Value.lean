/-!
# JSON values
-/

namespace TaggedMarkup

/-- A JSON value. Of a number only the place is kept. A string or key with half of a surrogate
pair stands for no text, and is `none`. -/
inductive Json where
  | null
  | bool (value : Bool)
  | number
  | string (text : Option String)
  | array (items : List Json)
  | object (members : List (Option String × Json))
  deriving Repr, Inhabited

namespace Json

/-- The text of a string. -/
def text? : Json → Option String
  | .string text => text
  | _ => none

/-- The texts of an array of strings. -/
def texts? : Json → Option (List String)
  | .array items => items.mapM text?
  | _ => none

end Json

end TaggedMarkup
