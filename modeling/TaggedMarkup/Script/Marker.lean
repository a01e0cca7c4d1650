import TaggedMarkup.Failure
import TaggedMarkup.Script.Scope
import TaggedMarkup.Script.Syntax

/-!
# Observable markers

A default value that is the bare identifier `$` marks all names in its target as observable. The
marker is no value: it is taken out of the source. A marker inside the target of another one is an
error.
-/

namespace TaggedMarkup.Script

/-- Whether a default value is the marker. -/
def Expr.isMarker : Expr → Bool
  | .name id => id.text == "$"
  | _ => false

mutual

/-- The names that a pattern binds, where `marked` tells of a marker around it. -/
def Pattern.collect (marked : Bool) : Pattern → Except Failure (List Binding)
  | .name id _ => .ok [⟨id.text, marked⟩]
  | .object parts _ => collectParts marked parts
  | .array items _ => collectItems marked items
  | .withDefault target value span =>
    if value.isMarker then
      if marked then
        let name :=
          match target.collect false with
          | .ok (first :: _) => first.name
          | _ => "pattern"
        .error ⟨.duplicateMarker name, some span.start⟩
      else target.collect true
    else target.collect marked

/-- The names that the parts of an object pattern bind. -/
def collectParts (marked : Bool) : List PatternPart → Except Failure (List Binding)
  | [] => .ok []
  | part :: parts =>
    match part.collect marked with
    | .error failure => .error failure
    | .ok names =>
      match collectParts marked parts with
      | .error failure => .error failure
      | .ok more => .ok (names ++ more)

/-- The names that a part of an object pattern binds. -/
def PatternPart.collect (marked : Bool) : PatternPart → Except Failure (List Binding)
  | .prop _ target => target.collect marked
  | .rest target => target.collect marked

/-- The names that the items of an array pattern bind. -/
def collectItems (marked : Bool) : List PatternItem → Except Failure (List Binding)
  | [] => .ok []
  | item :: items =>
    match item.collect marked with
    | .error failure => .error failure
    | .ok names =>
      match collectItems marked items with
      | .error failure => .error failure
      | .ok more => .ok (names ++ more)

/-- The names that an item of an array pattern binds. -/
def PatternItem.collect (marked : Bool) : PatternItem → Except Failure (List Binding)
  | .hole => .ok []
  | .item _ target => target.collect marked
  | .rest _ target => target.collect marked

end

/-- The names that a pattern binds, each with whether a marker makes it observable. -/
def Pattern.bindings (p : Pattern) : Except Failure (List Binding) := p.collect false

mutual

/-- The spans of the markers in a pattern, each from the end of its target to its own. -/
def Pattern.markers : Pattern → List Span
  | .name _ _ => []
  | .object parts _ => markersOfParts parts
  | .array items _ => markersOfItems items
  | .withDefault target value span =>
    (if value.isMarker then [⟨target.span.stop, span.stop⟩] else []) ++ target.markers

/-- The markers in the parts of an object pattern. -/
def markersOfParts : List PatternPart → List Span
  | [] => []
  | part :: parts => part.markers ++ markersOfParts parts

/-- The markers in a part of an object pattern. -/
def PatternPart.markers : PatternPart → List Span
  | .prop _ target => target.markers
  | .rest target => target.markers

/-- The markers in the items of an array pattern. -/
def markersOfItems : List PatternItem → List Span
  | [] => []
  | item :: items => item.markers ++ markersOfItems items

/-- The markers in an item of an array pattern. -/
def PatternItem.markers : PatternItem → List Span
  | .hole => []
  | .item _ target => target.markers
  | .rest _ target => target.markers

end

mutual

/-- The expressions in a pattern: its computed keys, and its default values without the
markers. -/
def Pattern.expressions : Pattern → List Expr
  | .name _ _ => []
  | .object parts _ => expressionsOfParts parts
  | .array items _ => expressionsOfItems items
  | .withDefault target value _ =>
    target.expressions ++ (if value.isMarker then [] else [value])

/-- The expressions in the parts of an object pattern. -/
def expressionsOfParts : List PatternPart → List Expr
  | [] => []
  | part :: parts => part.expressions ++ expressionsOfParts parts

/-- The expressions in a part of an object pattern. -/
def PatternPart.expressions : PatternPart → List Expr
  | .prop (.computed key) target => key :: target.expressions
  | .prop _ target => target.expressions
  | .rest target => target.expressions

/-- The expressions in the items of an array pattern. -/
def expressionsOfItems : List PatternItem → List Expr
  | [] => []
  | item :: items => item.expressions ++ expressionsOfItems items

/-- The expressions in an item of an array pattern. The decorators of a parameter are none of
them. -/
def PatternItem.expressions : PatternItem → List Expr
  | .hole => []
  | .item _ target => target.expressions
  | .rest _ target => target.expressions

end

/-- The pattern of an item, if it has one. -/
def PatternItem.pattern? : PatternItem → Option Pattern
  | .hole => none
  | .item _ target => some target
  | .rest _ target => some target

end TaggedMarkup.Script
