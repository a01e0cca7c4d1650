import TaggedMarkup.Compile.State

/-!
# Template sites

A site is a template whose tag is the tag of the file. When its holes have been visited, the edits
inside them become part of the texts of the expressions, and the site gets its code.
-/

namespace TaggedMarkup.Compile

open Code (RenderCode)
open Script (Chunk Expr Scopes Span)
open Source (Edit)
open Template (Binder Expression)

/-- Whether an expression is the tag of a file. -/
def isTag (file : File) : Expr → Bool
  | .name id => id.text == file.tag
  | _ => false

/-- The start of the site that an expression is, with or without parentheses. -/
def siteStart? (file : File) : Expr → Option Nat
  | .tagged tag _ _ span => if isTag file tag then some span.start else none
  | .paren inner _ => siteStart? file inner
  | _ => none

/-- The observable names of an expression. -/
def observables (file : File) (scopes : Scopes) (e : Expr) : List String :=
  e.freeNames.filter fun name => name != file.tag && scopes.isObservable name

/-- The expression of a hole, with the edits inside it applied. -/
def holeExpression (file : File) (inner : List Edit) (e : Expr) : Expression :=
  let span := e.span
  { source := (Source.applyRange? file.source span.start span.stop inner).getD ""
    offset := span.start
    isIdentifier := e.isName }

/-- Adds the observable names to a property, unless it is a literal. -/
def resolveProperty (file : File) (scopes : Scopes) (holes : List Expr) (property : Binder) :
    Binder :=
  if property.expression.isLiteral then property
  else
    match holes[property.slot]? with
    | some e => { property with observables := observables file scopes e }
    | none => property

/-- Adds the observable names to a binder and its properties, and the fragment of a site that is
its whole expression. -/
def resolveBinder (file : File) (s : State) (holes : List Expr) (b : Binder) : Binder :=
  match holes[b.slot]? with
  | none => b
  | some e =>
    { b with
      observables := observables file s.scopes e
      child := (siteStart? file e).bind fun start => s.sites.lookup start
      properties := b.properties.map (resolveProperty file s.scopes holes) }

/-- Enters a site. A site entered before is replaced. -/
def enterSite (start fragment : Nat) (sites : List (Nat × Nat)) : List (Nat × Nat) :=
  (start, fragment) :: sites.filter fun (other, _) => other != start

/-- The log entries of a compiled site. -/
def siteEntries (file : File) (position : String) (fragment : Nat) (binders : List Binder) :
    List Entry :=
  ⟨.debug, s!"{file.name}:{position}: template -> fragment {fragment} with {binders.length} binders"⟩
    :: binders.filterMap fun b => b.child.map fun child =>
      ⟨.debug,
        s!"{file.name}:{position}: fragment {fragment} slot {b.slot} renders fragment {child}"⟩

/-- Compiles a site whose holes have been visited, where `mark` edits were recorded before
them. -/
def compileSite (file : File) (mark : Nat) (chunks : List Chunk) (holes : List Expr)
    (span : Span) : Walk RenderCode := do
  let (kept, inner) := Source.splitOff mark (← get).edits
  modify fun s => { s with edits := kept }
  let parsed := Template.parse (chunks.map Chunk.raw) (holes.map (holeExpression file inner))
  match parsed with
  | .error failure => throw (failure.locate span.start)
  | .ok template =>
    let s ← get
    let binders := template.binders.map (resolveBinder file s holes)
    let (fragment, tables) := s.tables.addFragment template.html
    let (tables, result) := Code.generate tables fragment binders
    set { s with tables := tables }
    let position := Text.reportOffset file.source span.start
    match result with
    | .error fault => throw ⟨.binder (.located fault position), none⟩
    | .ok (binders, code) =>
      modify fun s =>
        { s with
          sites := enterSite span.start fragment s.sites
          log := s.log ++ siteEntries file position fragment binders }
      return code

end TaggedMarkup.Compile
