import DocSite.Template.Span
/-! Resolving what was read. Tags are handed to a dispatcher from left to right,
those inside a parameter value before the tag that carries the value. -/
namespace DocSite.Template

/-- Says what a tag stands for and whether it was resolved, given its source. -/
abbrev Dispatcher (m : Type → Type) := Tag → List Char → m (Rendered × Bool)

variable {m : Type → Type} [Monad m]

mutual

/-- The text a span stands for, and whether a tag in it was resolved or undeferred. -/
@[specialize]
def Span.resolve (dispatch : Dispatcher m) : Span → m (Rendered × Bool)
  | .literal source inner => do
    let dirty ← Span.visitAll dispatch inner false
    pure (Rendered.ofText (String.ofList source), dirty)
  | .tag deferred kind name arguments source => do
    let (params, dirty) ← Argument.resolveAll dispatch arguments {} false
    if deferred then
      let later : Tag := { kind, name, params }
      pure (Rendered.ofText (String.ofList later.chars), true)
    else
      let (out, resolved) ← dispatch { kind, name, params } source
      pure (out, dirty || resolved)

/-- Resolves spans whose text is not used. -/
@[specialize]
def Span.visitAll (dispatch : Dispatcher m) : List Span → Bool → m Bool
  | [], dirty => pure dirty
  | s :: rest, dirty => do
    let (_, d) ← Span.resolve dispatch s
    Span.visitAll dispatch rest (dirty || d)

@[specialize]
def Argument.resolveAll (dispatch : Dispatcher m) :
    List Argument → Params → Bool → m (Params × Bool)
  | [], params, dirty => pure (params, dirty)
  | .mk name value :: rest, params, dirty => do
    let (text, d) ← Piece.resolveAll dispatch value {} false
    Argument.resolveAll dispatch rest (params.insert name text.flatten) (dirty || d)

/-- Adds what the pieces stand for to `out`. -/
@[specialize]
def Piece.resolveAll (dispatch : Dispatcher m) : List Piece → Rendered → Bool → m (Rendered × Bool)
  | [], out, dirty => pure (out, dirty)
  | .text chars :: rest, out, dirty =>
    Piece.resolveAll dispatch rest (out.pushText (String.ofList chars)) dirty
  | .span s :: rest, out, dirty => do
    let (text, d) ← Span.resolve dispatch s
    Piece.resolveAll dispatch rest (out ++ text) (dirty || d)

end

/-- One pass over a text from left to right. -/
@[specialize]
def scanPass (dispatch : Dispatcher m) (source : String) (out : Rendered) : m (Rendered × Bool) :=
  Piece.resolveAll dispatch (Piece.readAll source.toList) out false

end DocSite.Template
