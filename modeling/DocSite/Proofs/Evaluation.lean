import DocSite.Proofs.Markup
import DocSite.Template.Engine

/-! The value of markup, found in one walk over the tree without passes, segments or a cache. -/
namespace DocSite.Template

mutual

/-- What a tag stands for. `inclusion` says it of a chunk tag, from its name, its source and
its parameters. -/
def Mark.eval (inclusion : String → List Char → Params → List Char) (env : Placeholders) :
    Mark → List Char
  | .mk head tail =>
    let name := String.ofList head.name
    if head.kind.isPlaceholder then (env.getD name "").toList
    else inclusion name ('[' :: '[' :: (head.chars ++ tail.source)) (tail.params inclusion env {})

/-- The parameters of a tag after those that are read already. -/
def Tail.params (inclusion : String → List Char → Params → List Char) (env : Placeholders) :
    Tail → Params → Params
  | .close, read | .ignored _, read => read
  | .blank _ rest, read | .nonBreaking rest, read => rest.params inclusion env read
  | .param _ name value rest, read =>
    rest.params inclusion env
      (read.insert (String.ofList name) (String.ofList (value.eval inclusion env decode)))

def Markup.eval (inclusion : String → List Char → Params → List Char) (env : Placeholders)
    (literal : List Char → List Char) : Markup → List Char
  | .text chars => literal chars
  | .tag chars mark rest =>
    literal chars ++ mark.eval inclusion env ++ rest.eval inclusion env literal

end

/-- The value of a text rendered at `depth`, where `book` holds the chunks. A chunk is one
level deeper, and at the greatest depth a chunk tag stands for its own source. -/
def evalAt (book : String → Option Markup) (depth : Nat) (env : Placeholders) (text : Markup) :
    List Char :=
  text.eval (fun name source params =>
    if depth < maxDepth then
      match book name with
      | none => []
      | some chunk => evalAt book (depth + 1) (env.extend params.entries) chunk
    else source) env id
termination_by maxDepth - depth

/-- The names of the chunks that a text may lead to, by its own tags or those of the chunks. -/
inductive Reaches (book : String → Option Markup) (text : Markup) : String → Prop where
  | written {head : Head} : head ∈ text.heads → head.kind = .chunk →
    Reaches book text (String.ofList head.name)
  | through {name : String} {chunk : Markup} {head : Head} : Reaches book text name →
    book name = some chunk → head ∈ chunk.heads → head.kind = .chunk →
    Reaches book text (String.ofList head.name)

end DocSite.Template
