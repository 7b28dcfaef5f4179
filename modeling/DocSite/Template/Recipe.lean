import DocSite.Template.Action
import DocSite.Files.Path
/-! Recipes: small snippets described by data. A recipe says what a snippet does
with the engine and its parameters; what it yields is text or a failure. -/
namespace DocSite.Template

inductive Recipe where
  | text (text : String)
  /-- All parameters as `name=value`. -/
  | echo
  /-- The number of parameters. -/
  | size
  | param (name : String)
  | set (name value : String)
  /-- Sets the placeholder that the parameters `name` and `value` give. -/
  | setFromParams
  | unset (name : String)
  | get (name : String)
  | fail (message : String)
  | render (text : String)
  /-- Renders the text of a parameter without parameters. -/
  | renderParam (name : String)
  | chunk (name : String)
  | rawChunk (name : String)
  | snippet (name : String)
  /-- Renders a chunk once for each of the comma separated `items`. -/
  | each (chunk label : String)
  | sequence (steps : List Recipe)
  /-- Turns a failure into text. -/
  | catch (body : Recipe)
  /-- How often the counter of the snippet has been raised, this time included. -/
  | count
  | registerChunk (name text : String)
  | stats

instance : Inhabited Recipe := ⟨.stats⟩

namespace Recipe

def statsText (s : Stats) : String :=
  s!"{s.renders},{s.passes},{s.budgetExhausted},{s.depthLimited}"

abbrev Yield := Except SnippetError String

def fromRender : Except RenderError String → Yield
  | .ok shown => .ok shown
  | .error e => .error e.inSnippet

/-- Renders `chunk` for each item in turn and goes on with all texts joined. -/
def eachItem (chunk label : String) (next : Yield → Action) (done : String) :
    List String → Action
  | [] => next (.ok done)
  | item :: rest =>
    .renderChunk chunk (Bindings.ofList [(label, item)]) fun
      | .ok shown => eachItem chunk label next (done ++ shown) rest
      | .error e => next (.error e.inSnippet)

mutual

/-- The actions of a recipe, followed by `next` on what it yields. -/
def act (counter : String) (params : Params) : Recipe → (Yield → Action) → Action
  | .text shown, next => next (.ok shown)
  | .echo, next =>
    next (.ok (";".intercalate (params.entries.map fun p => p.1 ++ "=" ++ p.2)))
  | .size, next => next (.ok (toString params.size))
  | .param name, next => next (.ok (params.getD name ""))
  | .set name value, next => .set name value (next (.ok ""))
  | .setFromParams, next =>
    .set (params.getD "name" "") (params.getD "value" "") (next (.ok ""))
  | .unset name, next => .unset name fun was => next (.ok (if was then "true" else "false"))
  | .get name, next => .get name fun value => next (.ok (value.getD "(none)"))
  | .fail message, next => next (.error (.message message))
  | .render source, next => .render source params fun r => next (fromRender r)
  | .renderParam name, next => .render (params.getD name "") {} fun r => next (fromRender r)
  | .chunk name, next => .renderChunk name params fun r => next (fromRender r)
  | .rawChunk name, next => .chunk name fun found => next (.ok (found.getD "(none)"))
  | .snippet name, next => .runSnippet name params fun r => next (fromRender r)
  | .each part name, next =>
    eachItem part name next "" (Files.Path.splitOn ',' (params.getD "items" ""))
  | .sequence steps, next => actAll counter params steps "" next
  | .catch body, next =>
    act counter params body fun
      | .ok shown => next (.ok shown)
      | .error e => next (.ok s!"caught({e.text})")
  | .count, next => .count counter fun n => next (.ok (toString n))
  | .registerChunk name body, next => .registerChunk name body (next (.ok ""))
  | .stats, next => .stats fun s => next (.ok (statsText s))

/-- The steps in order, up to the first failure, with their texts joined. -/
def actAll (counter : String) (params : Params) :
    List Recipe → String → (Yield → Action) → Action
  | [], done, next => next (.ok done)
  | step :: rest, done, next =>
    act counter params step fun
      | .ok shown => actAll counter params rest (done ++ shown) next
      | .error e => next (.error e)

end

/-- The snippet called `name` that announces each call and then follows the recipe. -/
def toSnippet (name counter : String) (recipe : Recipe) : Snippet :=
  .program fun params => .announce name params (recipe.act counter params fun
    | .ok shown => .done shown
    | .error e => .fail e)

end Recipe
end DocSite.Template
