import DocSite.Template.Conditional
import DocSite.Template.Engine
/-! Engines forked from one another. Each has its own placeholders and counters;
all share one world. -/
namespace DocSite.Template

structure Family where
  engines : List Engine := [{}]
  world : World := {}
  deriving Inhabited

namespace Family

/-- What can be asked of one engine. -/
inductive Operation where
  | set (name value : String)
  | setMany (values : List (String × String))
  | unset (name : String)
  | get (name : String)
  | getD (name default : String)
  | registerChunk (name text : String)
  | registerSnippet (name : String) (s : Snippet)
  | registerBuiltins
  | addChunkPath (path : String)
  | addSnippetPath (path : String)
  | chunkPaths
  | snippetPaths
  | chunk (name : String)
  | hasChunk (name : String)
  | render (text : String) (params : Params)
  | renderChunk (name : String) (params : Params)
  | runSnippet (name : String) (params : Params)
  | stats
  | fork

inductive Answer where
  | nothing
  | truth (b : Bool)
  | text (s : String)
  | found (s : Option String)
  | paths (ps : List String)
  | rendered (result : Except Stop String)
  | counted
  | forked (index : Nat)

/-- The world with the snippets that every site has. -/
def withBuiltins (w : World) : World := w.registerSnippet "if" Conditional.snippet

/-- The answer of an engine and its session afterwards. Forking is not a matter
of one engine. -/
def answer : Operation → Session → Answer × Session
  | .set name value, s =>
    (.nothing, { s with
      engine := { s.engine with placeholders := s.engine.placeholders.insert name value } })
  | .setMany values, s =>
    (.nothing, { s with
      engine := { s.engine with placeholders := s.engine.placeholders.extend values } })
  | .unset name, s =>
    (.truth (s.engine.placeholders.contains name), { s with
      engine := { s.engine with placeholders := s.engine.placeholders.erase name } })
  | .get name, s => (.found (s.engine.placeholders.get? name), s)
  | .getD name default, s => (.text (s.engine.placeholders.getD name default), s)
  | .registerChunk name text, s => (.nothing, { s with world := s.world.registerChunk name text })
  | .registerSnippet name snippet, s =>
    (.nothing, { s with world := s.world.registerSnippet name snippet })
  | .registerBuiltins, s => (.nothing, { s with world := withBuiltins s.world })
  | .addChunkPath path, s =>
    (.nothing, { s with
      world := { s.world with chunks := s.world.chunks.addSearchPath path } })
  | .addSnippetPath path, s =>
    (.nothing, { s with
      world := { s.world with snippets := s.world.snippets.addSearchPath path } })
  | .chunkPaths, s => (.paths s.world.chunks.searchPaths, s)
  | .snippetPaths, s => (.paths s.world.snippets.searchPaths, s)
  | .chunk name, s =>
    let (text, world) := s.world.chunk name
    (.found text, { s with world })
  | .hasChunk name, s =>
    let (text, world) := s.world.chunk name
    (.truth text.isSome, { s with world })
  | .render text params, s =>
    let (result, s) := Engine.renderString text params s
    (.rendered result, s)
  | .renderChunk name params, s =>
    let (result, s) := Engine.renderNamedChunk name params s
    (.rendered result, s)
  | .runSnippet name params, s =>
    let (result, s) := Engine.runNamedSnippet name params s
    (.rendered result, s)
  | .stats, s => (.counted, s)
  | .fork, s => (.nothing, s)

/-- Asks the engine at `index`. A fork is added at the end of the family. -/
def ask (index : Nat) (operation : Operation) (f : Family) : Answer × Family :=
  match f.engines[index]? with
  | none => (.nothing, f)
  | some engine =>
    match operation with
    | .fork => (.forked f.engines.length, { f with engines := f.engines ++ [engine.fork] })
    | _ =>
      let (a, s) := answer operation ⟨engine, f.world⟩
      (a, ⟨f.engines.set index s.engine, s.world⟩)

end Family
end DocSite.Template
