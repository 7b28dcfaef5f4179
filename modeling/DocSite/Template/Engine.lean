import DocSite.Template.Action
import DocSite.Template.Cache
import DocSite.Template.Resolve
import DocSite.Template.Script
/-! The engine. A render reads its text again and again until a pass resolves
nothing; chunks and snippets render in turn, within a limit on their depth and
on their number. -/
namespace DocSite.Template

/-- Passes over the text of one render. -/
def maxPasses : Nat := 10

/-- Renders that may be open at once. -/
def maxDepth : Nat := 32

/-- Renders nested in one outermost render. -/
def maxNestedRenders : Nat := 4096

/-- How many calls back into the engine may be open at once. -/
def callLimit : Nat := 1024

/-- What an engine has to itself. -/
structure Engine where
  placeholders : Placeholders := {}
  /-- Renders that are open. -/
  depth : Nat := 0
  /-- Nested renders since the outermost render began. -/
  nested : Nat := 0
  /-- Whether the outermost render has left a tag alone because of a limit. -/
  limited : Bool := false
  stats : Stats := {}
  deriving Repr, DecidableEq, Inhabited

namespace Engine

def fork (e : Engine) : Engine := { placeholders := e.placeholders }

def enter (params : Params) (e : Engine) : Engine :=
  { e with
    placeholders := e.placeholders.extend params.entries
    depth := e.depth + 1
    nested := if e.depth = 0 then 0 else e.nested + 1
    limited := if e.depth = 0 then false else e.limited
    stats := { e.stats with renders := e.stats.renders + 1 } }

def leave (before e : Engine) : Engine :=
  { e with placeholders := before.placeholders, depth := e.depth - 1 }

/-- Whether a chunk or snippet may still be taken up. -/
def mayDescend (e : Engine) : Bool := e.depth < maxDepth && e.nested < maxNestedRenders

/-- The engine after a limit has left a tag alone. Only the first one counts. -/
def noteLimit (e : Engine) : Engine :=
  if e.limited then e
  else { e with
    limited := true, stats := { e.stats with depthLimited := e.stats.depthLimited + 1 } }

end Engine

/-- What forked engines share: resources, files, and a journal. -/
structure World where
  chunks : Cache String := {}
  snippets : Cache Snippet := {}
  chunkExtension : String := "html"
  snippetExtension : String := "sh"
  files : Files := {}
  counters : List (String × Nat) := []
  /-- The newest event comes first. -/
  journal : List Event := []
  /-- The newest notice comes first. -/
  notices : List Notice := []
  /-- The newest query comes first. -/
  queries : List Query := []
  deriving Inhabited

namespace World

def record (w : World) (event : Event) : World := { w with journal := event :: w.journal }

def note (w : World) (notice : Notice) : World := { w with notices := notice :: w.notices }

def resourcePath (dir name extension : String) : String :=
  Files.Path.join dir (name ++ "." ++ extension)

def probeChunk (w : World) (dir name : String) : Probe String :=
  match w.files.readText (resourcePath dir name w.chunkExtension) with
  | .ok text => .hit text
  | .error .missing => .missing
  | .error .unreadable => .unreadable

def probeSnippet (w : World) (dir name : String) : Probe Snippet :=
  let path := resourcePath dir name w.snippetExtension
  if w.files.isFile path then .hit (.script path) else .missing

/-- The text of a chunk. -/
def chunk (w : World) (name : String) : Option String × World :=
  let found := w.chunks.get w.probeChunk name
  (found.answer,
    { w with
      chunks := found.cache
      journal := (found.asked.map (Event.probed .chunk · name)).reverse ++ w.journal
      queries := .chunk name :: w.queries })

def snippet (w : World) (name : String) : Option Snippet × World :=
  let found := w.snippets.get w.probeSnippet name
  (found.answer,
    { w with
      snippets := found.cache
      journal := (found.asked.map (Event.probed .snippet · name)).reverse ++ w.journal
      queries := .snippet name :: w.queries })

def registerChunk (w : World) (name text : String) : World :=
  { w with chunks := w.chunks.register name text }

def registerSnippet (w : World) (name : String) (s : Snippet) : World :=
  { w with snippets := w.snippets.register name s }

def raise (counter : String) : List (String × Nat) → Nat × List (String × Nat)
  | [] => (1, [(counter, 1)])
  | (c, n) :: rest =>
    if c = counter then (n + 1, (c, n + 1) :: rest)
    else
      let (value, more) := raise counter rest
      (value, (c, n) :: more)

/-- Raises a counter and gives its new value. -/
def count (w : World) (counter : String) : Nat × World :=
  let (value, counters) := raise counter w.counters
  (value, { w with counters, queries := .counter counter :: w.queries })

end World

structure Session where
  engine : Engine := {}
  world : World := {}
  deriving Inhabited

/-- Why a run gives no answer. -/
inductive Stop where
  | failed (error : RenderError)
  /-- More calls were open than `callLimit` allows. -/
  | unfinished
  deriving Repr, DecidableEq, Inhabited

/-- Work in a session. What it did up to a failure stays done. -/
abbrev Run (α : Type) := ExceptT Stop (StateM Session) α

namespace Run

def stop (reason : Stop) : Run α := fun s => (.error reason, s)

def onEngine (f : Engine → Engine) : Run Unit := fun s => (.ok (), { s with engine := f s.engine })

def onWorld (f : World → α × World) : Run α := fun s =>
  let (a, world) := f s.world
  (.ok a, { s with world })

def engine : Run Engine := fun s => (.ok s.engine, s)

def record (event : Event) : Run Unit := onWorld fun w => ((), w.record event)

def note (notice : Notice) : Run Unit := onWorld fun w => ((), w.note notice)

/-- A failure becomes an answer. -/
def attempt (work : Run α) : Run (Except RenderError α) := fun s =>
  match work s with
  | (.ok a, s) => (.ok (.ok a), s)
  | (.error (.failed e), s) => (.ok (.error e), s)
  | (.error .unfinished, s) => (.error .unfinished, s)

/-- Does `work` as one render: its parameters hold inside only, and the
placeholders are as before when it ends, also by a failure. -/
def within (params : Params) (work : Run α) : Run α := fun s =>
  let inner := s.engine.enter params
  let (answer, after) := work ⟨inner, s.world.note (.began inner.depth)⟩
  (answer, { after with engine := s.engine.leave after.engine })

end Run

/-- The ways back into the engine from inside a render. -/
structure Calls where
  render : String → Params → Run Rendered
  runSnippet : String → Params → Run String

def Calls.renderString (calls : Calls) (text : String) (params : Params) : Run String := do
  return (← calls.render text params).flatten

/-- Renders a chunk by its name. An unknown chunk is empty text. -/
def Calls.renderChunk (calls : Calls) (name : String) (params : Params) : Run String := do
  match ← Run.onWorld (·.chunk name) with
  | none => pure ""
  | some text => return (← calls.render text params).flatten

def Action.run (calls : Calls) : Action → Run (Except SnippetError String)
  | .done text => pure (.ok text)
  | .fail e => pure (.error e)
  | .set name value next => do
    Run.onEngine fun e => { e with placeholders := e.placeholders.insert name value }
    next.run calls
  | .unset name next => do
    let e ← Run.engine
    Run.onEngine fun e => { e with placeholders := e.placeholders.erase name }
    (next (e.placeholders.contains name)).run calls
  | .get name next => do
    let e ← Run.engine
    (next (e.placeholders.get? name)).run calls
  | .chunk name next => do
    let text ← Run.onWorld (·.chunk name)
    (next text).run calls
  | .registerChunk name text next => do
    Run.onWorld fun w => ((), w.registerChunk name text)
    next.run calls
  | .registerSnippet name start next => do
    Run.onWorld fun w => ((), w.registerSnippet name (.program start))
    next.run calls
  | .render text params next => do
    let answer ← Run.attempt (calls.render text params)
    (next (answer.map Rendered.flatten)).run calls
  | .renderChunk name params next => do
    let answer ← Run.attempt (calls.renderChunk name params)
    (next answer).run calls
  | .runSnippet name params next => do
    let answer ← Run.attempt (calls.runSnippet name params)
    (next answer).run calls
  | .stats next => do
    let e ← Run.engine
    (next e.stats).run calls
  | .count counter next => do
    let value ← Run.onWorld (·.count counter)
    (next value).run calls
  | .announce name params next => do
    Run.record (.called name params.entries)
    next.run calls

namespace Engine

/-- Executes a snippet called `name`. Its failure carries the name. -/
def execute (calls : Calls) (name : String) (params : Params) : Snippet → Run String
  | .program start => do
    match ← (start params).run calls with
    | .ok text => pure text
    | .error cause => Run.stop (.failed ⟨name, cause⟩)
  | .script path => fun s =>
    match Script.run s.world.files path params with
    | .ok text => (.ok text, s)
    | .error cause => (.error (.failed ⟨name, cause⟩), s)

/-- Runs a snippet by its name. An unknown snippet is empty text. -/
def runSnippet (calls : Calls) (name : String) (params : Params) : Run String := do
  match ← Run.onWorld (·.snippet name) with
  | none => pure ""
  | some s => execute calls name params s

/-- Resolves one tag. Placeholder values and tags left alone are never read again. -/
def dispatch (calls : Calls) : Dispatcher Run := fun tag source => do
  let e ← Run.engine
  if tag.kind.isPlaceholder then
    pure (Rendered.empty.pushVerbatim (e.placeholders.getD tag.name ""), true)
  else if e.mayDescend then
    Run.record (.dispatched tag.kind tag.name)
    match tag.kind with
    | .chunk =>
      match ← Run.onWorld (·.chunk tag.name) with
      | none => pure ({}, true)
      | some text => return (← calls.render text tag.params, true)
    | _ =>
      match ← Run.onWorld (·.snippet tag.name) with
      | none => pure ({}, true)
      | some s => return (Rendered.ofText (← execute calls tag.name tag.params s), true)
  else
    Run.record (.refused tag.kind tag.name e.nested)
    Run.onEngine noteLimit
    pure (Rendered.empty.pushVerbatim (String.ofList source), false)

/-- One pass over all segments. Verbatim segments are carried through. -/
def passOver (calls : Calls) : List Segment → Rendered → Bool → Run (Rendered × Bool)
  | [], out, dirty => pure (out, dirty)
  | ⟨.verbatim, content⟩ :: rest, out, dirty =>
    passOver calls rest (out.pushVerbatim content) dirty
  | ⟨.text, content⟩ :: rest, out, dirty => do
    let (out, d) ← scanPass (dispatch calls) content out
    passOver calls rest out (dirty || d)

/-- Passes until one resolves nothing, or none is left. -/
def expand (calls : Calls) : (passes : Nat) → Rendered → Run Rendered
  | 0, current => do
    Run.onEngine fun e =>
      { e with stats := { e.stats with budgetExhausted := e.stats.budgetExhausted + 1 } }
    Run.note .exhausted
    pure current
  | passes + 1, current => do
    Run.onEngine fun e => { e with stats := { e.stats with passes := e.stats.passes + 1 } }
    let (next, dirty) ← passOver calls current.segments {} false
    if dirty then expand calls passes next
    else do
      Run.note (.settled (maxPasses - passes))
      pure next

/-- Renders a text with parameters laid over the placeholders. -/
def render (calls : Calls) (text : String) (params : Params) : Run Rendered :=
  Run.within params (expand calls maxPasses (Rendered.ofText text))

/-- The ways back into the engine when `limit` more calls may be open. -/
def callsWithin : (limit : Nat) → Calls
  | 0 => ⟨fun _ _ => Run.stop .unfinished, fun _ _ => Run.stop .unfinished⟩
  | limit + 1 =>
    ⟨fun text params => render (callsWithin limit) text params,
      fun name params => runSnippet (callsWithin limit) name params⟩

def renderString (text : String) (params : Params) : Run String :=
  (callsWithin callLimit).renderString text params

def renderNamedChunk (name : String) (params : Params) : Run String :=
  (callsWithin callLimit).renderChunk name params

def runNamedSnippet (name : String) (params : Params) : Run String :=
  (callsWithin callLimit).runSnippet name params

end Engine
end DocSite.Template
