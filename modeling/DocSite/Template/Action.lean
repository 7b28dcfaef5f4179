import DocSite.Template.Bindings
import DocSite.Template.Error
import DocSite.Template.Tag
/-! Snippets as data. A snippet acts on the engine by naming one operation after
another, each followed by what to do with its answer. -/
namespace DocSite.Template

/-- Counters that an engine adds up over all its renders. -/
structure Stats where
  /-- Renders, nested ones included. -/
  renders : Nat := 0
  /-- Passes over the text of all renders. -/
  passes : Nat := 0
  /-- Renders whose last allowed pass still resolved a tag. -/
  budgetExhausted : Nat := 0
  /-- Outermost renders in which a limit left a tag alone. -/
  depthLimited : Nat := 0
  deriving Repr, DecidableEq, Inhabited

namespace Stats

def add (a b : Stats) : Stats :=
  ⟨a.renders + b.renders, a.passes + b.passes, a.budgetExhausted + b.budgetExhausted,
    a.depthLimited + b.depthLimited⟩

instance : Add Stats := ⟨add⟩

end Stats

inductive ResourceKind where
  | chunk
  | snippet
  deriving Repr, DecidableEq, Inhabited

/-- What the journal of a world records. -/
inductive Event where
  /-- A directory was asked for a resource. -/
  | probed (kind : ResourceKind) (dir name : String)
  /-- A snippet announced its call. -/
  | called (name : String) (params : List (String × String))
  /-- A chunk or snippet tag was taken up. -/
  | dispatched (kind : TagKind) (name : String)
  /-- A limit left a chunk or snippet tag alone, after so many nested renders. -/
  | refused (kind : TagKind) (name : String) (nested : Nat)
  deriving Repr, DecidableEq, Inhabited

/-- What work asks of its world. -/
inductive Query where
  | chunk (name : String)
  | snippet (name : String)
  | counter (name : String)
  deriving Repr, DecidableEq, Inhabited

/-- What an engine notes about its renders. -/
inductive Notice where
  /-- A render began, the `depth`-th of those that are open. -/
  | began (depth : Nat)
  /-- A render ended because its pass number `pass` resolved nothing. -/
  | settled (pass : Nat)
  /-- A render ended because it had no pass left. -/
  | exhausted
  deriving Repr, DecidableEq, Inhabited

/-- What a snippet does with the engine before it gives its text. -/
inductive Action where
  | done (text : String)
  | fail (error : SnippetError)
  | set (name value : String) (next : Action)
  | unset (name : String) (next : Bool → Action)
  | get (name : String) (next : Option String → Action)
  | chunk (name : String) (next : Option String → Action)
  | registerChunk (name text : String) (next : Action)
  | registerSnippet (name : String) (start : Params → Action) (next : Action)
  | render (text : String) (params : Params) (next : Except RenderError String → Action)
  | renderChunk (name : String) (params : Params) (next : Except RenderError String → Action)
  | runSnippet (name : String) (params : Params) (next : Except RenderError String → Action)
  | stats (next : Stats → Action)
  /-- Raises a counter of the world and goes on with its new value. -/
  | count (counter : String) (next : Nat → Action)
  | announce (name : String) (params : Params) (next : Action)

instance : Inhabited Action := ⟨.done ""⟩

/-- A snippet is a program or a script file. -/
inductive Snippet where
  | program (start : Params → Action)
  | script (path : String)

instance : Inhabited Snippet := ⟨.script ""⟩

end DocSite.Template
