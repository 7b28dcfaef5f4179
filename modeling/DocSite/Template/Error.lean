import DocSite.Files.Execution
/-! Why a snippet, and with it a render, fails. -/
namespace DocSite.Template

open Files (ExitStatus StartFailure)

inductive SnippetError where
  | start (reason : StartFailure)
  /-- A script ended with a failure status. -/
  | script (path : String) (status : ExitStatus) (stderr : String)
  | message (text : String)
  /-- A render inside the snippet failed because of the snippet `inner`. -/
  | render (inner : String) (cause : SnippetError)
  deriving Repr, DecidableEq, Inhabited

/-- Renders fail only because a snippet does. -/
structure RenderError where
  snippet : String
  cause : SnippetError
  deriving Repr, DecidableEq, Inhabited

def failedText (snippet cause : String) : String := s!"snippet '{snippet}' failed: {cause}"

def SnippetError.text : SnippetError → String
  | .start reason => "IO error: " ++ reason.message
  | .script path status stderr => s!"{path} exited with {status.message}: {stderr}"
  | .message text => text
  | .render inner cause => failedText inner cause.text

def RenderError.text (e : RenderError) : String := failedText e.snippet e.cause.text

/-- A failed start is the reason, perhaps through renders in between. -/
def SnippetError.fromStart : SnippetError → Bool
  | .start _ => true
  | .render _ cause => cause.fromStart
  | .script .. | .message _ => false

def RenderError.inSnippet (e : RenderError) : SnippetError := .render e.snippet e.cause

end DocSite.Template
