import DocSite.Template.Action
/-! What a build has produced, and the lines that tell it. -/
namespace DocSite.Site

open Template (Stats)

structure Report where
  /-- Output paths of pages, from the root of all output. -/
  written : List String := []
  searchIndexes : List String := []
  /-- Pages that failed, with the reason. -/
  skipped : List (String × String) := []
  assetsCopied : Nat := 0
  stats : Stats := {}
  deriving Repr, DecidableEq, Inhabited

namespace Report

def plural (n : Nat) (one many : String) : String :=
  if n = 1 then s!"{n} {one}" else s!"{n} {many}"

/-- One line on the work of the engines. Limits are told only when they were hit. -/
def statsLine (s : Stats) : String :=
  "Engine: " ++ plural s.renders "render" "renders" ++ ", " ++ plural s.passes "pass" "passes" ++
    (if s.budgetExhausted > 0 then
      ", " ++ plural s.budgetExhausted "render" "renders" ++ " hit the pass limit"
    else "") ++
    (if s.depthLimited > 0 then
      ", " ++ plural s.depthLimited "page" "pages" ++ " hit the depth limit"
    else "")

def summary (r : Report) : String :=
  "Generated " ++ plural r.written.length "page" "pages" ++ ", " ++
    plural r.assetsCopied "asset" "assets" ++
    (if r.searchIndexes.isEmpty then ""
    else ", " ++ plural r.searchIndexes.length "search index" "search indexes") ++
    (if r.skipped.isEmpty then "" else s!" ({r.skipped.length} skipped)")

def lines (r : Report) : List String :=
  r.written ++ r.searchIndexes ++
    r.skipped.map (fun (path, error) => s!"Skipped {path}: {error}") ++
    ["", r.summary, statsLine r.stats]

end Report
end DocSite.Site
