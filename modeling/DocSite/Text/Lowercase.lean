import DocSite.Text.CaseData
/-! Lowercase text and folded text by the Unicode rules. A capital sigma that
ends a word has a lowercase form of its own. -/
namespace DocSite.Text

def inRanges (ranges : List (Nat × Nat)) (c : Char) : Bool :=
  ranges.any fun r => r.1 ≤ c.toNat && c.toNat ≤ r.2

def isCased (c : Char) : Bool := inRanges CaseData.cased c

def isCaseIgnorable (c : Char) : Bool := inRanges CaseData.caseIgnorable c

/-- The lowercase form of a character by itself. -/
def lowerChar (c : Char) : List Char :=
  if c.toNat < 0x80 then [c.toLower]
  else if c.toNat = 0x130 then ['i', Char.ofNat 0x307]
  else
    match CaseData.lowercase.find? fun r =>
      r.first ≤ c.toNat && c.toNat ≤ r.last && (c.toNat - r.first) % r.step == 0 with
    | some r => [Char.ofNat ((c.toNat : Int) + r.offset).toNat]
    | none => [c]

/-- Whether the first character that is not ignored is cased. -/
def leadsToCased (cs : List Char) : Bool := (cs.dropWhile isCaseIgnorable).head?.any isCased

def capitalSigma : Char := Char.ofNat 0x3A3
def smallSigma : Char := Char.ofNat 0x3C3
def finalSigma : Char := Char.ofNat 0x3C2

/-- Lowercase `cs`, where `before` is the text in front of it, nearest character first. -/
def lowerFrom (before : List Char) : List Char → List Char
  | [] => []
  | c :: rest =>
    if c = capitalSigma then
      (if leadsToCased before && !leadsToCased rest then finalSigma else smallSigma) ::
        lowerFrom (c :: before) rest
    else lowerChar c ++ lowerFrom (c :: before) rest

def lower (cs : List Char) : List Char := lowerFrom [] cs

def lowered (s : String) : String := String.ofList (lower s.toList)

/-- The form of a character that ignores case. -/
def foldChar (c : Char) : List Char :=
  if c.toNat < 0x80 then [c.toLower]
  else
    match CaseData.foldings.find? (·.1 == c.toNat) with
    | some (_, folded) => folded.map Char.ofNat
    | none => lowerChar c

/-- Text in the form that ignores case. -/
def fold (cs : List Char) : List Char := cs.flatMap foldChar

end DocSite.Text
