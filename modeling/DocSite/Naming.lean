import DocSite.Files.Path
import DocSite.Text.Lowercase
/-! Names of pages and directories. A number and an underscore in front of a name
order it among its siblings and are dropped from titles and output paths. -/
namespace DocSite.Naming

/-- Order numbers are less than this. -/
def numberBound : Nat := 0x100000000

structure EntryName where
  number : Option Nat
  /-- What follows the order prefix. -/
  name : String
  deriving Repr, DecidableEq, Inhabited

def isAsciiDigit (c : Char) : Bool := '0' ≤ c && c ≤ '9'

def numberOf (digits : List Char) : Nat :=
  digits.foldl (fun n c => n * 10 + (c.toNat - '0'.toNat)) 0

/-- The number before the first underscore and the text after it. -/
def splitPrefix? (name : List Char) : Option (Nat × List Char) :=
  let digits := name.takeWhile (· ≠ '_')
  match name.drop digits.length with
  | [] => none
  | _ :: rest =>
    if digits.isEmpty || !digits.all isAsciiDigit || numberBound ≤ numberOf digits then none
    else some (numberOf digits, rest)

/-- Only a prefix of digits and an underscore is an order prefix. -/
def parse (name : String) : EntryName :=
  match splitPrefix? name.toList with
  | some (number, rest) => ⟨some number, String.ofList rest⟩
  | none => ⟨none, name⟩

namespace EntryName

/-- The name as a title, with blanks for underscores. -/
def displayTitle (e : EntryName) : String :=
  String.ofList (e.name.toList.map fun c => if c = '_' then ' ' else c)

/-- Orders entries by number, then by name without case. A name without a number
counts as the greatest number. -/
def sortKey (e : EntryName) : Nat × String :=
  (e.number.getD (numberBound - 1), Text.lowered e.name)

end EntryName

def compareKeys (a b : Nat × String) : Ordering := (compare a.1 b.1).then (compare a.2 b.2)

def stripSegment (segment : List Char) : List Char :=
  match splitPrefix? segment with
  | some (_, rest) => rest
  | none => segment

/-- A path whose segments have no order prefixes. -/
def stripOrderPrefixes (path : List Char) : List Char :=
  ['/'].intercalate ((Files.Path.splitOnChar '/' path).map stripSegment)

def markdownSuffix : List Char := ['.', 'm', 'd']
def htmlSuffix : List Char := ['.', 'h', 't', 'm', 'l']

/-- The text before a suffix. -/
def beforeSuffix? (suffix cs : List Char) : Option (List Char) :=
  if suffix.reverse.isPrefixOf cs.reverse then some (cs.take (cs.length - suffix.length))
  else none

/-- A path ending in `.md` ends in `.html` instead. -/
def htmlForMarkdown (path : List Char) : List Char :=
  match beforeSuffix? markdownSuffix path with
  | some stem => stem ++ htmlSuffix
  | none => path

def pageOutputPath (source : String) : String :=
  String.ofList (Text.lower (htmlForMarkdown (stripOrderPrefixes source.toList)))

def assetOutputPath (source : String) : String :=
  String.ofList (Text.lower (stripOrderPrefixes source.toList))

/-- The way from the directory of an output path up to the root. -/
def pathToRoot (outputPath : String) : String :=
  String.join (List.replicate (outputPath.toList.count '/') "../")

end DocSite.Naming
