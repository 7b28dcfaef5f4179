import DocSite.Markdown.Block
import DocSite.Markdown.Inline
/-! Reading the text of a block from left to right. Code, HTML and addresses bind
as soon as they are complete, brackets when they close, and emphasis last. -/
namespace DocSite.Markdown

/-- What has been read of a text: nodes, latest first, and the last character. -/
structure Content where
  nodes : List Node
  before : Option Char

namespace Content

def addText (c : Content) (text : List Char) : Content :=
  if text.isEmpty then c else { c with nodes := .plain text :: c.nodes }

def addInline (c : Content) (inline : Inline) : Content :=
  { c with nodes := .done inline :: c.nodes }

/-- The text up to a run of exactly `length` backticks, and what follows that run. -/
def codeEnd? (length : Nat) (s : List Char) : Option (List Char × List Char) :=
  match s with
  | [] => none
  | c :: rest =>
    if c = '\x60' then
      let more := rest.takeWhile (· == '\x60')
      let after := rest.drop more.length
      if more.length + 1 = length then some ([], after)
      else (codeEnd? length after).map fun (text, end_) => (c :: more ++ text, end_)
    else (codeEnd? length rest).map fun (text, end_) => (c :: text, end_)
termination_by s.length
decreasing_by all_goals simp only [List.length_drop, List.length_cons]; omega

/-- The text of a code span: its lines joined by spaces, without one space at either end. -/
def codeText (s : List Char) : List Char :=
  let text := s.map fun c => if c = '\n' ∨ c = '\r' then ' ' else c
  if text.head? = some ' ' ∧ text.getLast? = some ' ' ∧ text.any (· ≠ ' ') then
    (text.drop 1).dropLast
  else text

def readBackticks (c : Content) (escaped : Bool) (rest : List Char) : Content × List Char :=
  let marks := '\x60' :: rest.takeWhile (· == '\x60')
  let after := rest.drop (marks.length - 1)
  let length := if escaped then marks.length - 1 else marks.length
  let c := { c with before := some '\x60' }
  match if length = 0 then none else codeEnd? length after with
  | some (text, following) =>
    ((c.addText (marks.drop length)).addInline (.code (codeText text)), following)
  | none => (c.addText marks, after)

def readAddress? (s : List Char) : Option (List Char × List Char) :=
  let scheme := s.takeWhile fun c =>
    Entity.isAlphanumeric c || c == '+' || c == '-' || c == '.'
  if s.head?.any RawHtml.isLetter ∧ 2 ≤ scheme.length ∧ scheme.length ≤ 32 ∧
      s[scheme.length]? = some ':' then
    let address := s.takeWhile fun c => ' ' < c && c != '<' && c != '>' && c != '\x7f'
    if s[address.length]? = some '>' then some (address, s.drop (address.length + 1)) else none
  else none

def isMailboxChar (c : Char) : Bool :=
  Entity.isAlphanumeric c || ".!#$%&'*+/=?^_\x60\x7b|\x7d~-".toList.contains c

def isHostLabel (label : List Char) : Bool :=
  1 ≤ label.length && label.length ≤ 63 && label.head? != some '-' &&
    label.getLast? != some '-' && label.all RawHtml.isNameChar

def splitAtDots (label : List Char) : List Char → List (List Char)
  | [] => [label.reverse]
  | '.' :: rest => label.reverse :: splitAtDots [] rest
  | c :: rest => splitAtDots (c :: label) rest

def readMail? (s : List Char) : Option (List Char × List Char) :=
  let mailbox := s.takeWhile isMailboxChar
  match s.drop mailbox.length with
  | '@' :: rest =>
    let host := rest.takeWhile fun c => RawHtml.isNameChar c || c == '.'
    if !mailbox.isEmpty && (splitAtDots [] host).all isHostLabel &&
        rest[host.length]? == some '>' then
      some (mailbox ++ '@' :: host, rest.drop (host.length + 1))
    else none
  | _ => none

def readAngle (c : Content) (rest : List Char) : Content × List Char :=
  let closed : Content := { c with before := some '>' }
  match readAddress? rest with
  | some (address, after) => (closed.addInline (.autolink address false), after)
  | none =>
    match readMail? rest with
    | some (address, after) => (closed.addInline (.autolink address true), after)
    | none =>
      match RawHtml.afterInline? rest with
      | some after =>
        let source := '<' :: rest.take (rest.length - after.length)
        (closed.addInline (.html source), after)
      | none => ({ c with before := some '<' }.addText ['<'], rest)

def readAmpersand (c : Content) (rest : List Char) : Content × List Char :=
  match Entity.read? rest with
  | some (meaning, after) => ({ c with before := some ';' }.addText meaning, after)
  | none => ({ c with before := some '&' }.addText ['&'], rest)

def readRun (c : Content) (mark : Char) (rest : List Char) : Content × List Char :=
  let length := (rest.takeWhile (· == mark)).length + 1
  let after := rest.drop (length - 1)
  let opens := Run.canOpen mark length c.before after.head?
  let closes := Run.canClose mark length c.before after.head?
  let marked : Content := { c with before := some mark }
  if (opens || closes) && (mark != '~' || length ≤ 2) then
    ({ marked with nodes := .run ⟨mark, length, length, opens, closes⟩ :: c.nodes }, after)
  else (marked.addText (List.replicate length mark), after)

/-- Divides nodes, latest first, at the latest bracket: what is inside it, whether it
begins an image, whether it can begin a link, the text after it, and what is before it. -/
def lastBracket? : List Node → Option (List Node × Bool × Bool × List Char × List Node)
  | [] => none
  | .bracket image live after :: earlier => some ([], image, live, after, earlier)
  | node :: earlier =>
    (lastBracket? earlier).map fun (inside, found) => (node :: inside, found)

inductive Closed where
  | target (target : Target) (rest : List Char)
  | note (label : List Char) (rest : List Char)
  | nothing

def noteLabel? (s : List Char) : Option (List Char × List Char) :=
  match s with
  | '^' :: ']' :: _ => none
  | '^' :: label => Label.readNote? label
  | _ => none

/-- The label in the bracket that follows a bracket, unless it is that of a note. -/
def following? (s : List Char) : Option (List Char × List Char) :=
  match s with
  | '[' :: rest => if (noteLabel? rest).isSome then none else Label.read? rest
  | _ => none

/-- Finds what the bracket means whose text begins `inside`. `rest` follows its `]`. -/
def closed (document : Document) (inside rest : List Char) : Closed :=
  let inline? := match rest with
    | '(' :: more => Target.readInline? more
    | _ => none
  match inline? with
  | some (target, after) => .target target after
  | none =>
    match following? rest with
    | some (label, after) =>
      match Definition.find? document.definitions label with
      | some target => .target target after
      | none => .nothing
    | none =>
      let after := if ['[', ']'].isPrefixOf rest then rest.drop 2 else rest
      let own (s : List Char) : Option (List Char) :=
        (Label.read? s).bind fun (label, end_) =>
          if end_.length = rest.length then some label else none
      match (noteLabel? inside).bind fun (label, end_) =>
          if end_.length = rest.length then some label else none with
      | some label =>
        if document.notes.any (Label.key · == Label.key label) then .note label rest else .nothing
      | none =>
        match (own inside).bind (Definition.find? document.definitions) with
        | some target => .target target after
        | none => .nothing

def readClosing (document : Document) (c : Content) (rest : List Char) : Content × List Char :=
  let here : Content := { c with before := some ']' }
  match lastBracket? c.nodes with
  | none => (here.addText [']'], rest)
  | some (inside, image, live, after, outside) =>
    let unmatched : Content :=
      { here with
        nodes := .plain [']'] :: (inside ++ Node.settle (.bracket image live after) :: outside) }
    if !live then (unmatched, rest)
    else
      match closed document after rest with
      | .target target following =>
        let content := resolveStyles inside.reverse
        let node := Node.done (if image then .image target content else .link target content)
        let earlier := if image then outside else outside.map Node.deactivate
        ({ nodes := node :: earlier, before := some ')' }, following)
      | .note label following =>
        let lead := if image then [Node.plain ['!']] else []
        ({ here with nodes := .done (.noteReference label) :: (lead ++ outside.map Node.settle) },
          following)
      | .nothing => (unmatched, rest)

def isPlain (c : Char) : Bool :=
  !("\\\n\x60<&*_~[]!".toList.contains c)

def shown (c : Char) : Char := if c = '\x00' then Char.ofNat 0xFFFD else c

/-- A line break: none at the end of the text. Blanks that begin a line are not part of it. -/
def breakLine (c : Content) (hard : Bool) (rest : List Char) : Content × List Char :=
  let broken : Content := { c with before := some '\n' }
  if rest.isEmpty then (broken, [])
  else (broken.addInline (if hard then .hardBreak else .softBreak), rest.dropWhile isSpaceOrTab)

/-- Reads text in which nothing has a meaning. Two blanks before the end of a line
make the break a hard one; blanks at the end of the text are left out. -/
def readPlain (c : Content) (s : List Char) : Content × List Char :=
  let run := s.takeWhile isPlain
  let after := s.drop run.length
  let bare := (run.reverse.dropWhile isSpace).reverse
  let last := { c with before := run.getLast? }
  match after with
  | '\n' :: rest =>
    if bare.length + 2 ≤ run.length then (last.addText (bare.map shown)).breakLine true rest
    else (last.addText (run.map shown), after)
  | [] => (last.addText (bare.map shown), [])
  | _ => (last.addText (run.map shown), after)

def step (document : Document) (c : Content) (ch : Char) (rest : List Char) :
    Content × List Char :=
  let one (c : Content) : Content := { c with before := some ch }.addText [ch]
  match ch, rest with
  | '\\', '\x60' :: after => readBackticks c true after
  | '\\', '\n' :: after =>
    if after.isEmpty then ((one c).breakLine false after) else c.breakLine true after
  | '\\', p :: after =>
    if Text.isAsciiPunctuation p then ({ c with before := some p }.addText [p], after)
    else (one c, rest)
  | '\n', _ => c.breakLine false rest
  | '\x60', _ => readBackticks c false rest
  | '<', _ => c.readAngle rest
  | '&', _ => c.readAmpersand rest
  | '!', '[' :: after =>
    ({ nodes := .bracket true true after :: c.nodes, before := some '[' }, after)
  | '[', _ => ({ nodes := .bracket false true rest :: c.nodes, before := some '[' }, rest)
  | ']', _ => c.readClosing document rest
  | _, _ =>
    if ch = '*' ∨ ch = '_' ∨ ch = '~' then c.readRun ch rest
    else if isPlain ch then c.readPlain (ch :: rest)
    else (one c, rest)

def readAll (document : Document) (c : Content) (s : List Char) : Content :=
  match s with
  | [] => c
  | ch :: rest =>
    let (next, after) := c.step document ch rest
    if _ : after.length ≤ rest.length then readAll document next after else next
termination_by s.length

end Content

def Inline.read (document : Document) (text : List Char) : List Inline :=
  resolveStyles (Content.readAll document ⟨[], none⟩ text).nodes.reverse

end DocSite.Markdown
