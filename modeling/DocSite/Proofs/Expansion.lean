import DocSite.Proofs.Evaluation
import DocSite.Proofs.Literal
import DocSite.Proofs.Lookup
import DocSite.Proofs.Scope

/-! Rendering to a fixed point is evaluation. Where all tags are placeholders and chunks, what
the passes of a render leave behind is the value of its text, and two passes are enough. -/
namespace DocSite.Template

/-- A text whose tags are placeholders and chunks, none of them deferred. -/
structure Markup.Plain (text : Markup) : Prop where
  formed : text.WellFormed false
  low : text.height ≤ Span.maxNesting
  heads : ∀ head ∈ text.heads, head.deferred = false ∧ head.kind ≠ .snippet

namespace Notice

/-- A render that ends does so after two passes at most. -/
def WithinTwo : Notice → Prop
  | .began _ => True
  | .settled pass => pass ≤ 2
  | .exhausted => False

def isBegan : Notice → Bool
  | .began _ => true
  | _ => false

def isSettled : Notice → Bool
  | .settled _ => true
  | _ => false

end Notice

/-- From `s` to `t` every render settles within two passes, and `ended` more of them end than
begin. -/
def Prompt (ended : Nat) (s t : Session) : Prop :=
  ∃ notices, t.world.notices = notices ++ s.world.notices ∧ (∀ n ∈ notices, n.WithinTwo) ∧
    notices.countP Notice.isSettled = notices.countP Notice.isBegan + ended

namespace Prompt

variable {a b : Nat} {s t u : Session}

theorem still (same : t.world.notices = s.world.notices) : Prompt 0 s t :=
  ⟨[], same, by simp, rfl⟩

theorem trans (first : Prompt a s t) (second : Prompt b t u) : Prompt (a + b) s u := by
  obtain ⟨old, eq, prompt, count⟩ := first
  obtain ⟨new, eq', prompt', count'⟩ := second
  refine ⟨new ++ old, by rw [eq', eq, List.append_assoc], fun n member => ?_, ?_⟩
  · exact (List.mem_append.mp member).elim (prompt' n) (prompt n)
  · rw [List.countP_append, List.countP_append]
    omega

theorem settle {pass : Nat} (early : pass ≤ 2) :
    Prompt 1 s { s with world := s.world.note (.settled pass) } :=
  ⟨[.settled pass], rfl, by simpa [Notice.WithinTwo] using early, rfl⟩

end Prompt

/-- Where a render stands: its chunks, which of their names matter, its placeholders and depth. -/
structure Stage where
  book : String → Option Markup
  known : String → Prop
  env : Placeholders
  depth : Nat

namespace Stage

open Rendered

variable {stage : Stage} {α β : Type} {a b : Nat}

/-- The known chunks are plain texts that name known chunks only. -/
def Closed (stage : Stage) : Prop :=
  ∀ name text, stage.known name → stage.book name = some text → text.Plain ∧
    ∀ head ∈ text.heads, head.kind = .chunk → stage.known (String.ofList head.name)

/-- The stage inside a render with parameters. -/
def enter (stage : Stage) (params : Params) : Stage :=
  { stage with env := stage.env.extend params.entries, depth := stage.depth + 1 }

structure Holds (stage : Stage) (s : Session) : Prop where
  placeholders : s.engine.placeholders = stage.env
  depth : s.engine.depth = stage.depth
  chunks : ∀ name, stage.known name →
    s.world.chunk? name = (stage.book name).map fun text => String.ofList text.source

/-- What a chunk tag stands for here. -/
def inclusion (stage : Stage) (name : String) (source : List Char) (params : Params) : List Char :=
  if stage.depth < maxDepth then
    match stage.book name with
    | none => []
    | some chunk => evalAt stage.book (stage.depth + 1) (stage.env.extend params.entries) chunk
  else source

/-- The value of a text here. -/
def value (stage : Stage) (text : Markup) : List Char :=
  evalAt stage.book stage.depth stage.env text

theorem value_eq (text : Markup) : stage.value text = text.eval stage.inclusion stage.env id := by
  rw [value, evalAt]
  rfl

/-- Unless the nested renders run out, the work answers as is right and leaves the stage as it
is. -/
def Delivers (stage : Stage) (ended : Nat) (work : Run α) (right : α → Prop) : Prop :=
  ∀ s, stage.Holds s → (work s).2.engine.nested < maxNestedRenders →
    ∃ a t, work s = (.ok a, t) ∧ right a ∧ stage.Holds t ∧ Prompt ended s t

theorem Delivers.pure {right : α → Prop} {a : α} (correct : right a) :
    stage.Delivers 0 (pure a) right :=
  fun s here _ => ⟨a, s, rfl, correct, here, .still rfl⟩

theorem Delivers.bind {work : Run α} {next : α → Run β} {between : α → Prop} {right : β → Prop}
    (opened : 0 < stage.depth) (kept : Law.nesting.Obeyed work)
    (kept' : ∀ x, Law.nesting.Obeyed (next x)) (first : stage.Delivers 0 work between)
    (rest : ∀ x, between x → stage.Delivers b (next x) right) :
    stage.Delivers b (work >>= next) right := by
  intro s here frugal
  have before := kept s
  have delivered := first s here
  unfold Law.At at before
  rw [Run.bind_apply] at frugal ⊢
  rcases h : work s with ⟨answer, t⟩
  rw [h] at before frugal delivered
  cases answer with
  | error e =>
    obtain ⟨_, _, failed, _⟩ := delivered frugal
    cases failed
  | ok x =>
    have deep : 0 < t.engine.depth := by rw [before.1, here.depth]; exact opened
    have grows := (kept' x t).2 deep
    obtain ⟨_, _, answered, correct, there, prompt⟩ := delivered (Nat.lt_of_le_of_lt grows frugal)
    cases answered
    obtain ⟨z, v, answer, right, last, prompt'⟩ := rest x correct t there frugal
    exact ⟨z, v, answer, right, last, Nat.zero_add b ▸ prompt.trans prompt'⟩

/-- The tags that evaluation knows of. -/
structure Admits (stage : Stage) (head : Head) : Prop where
  now : head.deferred = false
  kind : head.kind ≠ .snippet
  known : head.kind = .chunk → stage.known (String.ofList head.name)

/-- Text that is right as it stands and holds nothing more to resolve. -/
structure Stands (value : List Char) (out : Rendered) : Prop where
  flat : out.flatten.toList = value
  quiet : out.Reread BracketFree

/-- Each tag is dispatched to what it stands for. -/
structure Resolves (stage : Stage) (calls : Calls) : Prop where
  opened : 0 < stage.depth
  kept : Law.nesting.OnCalls calls
  placeholder (tag : Tag) (source : List Char) : tag.kind.isPlaceholder = true →
    stage.Delivers 0 (Engine.dispatch calls tag source)
      fun result => Stands (stage.env.getD tag.name "").toList result.1
  chunk (tag : Tag) (source : List Char) : tag.kind = .chunk → stage.known tag.name →
    stage.Delivers 0 (Engine.dispatch calls tag source)
      fun result => Stands (stage.inclusion tag.name source tag.params) result.1

variable {calls : Calls}

theorem Resolves.obeys (resolves : stage.Resolves calls) (tag : Tag) (source : List Char) :
    Law.nesting.Obeyed (Engine.dispatch calls tag source) :=
  Nesting.universal.dispatch resolves.kept tag source

mutual

theorem mark_resolves (resolves : stage.Resolves calls) :
    ∀ mark : Mark, mark.WellFormed → (∀ head ∈ mark.heads, stage.Admits head) →
      stage.Delivers 0 (mark.span.resolve (Engine.dispatch calls))
        fun result => Stands (mark.eval stage.inclusion stage.env) result.1
  | .mk head tail, formed, admitted => by
    have first := admitted head (List.mem_cons_self ..)
    have arguments := tail_resolves resolves tail head.kind {} false formed.2
      fun h member => admitted h (List.mem_cons_of_mem _ member)
    rw [Mark.span, Span.resolve, first.now]
    refine Delivers.bind resolves.opened (Law.arguments_obeyed resolves.obeys _ _ _) ?_ arguments ?_
    · rintro ⟨params, dirty⟩
      exact (resolves.obeys _ _).bind fun _ => .pure _
    · rintro ⟨params, dirty⟩ rfl
      refine Delivers.bind resolves.opened (resolves.obeys _ _) (fun _ => .pure _) ?_
        fun result stands => Delivers.pure stands
      rw [Mark.eval]
      cases placeholder : head.kind.isPlaceholder with
      | true => exact resolves.placeholder _ _ placeholder
      | false =>
        have chunk : head.kind = .chunk := by
          have := first.kind
          cases kind : head.kind <;> simp_all [TagKind.isPlaceholder]
        exact resolves.chunk _ _ chunk (first.known chunk)

theorem tail_resolves (resolves : stage.Resolves calls) :
    ∀ (tail : Tail) (kind : TagKind) (params : Params) (dirty : Bool), tail.WellFormed kind →
      (∀ head ∈ tail.heads, stage.Admits head) →
      stage.Delivers 0
        (Argument.resolveAll (Engine.dispatch calls) tail.arguments params dirty)
        (fun result => result.1 = tail.params stage.inclusion stage.env params)
  | .close, kind, params, dirty, _, _ => .pure rfl
  | .ignored chars, kind, params, dirty, _, _ => .pure rfl
  | .blank c rest, kind, params, dirty, formed, admitted =>
    tail_resolves resolves rest kind params dirty formed.2 admitted
  | .nonBreaking rest, kind, params, dirty, formed, admitted =>
    tail_resolves resolves rest kind params dirty formed admitted
  | .param entity name value rest, kind, params, dirty, formed, admitted => by
    obtain ⟨-, -, valueFormed, restFormed⟩ := formed
    have inside := markup_resolves resolves shows_decoded value {} false valueFormed
      (fun h member => admitted h (List.mem_append_left _ member)) Rendered.Reread.empty
    rw [Tail.arguments, Argument.resolveAll]
    refine Delivers.bind resolves.opened (Law.pieces_obeyed resolves.obeys _ _ _) ?_ inside ?_
    · exact fun _ => Law.arguments_obeyed resolves.obeys _ _ _
    · rintro ⟨text, dirty'⟩ ⟨flat, -⟩
      have same : text.flatten = String.ofList (value.eval stage.inclusion stage.env decode) := by
        rw [← String.ofList_toList (s := text.flatten), flat]
        rfl
      dsimp only
      rw [same]
      exact tail_resolves resolves rest kind _ _ restFormed
        fun h member => admitted h (List.mem_append_right _ member)

theorem markup_resolves (resolves : stage.Resolves calls) {shown : List Char → List Piece}
    {value : List Char → List Char} {inValue : Bool}
    (shows : ∀ {chars}, LiteralIn inValue chars → Shows inValue shown value chars) :
    ∀ (text : Markup) (out : Rendered) (dirty : Bool), text.WellFormed inValue →
      (∀ head ∈ text.heads, stage.Admits head) → out.Reread BracketFree →
      stage.Delivers 0
        (Piece.resolveAll (Engine.dispatch calls) (text.pieces shown) out dirty)
        fun result => Stands (out.flatten.toList ++ text.eval stage.inclusion stage.env value) result.1
  | .text chars, out, dirty, formed, admitted, settled => by
    obtain ⟨out', eq, flat, settled'⟩ :=
      (shows formed).resolveAll (Engine.dispatch calls) (Reread.joins _ BracketFree.append)
        (fun _ free _ => free) [] out dirty settled
    rw [List.append_nil] at eq
    rw [Markup.pieces, eq]
    exact .pure ⟨flat, settled'⟩
  | .tag chars mark rest, out, dirty, formed, admitted, settled => by
    obtain ⟨literal, markFormed, restFormed⟩ := formed
    obtain ⟨out', eq, flat, settled'⟩ :=
      (shows literal).resolveAll (Engine.dispatch calls) (Reread.joins _ BracketFree.append)
        (fun _ free _ => free) (.span mark.span :: rest.pieces shown) out dirty settled
    have tag := mark_resolves resolves mark markFormed
      fun h member => admitted h (List.mem_append_left _ member)
    rw [Markup.pieces, eq, Piece.resolveAll]
    refine Delivers.bind resolves.opened (Law.span_obeyed resolves.obeys _) ?_ tag ?_
    · exact fun _ => Law.pieces_obeyed resolves.obeys _ _ _
    · rintro ⟨text, dirty'⟩ ⟨stands, quiet⟩
      have joined : (out' ++ text).flatten.toList ++ rest.eval stage.inclusion stage.env value =
          out.flatten.toList ++ (Markup.tag chars mark rest).eval stage.inclusion stage.env value := by
        rw [Rendered.flatten_append, String.toList_append, flat, stands, Markup.eval]
        simp only [List.append_assoc]
      rw [← joined]
      exact markup_resolves resolves shows rest (out' ++ text) _ restFormed
        (fun h member => admitted h (List.mem_append_right _ member))
        (Reread.append BracketFree.append settled' quiet)

end

theorem Holds.of_same {s t : Session} (here : stage.Holds s)
    (placeholders : t.engine.placeholders = s.engine.placeholders)
    (depth : t.engine.depth = s.engine.depth)
    (chunks : ∀ name, t.world.chunk? name = s.world.chunk? name) : stage.Holds t where
  placeholders := placeholders.trans here.placeholders
  depth := depth.trans here.depth
  chunks name known := (chunks name).trans (here.chunks name known)

/-- Chunks that are plain are rendered to their value. -/
def Renders (stage : Stage) (calls : Calls) : Prop :=
  ∀ (text : Markup) (params : Params), text.Plain →
    (∀ head ∈ text.heads, head.kind = .chunk → stage.known (String.ofList head.name)) →
    stage.Delivers 0 (calls.render (String.ofList text.source) params)
      (Stands ((stage.enter params).value text))

theorem placeholder_resolves (tag : Tag) (source : List Char)
    (placeholder : tag.kind.isPlaceholder = true) :
    stage.Delivers 0 (Engine.dispatch calls tag source)
      fun result => Stands (stage.env.getD tag.name "").toList result.1 := by
  intro s here _
  refine ⟨_, s, Engine.dispatch_placeholder placeholder, ⟨?_, ?_⟩, here, .still rfl⟩
  · rw [Rendered.flatten_pushVerbatim, here.placeholders]
    exact congrArg String.toList String.empty_append
  · exact Rendered.Reread.empty.pushVerbatim BracketFree.append _

theorem chunk_resolves (opened : 0 < stage.depth) (kept : Law.nesting.OnCalls calls)
    (closed : stage.Closed)
    (renders : stage.depth < maxDepth → stage.Renders calls) (tag : Tag) (source : List Char)
    (kind : tag.kind = .chunk) (known : stage.known tag.name) :
    stage.Delivers 0 (Engine.dispatch calls tag source)
      fun result => Stands (stage.inclusion tag.name source tag.params) result.1 := by
  intro s here frugal
  cases free : s.engine.mayDescend with
  | false =>
    have placeholder : tag.kind.isPlaceholder = false := by rw [kind]; rfl
    rw [Engine.dispatch_refused placeholder free] at frugal ⊢
    have few : s.engine.nested < maxNestedRenders := Engine.noteLimit_nested s.engine ▸ frugal
    have deep : ¬ stage.depth < maxDepth := by
      intro shallow
      have := (Engine.mayDescend_iff s.engine).mpr ⟨here.depth ▸ shallow, few⟩
      rw [free] at this
      cases this
    refine ⟨_, _, rfl, ⟨?_, ?_⟩, ?_, .still rfl⟩
    · rw [inclusion, if_neg deep, Rendered.flatten_pushVerbatim, String.toList_append]
      exact String.toList_ofList
    · exact Rendered.Reread.empty.pushVerbatim BracketFree.append _
    · exact here.of_same (Engine.noteLimit_placeholders _) (Engine.noteLimit_depth _) fun _ => rfl
  | true =>
    have shallow := here.depth ▸ ((Engine.mayDescend_iff s.engine).mp free).1
    let world := s.world.record (.dispatched .chunk tag.name)
    let found : Session := { s with world := (world.chunk tag.name).2 }
    have there : stage.Holds found :=
      here.of_same rfl rfl fun name => World.chunk?_chunk world tag.name name
    have lookup : (world.chunk tag.name).1 =
        (stage.book tag.name).map fun text => String.ofList text.source := here.chunks tag.name known
    rw [Engine.dispatch_chunk kind free, Engine.includeChunk, Run.onWorld_bind] at frugal ⊢
    rw [lookup] at frugal ⊢
    rw [inclusion, if_pos shallow]
    cases book : stage.book tag.name with
    | none => exact ⟨_, found, rfl, ⟨rfl, Rendered.Reread.empty⟩, there, .still rfl⟩
    | some text =>
      rw [book] at frugal
      obtain ⟨plain, names⟩ := closed tag.name text known book
      have included : stage.Delivers 0
          (do return (← calls.render (String.ofList text.source) tag.params, true))
          fun result => Stands ((stage.enter tag.params).value text) result.1 :=
        Delivers.bind opened (kept.render _ _) (fun _ => .pure _)
          (renders shallow text tag.params plain names) fun _ stands => Delivers.pure stands
      obtain ⟨result, t, eq, stands, last, prompt⟩ := included found there frugal
      exact ⟨result, t, eq, stands, last, prompt⟩

theorem resolves (opened : 0 < stage.depth) (kept : Law.nesting.OnCalls calls) (closed : stage.Closed)
    (renders : stage.depth < maxDepth → stage.Renders calls) : stage.Resolves calls :=
  ⟨opened, kept, placeholder_resolves, chunk_resolves opened kept closed renders⟩

/-- The first pass over a text finds what the text stands for. -/
theorem firstPass_delivers (resolves : stage.Resolves calls) {text : Markup} (plain : text.Plain)
    (names : ∀ head ∈ text.heads, head.kind = .chunk → stage.known (String.ofList head.name)) :
    stage.Delivers 0
      (Engine.passOver calls (Rendered.ofText (String.ofList text.source)).segments {} false)
      fun result => Stands (stage.value text) result.1 := by
  have scanned := markup_resolves resolves shows_whole text {} false plain.formed
    (fun head member => ⟨(plain.heads head member).1, (plain.heads head member).2,
      names head member⟩) Rendered.Reread.empty
  rw [← Piece.readAll_source text plain.formed plain.low] at scanned
  rw [value_eq, Rendered.segments_ofText]
  cases empty : (String.ofList text.source).isEmpty with
  | true =>
    have none : text.source = [] := by simpa [String.isEmpty_iff] using empty
    have read : Piece.readAll [] = [] := by simp [Piece.readAll]
    rw [none, read, Piece.resolveAll] at scanned
    exact scanned
  | false =>
    rw [← String.toList_ofList (l := text.source)] at scanned
    refine Delivers.bind resolves.opened (Law.pieces_obeyed resolves.obeys _ _ _)
      (fun _ => .pure _) scanned fun _ stands => Delivers.pure stands

/-- A pass over quiet text changes nothing and resolves nothing. -/
theorem quietPass (s : Session) (segments : List Segment) (out : Rendered)
    (quiet : ∀ seg ∈ segments, seg.kind = .text → BracketFree seg.content.toList)
    (before : out.Reread BracketFree) :
    ∃ out' : Rendered, Engine.passOver calls segments out false s = (.ok (out', false), s) ∧
      out'.flatten = segments.foldl (fun acc seg => acc ++ seg.content) out.flatten ∧
      out'.Reread BracketFree := by
  induction segments generalizing out with
  | nil => exact ⟨out, rfl, rfl, before⟩
  | cons seg rest ih =>
    have later : ∀ seg ∈ rest, seg.kind = .text → BracketFree seg.content.toList :=
      fun seg member => quiet seg (List.mem_cons_of_mem _ member)
    obtain ⟨kind, content⟩ := seg
    cases kind with
    | verbatim =>
      obtain ⟨out', eq, flat, after⟩ :=
        ih (out.pushVerbatim content) later (before.pushVerbatim BracketFree.append content)
      exact ⟨out', eq, by rw [flat, Rendered.flatten_pushVerbatim]; rfl, after⟩
    | text =>
      have free := quiet _ (List.mem_cons_self ..) rfl
      have literal : LiteralIn false content.toList := fun c member => ⟨free c member, by simp⟩
      have read := Piece.readAll_source (.text content.toList) literal (Nat.zero_le _)
      obtain ⟨mid, eq, flat, settled⟩ := (shows_whole literal).resolveAll
        (Engine.dispatch calls) (Reread.joins _ BracketFree.append) (fun _ free _ => free) [] out
        false before
      obtain ⟨out', eq', flat', after⟩ := ih mid later settled
      have scan : scanPass (Engine.dispatch calls) content out s = (.ok (mid, false), s) := by
        rw [scanPass]
        rw [Markup.source] at read
        rw [read, Markup.pieces, ← List.append_nil (wholePiece _), eq]
        rfl
      refine ⟨out', ?_, ?_, after⟩
      · rw [Engine.passOver, Run.bind_apply, scan]
        exact eq'
      · have joined : mid.flatten = out.flatten ++ content := by
          apply String.toList_injective
          rw [flat, String.toList_append]
          rfl
        rw [flat', joined]
        rfl

theorem settles {value : List Char} {out : Rendered} (stands : Stands value out) (passes : Nat)
    (early : maxPasses - passes ≤ 2) :
    stage.Delivers 1 (Engine.afterPass calls passes (out, false)) (Stands value) :=
  fun _ here _ => ⟨out, _, rfl, stands, here.of_same rfl rfl fun _ => rfl, .settle early⟩

/-- A second pass has nothing to do and is the last. -/
theorem secondPass_delivers {value : List Char} {out : Rendered} (stands : Stands value out)
    (passes : Nat) (early : maxPasses - passes ≤ 2) :
    stage.Delivers 1 (Engine.expand calls (passes + 1) out) (Stands value) := by
  intro s here frugal
  let counted : Session := { s with engine := s.engine.countPass }
  have quiet : ∀ seg ∈ out.segments, seg.kind = .text → BracketFree seg.content.toList :=
    fun seg member => stands.quiet seg (List.mem_reverse.mp member)
  obtain ⟨out', eq, flat, settled⟩ := @quietPass calls counted out.segments {} quiet .empty
  have same : Stands value out' := ⟨(congrArg String.toList flat).trans stands.flat, settled⟩
  rw [Engine.expand_succ, Run.bind_apply, eq] at frugal ⊢
  exact settles same passes early counted (here.of_same rfl rfl fun _ => rfl) frugal

theorem expand_delivers (resolves : stage.Resolves calls) {text : Markup} (plain : text.Plain)
    (names : ∀ head ∈ text.heads, head.kind = .chunk → stage.known (String.ofList head.name)) :
    stage.Delivers 1
      (Engine.expand calls maxPasses (Rendered.ofText (String.ofList text.source)))
      (Stands (stage.value text)) := by
  intro s here frugal
  have passes : maxPasses = 9 + 1 := rfl
  -- The first pass finds the value. A second one follows it if it was dirty, and is clean.
  rw [passes, Engine.expand_succ] at frugal ⊢
  have twice : stage.Delivers 1 (Engine.passOver calls
      (Rendered.ofText (String.ofList text.source)).segments {} false >>= Engine.afterPass calls 9)
      (Stands (stage.value text)) := by
    refine Delivers.bind resolves.opened (Law.passOver_obeyed resolves.obeys _ _ _) ?_
      (firstPass_delivers resolves plain names) ?_
    · rintro ⟨out, dirty⟩
      cases dirty with
      | true => exact Nesting.universal.expand resolves.kept 9 out
      | false => exact (Nesting.universal.note _).bind fun _ => .pure out
    · rintro ⟨out, dirty⟩ stands
      cases dirty with
      | true => exact secondPass_delivers stands 8 (by decide)
      | false => exact settles stands 9 (by decide)
  exact twice _ (here.of_same rfl rfl fun _ => rfl) frugal

/-- A render lays its parameters over the placeholders, one level deeper, and takes them away. -/
theorem render_delivers {params : Params} (resolves : (stage.enter params).Resolves calls)
    {text : Markup} (plain : text.Plain)
    (names : ∀ head ∈ text.heads, head.kind = .chunk → stage.known (String.ofList head.name)) :
    stage.Delivers 0 (Engine.render calls (String.ofList text.source) params)
      (Stands ((stage.enter params).value text)) := by
  intro s here frugal
  have inside : (stage.enter params).Holds (s.enter params) := by
    refine ⟨?_, congrArg (· + 1) here.depth, here.chunks⟩
    exact congrArg (Bindings.extend · params.entries) here.placeholders
  have delivered := expand_delivers resolves plain names (s.enter params) inside
  rw [Engine.render, Run.within_apply] at frugal ⊢
  generalize Engine.expand calls maxPasses _ (s.enter params) = result at delivered frugal ⊢
  obtain ⟨out, t, rfl, stands, there, notices, noted, prompt, count⟩ := delivered frugal
  refine ⟨out, s.leave t, rfl, stands, ?_, notices ++ [.began (s.engine.depth + 1)], ?_, ?_, ?_⟩
  · exact ⟨here.placeholders, congrArg (· - 1) there.depth, there.chunks⟩
  · rw [List.append_assoc]
    exact noted
  · intro n member
    rcases List.mem_append.mp member with later | first
    · exact prompt n later
    · cases List.mem_singleton.mp first
      trivial
  · rw [List.countP_append, List.countP_append, count]
    rfl

/-- Chunks within chunks come to an end at the greatest depth, which the calls always reach. -/
theorem callsWithin_render (limit : Nat) : ∀ (stage : Stage), stage.Closed →
    stage.depth < maxDepth → maxDepth ≤ stage.depth + limit →
    stage.Renders (Engine.callsWithin limit) := by
  induction limit with
  | zero =>
    intro stage _ shallow deep
    omega
  | succ limit ih =>
    intro stage closed shallow deep text params plain names
    refine render_delivers ?_ plain names
    refine resolves (Nat.succ_pos _) (Nesting.universal.callsWithin limit) closed fun shallow' => ?_
    exact ih (stage.enter params) closed shallow' (by simp only [enter]; omega)

end Stage

/-- Where all tags are placeholders and chunks, also in the chunks that the template may lead
to, a render that does not use up the nested renders answers the value of its template. Each
render in it settles within two passes. -/
theorem render_evaluates (book : String → Option Markup) (template : Markup) (s : Session)
    (params : Params) (plain : template.Plain)
    (chunks : ∀ name, Reaches book template name →
      s.world.chunk? name = (book name).map (fun text => String.ofList text.source) ∧
        ∀ text, book name = some text → text.Plain)
    (frugal : (Engine.renderString (String.ofList template.source) params s).2.engine.nested <
      maxNestedRenders) :
    ∃ t, Engine.renderString (String.ofList template.source) params s =
        (.ok (String.ofList (evalAt book (s.engine.depth + 1)
          (s.engine.placeholders.extend params.entries) template)), t) ∧
      Prompt 0 s t := by
  let stage : Stage := ⟨book, Reaches book template, s.engine.placeholders, s.engine.depth⟩
  have closed : stage.Closed := fun name text known found =>
    ⟨(chunks name known).2 text found, fun _ member kind => .through known found member kind⟩
  have resolves : (stage.enter params).Resolves (Engine.callsWithin 1023) := by
    refine Stage.resolves (Nat.succ_pos _) (Nesting.universal.callsWithin 1023) closed fun shallow => ?_
    exact Stage.callsWithin_render 1023 (stage.enter params) closed shallow
      (Nat.le_trans (by decide) (Nat.le_add_left 1023 _))
  have here : stage.Holds s := ⟨rfl, rfl, fun name known => (chunks name known).1⟩
  have whole : callLimit = 1023 + 1 := rfl
  rw [Engine.renderString_apply whole] at frugal ⊢
  obtain ⟨out, t, eq, stands, -, prompt⟩ := Stage.render_delivers resolves plain
    (fun _ member kind => .written member kind) s here frugal
  have same : out.flatten = String.ofList ((stage.enter params).value template) := by
    apply String.toList_injective
    rw [stands.flat, String.toList_ofList]
  refine ⟨t, ?_, prompt⟩
  rw [eq]
  exact congrArg (fun text => (Except.ok text, t)) same

/-! A chunk that includes itself. Each inclusion hands on what `x` was, with one letter more. -/
namespace Looping

def again : Mark :=
  .mk ⟨false, .chunk, "loop".toList⟩ (.blank ' ' (.param false "x".toList
    (.tag [] (.mk ⟨false, .placeholder, "x".toList⟩ .close) (.text ['a'])) .close))

def chunk : Markup :=
  .tag ['<'] (.mk ⟨false, .placeholder, "x".toList⟩ .close) (.tag [] again (.text ['>']))

def book (name : String) : Option Markup := if name = "loop" then some chunk else none

def site : Session where
  world := ({} : World).registerChunk "loop" (String.ofList chunk.source)

theorem reaches {name : String} (reached : Reaches book chunk name) : name = "loop" := by
  have heads : ∀ head ∈ chunk.heads, head.kind = .chunk → String.ofList head.name = "loop" := by
    decide
  cases reached with
  | written member kind => exact heads _ member kind
  | through _ found member kind =>
    unfold book at found
    split at found
    · cases found
      exact heads _ member kind
    · cases found

end Looping

open Looping in
theorem looping_render_evaluates : chunk.Plain ∧
    (∀ name, Reaches book chunk name →
      site.world.chunk? name = (book name).map (fun text => String.ofList text.source) ∧
        ∀ text, book name = some text → text.Plain) ∧
    (Engine.renderString (String.ofList chunk.source) {} site).2.engine.nested < maxNestedRenders ∧
    ∃ t, Engine.renderString (String.ofList chunk.source) {} site =
        (.ok (String.ofList (evalAt book 1 {} chunk)), t) ∧ Prompt 0 site t := by
  have plain : chunk.Plain := ⟨by decide, by decide, by decide⟩
  have chunks : ∀ name, Reaches book chunk name →
      site.world.chunk? name = (book name).map (fun text => String.ofList text.source) ∧
        ∀ text, book name = some text → text.Plain := by
    intro name reached
    obtain rfl := reaches reached
    refine ⟨?_, fun text found => ?_⟩
    · rw [site, World.chunk?_registerChunk]
      rfl
    · cases found
      exact plain
  have frugal : (Engine.renderString (String.ofList chunk.source) {} site).2.engine.nested <
      maxNestedRenders := by decide +kernel
  exact ⟨plain, chunks, frugal, render_evaluates book chunk site {} plain chunks frugal⟩

end DocSite.Template
