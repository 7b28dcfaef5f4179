import DocSite.Proofs.Alongside
import DocSite.Proofs.Canonical

/-! A chunk rendered by its name and by a tag. A tag lets the chunk render one level deeper, and the
render around it reads what comes out once more. -/
namespace DocSite.Template

namespace Engine

variable {calls : Calls}

/-- The first pass over the canonical form of a tag dispatches the tag. -/
theorem expand_tag {tag : Tag} (canonical : tag.Canonical) (now : tag.deferred = false)
    (passes : Nat) (s : Session) :
    expand calls (passes + 1) (Rendered.ofText (toString tag)) s =
      (dispatch calls tag tag.chars >>= fun r => afterPass calls passes ({} ++ r.1, r.2))
        { s with engine := s.engine.countPass } := by
  obtain ⟨span, read, is⟩ := canonical.read
  have text : (toString tag).toList = tag.chars := String.toList_ofList
  have written : ¬ (toString tag).isEmpty := by
    rw [String.isEmpty_iff, ← String.toList_inj, text]
    exact List.cons_ne_nil _ _
  have scanned : scanPass (dispatch calls) (toString tag) {} =
      (dispatch calls tag tag.chars >>= fun r => pure ({} ++ r.1, r.2)) := by
    rw [scanPass, text, read, Piece.resolveAll, is.resolve, now]
    rfl
  rw [expand_succ, Rendered.segments_ofText, if_neg written, passOver, scanned]
  simp only [bind_assoc, pure_bind]
  rfl

end Engine

/-- The tag that asks for a chunk. -/
def Tag.ofChunk (name : String) (params : Params) : Tag := { kind := .chunk, name, params }

namespace Session

/-- The session after the chunk was looked up. -/
def lookUp (name : String) (s : Session) : Session := { s with world := (s.world.chunk name).2 }

/-- The session in which the first pass of a render takes up a tag for the chunk. -/
def takeUp (name : String) (s : Session) : Session :=
  ⟨(s.engine.enter {}).countPass,
    (s.world.note (.began (s.engine.depth + 1))).record (.dispatched .chunk name)⟩

end Session

namespace Engine

variable {calls : Calls} {name text : String} {params : Params} {s : Session}

theorem renderChunk_eq (calls : Calls) (name : String) (params : Params) :
    calls.renderChunk name params =
      (do return (← includeChunk calls name params).1.flatten) := by
  rw [Calls.renderChunk, includeChunk, bind_assoc]
  refine bind_congr fun found => ?_
  cases found with
  | none => rfl
  | some text => simp only [bind_assoc, pure_bind]

theorem includeChunk_unknown (calls : Calls) (params : Params)
    (unknown : s.world.chunk? name = none) :
    includeChunk calls name params s = (.ok ({}, true), s.lookUp name) := by
  have found : (s.world.chunk name).1 = none := unknown
  rw [includeChunk, Run.onWorld_bind, found]
  rfl

theorem includeChunk_known (limit : Nat) (params : Params)
    (known : s.world.chunk? name = some text) :
    includeChunk (callsWithin (limit + 1)) name params s =
      ((expand (callsWithin limit) maxPasses (.ofText text)
          ((s.lookUp name).enter params)).1.map (·, true),
        (s.lookUp name).leave (expand (callsWithin limit) maxPasses (.ofText text)
          ((s.lookUp name).enter params)).2) := by
  have found : (s.world.chunk name).1 = some text := known
  rw [includeChunk, Run.onWorld_bind, found]
  exact Run.map_apply ..

/-- Where the two renders of a chunk begin. -/
theorem alongside_chunk (name : String) (params : Params) (blind : s.world.Blind) :
    Alongside 1 ((s.lookUp name).enter params) (((s.takeUp name).lookUp name).enter params)
      ((s.lookUp name).enter params) (((s.takeUp name).lookUp name).enter params) where
  placeholders := rfl
  opened := Nat.succ_pos _
  depth := rfl
  nested := rfl
  limited := rfl
  stats := by
    rw [Stats.add_eq_iff]
    omega
  world := by
    have same : (s.takeUp name).world.plain = s.world.plain := rfl
    exact ((World.Move.chunk name : World.Move Snippet.Blind _).same same).2.1
  journal := ⟨[], rfl, rfl⟩
  blind := (World.Move.chunk name).blind blind

/-- A text that is a chunk tag is rendered as the chunk is, and what comes out is read once more. -/
theorem render_tag (canonical : (Tag.ofChunk name params).Canonical)
    (unlimited : (render calls (toString (Tag.ofChunk name params)) {} s).2.refusals =
      s.refusals) :
    render calls (toString (Tag.ofChunk name params)) {} s =
      let result := (includeChunk calls name params >>= fun r => afterPass calls 9 ({} ++ r.1, r.2))
        (s.takeUp name)
      (result.1, s.leave result.2) := by
  have passes : maxPasses = 9 + 1 := rfl
  rw [render, Run.within_apply, passes, expand_tag canonical rfl, Run.bind_apply] at unlimited ⊢
  cases free : (s.engine.enter {}).countPass.mayDescend with
  | false =>
    rw [dispatch_refused rfl free] at unlimited
    have grown : s.refusals + 1 = s.refusals :=
      (Session.refusals_refused (s.enter {}) s.engine ..).symm.trans unlimited
    exact absurd grown (Nat.succ_ne_self _)
  | true =>
    rw [dispatch_chunk rfl free, ← Run.bind_apply]
    rfl

/-- With more calls open further out, a render comes to nothing that its like deeper in does not come
to, unless that one comes to a limit. -/
theorem expand_alongside (limit : Nat) (text : String) {s t : Session} (start : Alongside 1 s t s t) :
    let outer := expand (callsWithin (limit + 1)) maxPasses (.ofText text) s
    let inner := expand (callsWithin limit) maxPasses (.ofText text) t
    (inner.1 = .error .unfinished ∨ t.refusals < inner.2.refusals) ∨
      (outer.1 = inner.1 ∧ Alongside 1 s t outer.2 inner.2) := by
  intro outer inner
  have universal := Alongside.universal 1 s t
  have agree := universal.expand
    (universal.callsWithin 1 limit fun deeper _ => ⟨deeper, .inl rfl⟩) maxPasses (.ofText text)
  rcases agree.meet start with ⟨-, unfinished | refused⟩ | same
  · exact .inl (.inl (Run.stopped_eq_some.mp unfinished))
  · exact .inl (.inr refused)
  · exact .inr same

/-- A chunk that is known cannot be rendered when no call may be open. -/
theorem includeChunk_shut (params : Params) (known : s.world.chunk? name = some text) :
    (includeChunk (callsWithin 0) name params s).1 = .error .unfinished := by
  have found : (s.world.chunk name).1 = some text := known
  rw [includeChunk, Run.onWorld_bind, found]
  rfl

/-- Both ways to a chunk answer the same and do the same, unless the way through a tag comes to a
limit. -/
theorem includeChunk_alongside (limit : Nat) (name : String) (params : Params)
    (blind : s.world.Blind) :
    let first := includeChunk (callsWithin (limit + 1)) name params s
    let second := includeChunk (callsWithin limit) name params (s.takeUp name)
    (second.1 = .error .unfinished ∨ s.refusals < second.2.refusals) ∨
      (first.1 = second.1 ∧ second.2.world.plain = first.2.world.plain ∧
        ∃ events, first.2.world.journal = events ++ s.world.journal ∧
          second.2.world.journal = events ++ .dispatched .chunk name :: s.world.journal) := by
  intro first second
  have same : (s.takeUp name).world.plain = s.world.plain := rfl
  obtain ⟨answer, plain, probes, deeper, probed⟩ := 
    (World.Move.chunk name : World.Move Snippet.Blind _).same same
  cases found : s.world.chunk? name with
  | none =>
    right
    have first_eq : first = _ := includeChunk_unknown _ params found
    have second_eq : second = _ := includeChunk_unknown _ params (answer.trans found)
    rw [first_eq, second_eq]
    exact ⟨rfl, plain, probes, probed, deeper⟩
  | some text =>
    cases limit with
    | zero => exact .inl (.inl (includeChunk_shut params (answer.trans found)))
    | succ limit =>
    have first_eq : first = _ := includeChunk_known (limit + 1) params found
    have second_eq : second = _ := includeChunk_known limit params (answer.trans found)
    rw [first_eq, second_eq]
    rcases expand_alongside limit text (alongside_chunk name params blind) with
      (unfinished | refused) | ⟨same, there⟩
    · left
      left
      rw [unfinished]
      rfl
    · left
      right
      have grown : s.refusals ≤ (((s.takeUp name).lookUp name).enter params).refusals :=
        Session.refusals_le_of_journal (s := s.takeUp name) deeper
      exact Nat.lt_of_le_of_lt grown refused
    · right
      obtain ⟨events, journal, journal'⟩ := there.journal
      refine ⟨congrArg (Except.map (·, true)) same, there.world, events ++ probes, ?_, ?_⟩
      · rw [List.append_assoc]
        exact journal.trans (congrArg (events ++ ·) probed)
      · rw [List.append_assoc]
        exact journal'.trans (congrArg (events ++ ·) deeper)

theorem includeChunk_still (limit : Nat) {place : Rendered} {dirty : Bool} {t : Session}
    (ended : includeChunk (callsWithin (limit + 1)) name params s = (.ok (place, dirty), t))
    (quiet : t.refusals ≤ s.refusals)
    (settled : s.world.chunk? name ≠ none → t.world.notices.head? ≠ some .exhausted) :
    dirty = true ∧ place.Built ∧ place.Still := by
  cases found : s.world.chunk? name with
  | none =>
    rw [includeChunk_unknown _ params found] at ended
    cases ended
    exact ⟨rfl, .empty, nofun⟩
  | some text =>
    rw [includeChunk_known limit params found] at ended
    rcases inside : expand (callsWithin limit) maxPasses (.ofText text)
      ((s.lookUp name).enter params) with ⟨answer, u⟩
    rw [inside] at ended
    cases answer with
    | error e => cases ended
    | ok result =>
      cases ended
      have grown : s.refusals ≤ ((s.lookUp name).enter params).refusals :=
        Refusals.universal.chunk name s
      have kept := Refusals.universal.callsWithin limit
      exact ⟨rfl, still_of_expand kept maxPasses (.ofText text) inside (settled (by simp [found]))
        (Nat.le_trans quiet grown)⟩

theorem afterTag_obeyed (limit : Nat) (r : Rendered × Bool) :
    Law.refusals.Obeyed (afterPass (callsWithin limit) 9 ({} ++ r.1, r.2)) :=
  afterPass_obeyed (Refusals.universal.callsWithin limit) 9 _

/-- What is rendered around the tag adds nothing to what the chunk gives. -/
theorem render_tag_alongside (limit : Nat) (blind : s.world.Blind)
    (canonical : (Tag.ofChunk name params).Canonical)
    (settles : ∀ r t, includeChunk (callsWithin (limit + 1)) name params s = (.ok r, t) →
      s.world.chunk? name ≠ none → t.world.notices.head? ≠ some .exhausted)
    (unlimited : (render (callsWithin limit) (toString (Tag.ofChunk name params)) {} s).2.refusals =
      s.refusals)
    (finished : (render (callsWithin limit) (toString (Tag.ofChunk name params)) {} s).1 ≠
      .error .unfinished) :
    let named := includeChunk (callsWithin (limit + 1)) name params s
    let tagged := render (callsWithin limit) (toString (Tag.ofChunk name params)) {} s
    tagged.1 = named.1.map Prod.fst ∧ tagged.2.world.plain = named.2.world.plain ∧
      ∃ events, named.2.world.journal = events ++ s.world.journal ∧
        tagged.2.world.journal = events ++ .dispatched .chunk name :: s.world.journal := by
  intro named tagged
  have run : tagged = _ := render_tag canonical unlimited
  have unlimited : tagged.2.refusals = s.refusals := unlimited
  have finished : tagged.1 ≠ .error .unfinished := finished
  have alike := includeChunk_alongside limit name params blind
  rw [Run.bind_apply] at run
  rcases inner : includeChunk (callsWithin limit) name params (s.takeUp name) with ⟨answer, t⟩
  rw [inner] at run alike
  have quiet : t.refusals ≤ s.refusals := by
    rw [← unlimited, run]
    cases answer with
    | ok r => exact afterTag_obeyed limit r t
    | error e => exact Nat.le_refl _
  rcases alike with (rfl | refused) | ⟨same, plain, events, journal, journal'⟩
  · exact absurd (congrArg Prod.fst run) finished
  · exact absurd quiet (Nat.not_le_of_gt refused)
  · cases answer with
    | error e =>
      rw [run]
      exact ⟨(congrArg (Except.map Prod.fst) same).symm, plain, events, journal, journal'⟩
    | ok r =>
      obtain ⟨place, dirty⟩ := r
      have quiet' : named.2.refusals ≤ s.refusals := by
        rw [Session.refusals_of_journal journal]
        rwa [Session.refusals_of_journal (s := s.takeUp name) journal'] at quiet
      have ended : includeChunk (callsWithin (limit + 1)) name params s =
        (.ok (place, dirty), named.2) := Prod.ext same rfl
      obtain ⟨rfl, built, still⟩ := includeChunk_still limit ended quiet' (settles _ _ ended)
      have again := expand_still (callsWithin limit) 8 built still t
      change tagged = ((afterPass (callsWithin limit) 9 ({} ++ place, true) t).1,
        s.leave (afterPass (callsWithin limit) 9 ({} ++ place, true) t).2) at run
      rw [built, afterPass, if_pos rfl, again] at run
      rw [run]
      exact ⟨(congrArg (Except.map Prod.fst) same).symm, plain, events, journal, journal'⟩

theorem render_placeholders (calls : Calls) (text : String) (params : Params) (s : Session) :
    (render calls text params s).2.engine.placeholders = s.engine.placeholders := by
  rw [render, Run.within_apply]
  rfl

theorem renderChunkWithin_apply (limit : Nat) (name : String) (params : Params) (s : Session) :
    (callsWithin limit).renderChunk name params s =
      ((includeChunk (callsWithin limit) name params s).1.map (·.1.flatten),
        (includeChunk (callsWithin limit) name params s).2) := by
  rw [renderChunk_eq]
  exact Run.map_apply ..

end Engine

open Engine

/-- A text that is a chunk tag without entities, backticks and brackets in its values, and the chunk
rendered by its name with the same parameters: both give the same text or fail alike, and leave the
same placeholders, the same world and, but for the tag itself, the same events. The render of the
chunk must settle, no limit may leave a tag alone or stop the render, and no snippet may ask for the
counters. -/
theorem chunk_tag_renders_as_named (limit : Nat) {s : Session} {name : String} {params : Params}
    (canonical : (Tag.ofChunk name params).Canonical) (blind : s.world.Blind)
    (settles : ∀ text t, (callsWithin limit).renderChunk name params s = (.ok text, t) →
      s.world.chunk? name ≠ none → t.world.notices.head? ≠ some .exhausted)
    (unlimited : ((callsWithin limit).renderString (toString (Tag.ofChunk name params)) {}
      s).2.refusals = s.refusals)
    (finished : ((callsWithin limit).renderString (toString (Tag.ofChunk name params)) {} s).1 ≠
      .error .unfinished) :
    let named := (callsWithin limit).renderChunk name params s
    let tagged := (callsWithin limit).renderString (toString (Tag.ofChunk name params)) {} s
    tagged.1 = named.1 ∧ tagged.2.engine.placeholders = named.2.engine.placeholders ∧
      tagged.2.world.plain = named.2.world.plain ∧
      ∃ events, named.2.world.journal = events ++ s.world.journal ∧
        tagged.2.world.journal = events ++ .dispatched .chunk name :: s.world.journal := by
  cases limit with
  | zero => exact absurd rfl finished
  | succ limit =>
  simp only [renderStringWithin_apply, renderChunkWithin_apply] at settles unlimited finished ⊢
  have ends : ∀ r t, includeChunk (callsWithin (limit + 1)) name params s = (.ok r, t) →
      s.world.chunk? name ≠ none → t.world.notices.head? ≠ some .exhausted := by
    intro r t ended
    apply settles r.1.flatten t
    rw [ended]
    rfl
  have answers : (render (callsWithin limit) (toString (Tag.ofChunk name params)) {} s).1 ≠
      .error .unfinished := by
    intro unfinished
    apply finished
    rw [unfinished]
    rfl
  obtain ⟨same, plain, journals⟩ :=
    render_tag_alongside limit blind canonical ends unlimited answers
  have kept : (includeChunk (callsWithin (limit + 1)) name params s).2.engine.placeholders =
    s.engine.placeholders := (Scope.includeChunk (limit + 1) name params s).1
  refine ⟨?_, (render_placeholders _ _ _ s).trans kept.symm, plain, journals⟩
  rw [same]
  rcases (includeChunk (callsWithin (limit + 1)) name params s).1 with e | r <;> rfl

/-! A chunk with a snippet that is called with what the tag hands to the chunk. -/
namespace Greeting

def greet (params : Params) : Action :=
  .announce "greet" params (.set "who" "nobody" (.done ("Hello " ++ params.getD "who" "")))

def card : Params := ⟨[("title", "[A & B]"), ("who", "you")]⟩

def site : Session where
  engine := { placeholders := ⟨[("who", "all")]⟩ }
  world := (({} : World).registerChunk "card"
    "[[+title]]: [[!greet &who=`[[+who]]`]], [[+who]]").registerSnippet "greet" (.program greet)

theorem blind : site.world.Blind := by
  have empty : ({} : World).Blind := nofun
  exact (World.Move.registerSnippet "greet" greet fun _ => trivial).blind
    ((World.Move.registerChunk "card" _).blind empty)

end Greeting

open Greeting in
theorem card_tag_renders_as_named :
    let named := renderNamedChunk "card" card site
    let tagged := renderString (toString (Tag.ofChunk "card" card)) {} site
    named.1 = .ok "[A & B]: Hello you, you" ∧ tagged.1 = named.1 ∧
      tagged.2.engine.placeholders = named.2.engine.placeholders ∧
      ∃ events, named.2.world.journal = events ++ site.world.journal ∧
        tagged.2.world.journal = events ++ .dispatched .chunk "card" :: site.world.journal := by
  have canonical : (Tag.ofChunk "card" card).Canonical :=
    ⟨⟨by decide +kernel, by decide +kernel, by decide +kernel, by decide⟩, by decide +kernel⟩
  have settled : (renderNamedChunk "card" card site).2.world.notices.head? = some (.settled 3) := by
    decide +kernel
  have answered : (renderNamedChunk "card" card site).1 = .ok "[A & B]: Hello you, you" := by
    decide +kernel
  have answered' : (renderString (toString (Tag.ofChunk "card" card)) {} site).1 =
      .ok "[A & B]: Hello you, you" := by
    decide +kernel
  have settles : ∀ text t, renderNamedChunk "card" card site = (.ok text, t) →
      site.world.chunk? "card" ≠ none → t.world.notices.head? ≠ some .exhausted := by
    intro text t ended _
    rw [ended] at settled
    rw [settled]
    nofun
  have unlimited : (renderString (toString (Tag.ofChunk "card" card)) {} site).2.refusals =
      site.refusals := by
    decide +kernel
  have finished : (renderString (toString (Tag.ofChunk "card" card)) {} site).1 ≠
      .error .unfinished := by
    rw [answered']
    nofun
  obtain ⟨same, placeholders, -, journals⟩ :=
    chunk_tag_renders_as_named callLimit canonical blind settles unlimited finished
  exact ⟨answered, same, placeholders, journals⟩

end DocSite.Template
