import DocSite.Proofs.Coupling
import DocSite.Proofs.Sweep

/-! Tags that are put off are evaluated after all others. A render of a template whose snippets
render nothing themselves comes to what two phases come to: one for the tags that are not deferred,
and one for those that are. -/
namespace DocSite.Template

/-- The part of a template: text without brackets, or a tag that is not for a chunk and whose values
hold neither brackets of a tag nor entities. -/
inductive Part.Plain : Part → Prop where
  | text {content : String} : BracketFree content.toList → Plain (.text content)
  | tag {h : Head} {given : List (List Char × List Char)} {source : List Char} :
    Spells Quoted h given source → h.kind ≠ .chunk →
    (∀ p ∈ given, ¬ ['[', '['] <:+: p.2 ∧ EntityFree p.2) → Plain (.tag (.of h given) source)

theorem shut_of_spells {h : Head} {given : List (List Char × List Char)} {source : List Char}
    (spells : Spells Quoted h given source) (closed : ∀ p ∈ given, ¬ ['[', '['] <:+: p.2) :
    ∀ p ∈ given, Sealed p.2 := by
  obtain @⟨_, formed, follows⟩ := spells
  obtain @⟨params, ending, written, few, -⟩ := follows
  exact fun p member => .of_closed (backtick_of_quoted written p member) (closed p member)

namespace Tag

theorem parameter_of_mem_of {h : Head} {given : List (List Char × List Char)} {p : String × String}
    (member : p ∈ (Tag.of h given).params.entries) : ∃ q ∈ given, parameter q = p := by
  rcases Bindings.mem_of_mem_extend member with none | new
  · cases none
  · exact List.mem_map.mp new

theorem wellFormed_of_spells {h : Head} {given : List (List Char × List Char)} {source : List Char}
    (spells : Spells Quoted h given source) : (Tag.of h given).WellFormed := by
  obtain @⟨_, formed, follows⟩ := spells
  obtain @⟨params, ending, written, few, -⟩ := follows
  have head : (Tag.of h given).head = h := by simp [Tag.head, Tag.of]
  have nothing : Bindings.empty.Distinct := List.nodup_nil
  refine ⟨?_, fun p member => ?_, Bindings.distinct_extend nothing _, fun placeholder => ?_⟩
  · rw [head]
    exact formed
  · obtain ⟨q, found, rfl⟩ := parameter_of_mem_of member
    rw [parameter, String.toList_ofList]
    exact names_of_parameters written q found
  · rw [Tag.of, few placeholder]
    rfl

end Tag

namespace Part

theorem Plain.text_kind {part : Part} (plain : part.Plain) : part.kind = .text := by
  cases plain <;> rfl

theorem Plain.legible {part : Part} (plain : part.Plain) : part.Legible := by
  cases plain with
  | text free => exact free
  | tag spells kind values =>
    exact begins_of_spells spells (shut_of_spells spells fun p member => (values p member).1)

/-- A tag that is put off is read again as it is, without its mark. -/
theorem Plain.legible_undeferred {part : Part} (plain : part.Plain) : part.undeferred.Legible := by
  cases plain with
  | text free => exact free
  | @tag h given source spells kind values =>
    have formed := Tag.wellFormed_of_spells spells
    have value : ∀ p ∈ (Tag.of h given).params.entries, Sealed p.2.toList ∧ EntityFree p.2.toList := by
      intro p member
      obtain ⟨q, found, rfl⟩ := Tag.parameter_of_mem_of member
      obtain ⟨closed, free⟩ := values q found
      rw [parameter, String.toList_ofList, decode_eq_self_iff.mpr free]
      exact ⟨shut_of_spells spells (fun p member => (values p member).1) q found, free⟩
    have later : (Tag.of h given).undeferred.WellFormed :=
      ⟨⟨formed.head.named, formed.head.chars⟩, formed.params, formed.distinct, formed.placeholder⟩
    have same : (Tag.of h given).undeferred.decoded = (Tag.of h given).undeferred :=
      Tag.decoded_eq_self_iff.mpr fun p member => (value p member).2
    intro rest
    have reread := Tag.chars_reread later (fun p member => (value p member).1) rest
    rwa [same] at reread

theorem Plain.tag_kind {part : Part} (plain : part.Plain) {t : Tag} (found : part.tag? = some t) :
    t.kind ≠ .chunk := by
  cases plain with
  | text => cases found
  | tag spells kind values =>
    cases found
    exact kind

theorem write_text {parts : List Part} (text : ∀ part ∈ parts, part.kind = .text) (out : Rendered) :
    write parts out = out.pushText (flat parts) := by
  induction parts generalizing out with
  | nil => rfl
  | cons part rest ih =>
    obtain ⟨here, later⟩ := List.forall_mem_cons.mp text
    have step : write (part :: rest) out = write rest (out.push part.kind part.source) := rfl
    rw [step, ih later, here, flat_cons, Rendered.pushText, Rendered.pushText, Rendered.push_push]

theorem map_undeferred_of_tags {parts : List Part} (untagged : tags parts = []) :
    parts.map undeferred = parts := by
  refine (List.map_congr_left fun part member => ?_).trans (List.map_id _)
  exact undeferred_of_tagless (List.filterMap_eq_nil_iff.mp untagged part member)

theorem tags_map_undeferred (parts : List Part) :
    tags (parts.map undeferred) = (tags parts).map Tag.undeferred := by
  induction parts with
  | nil => rfl
  | cons part rest ih =>
    rw [List.map_cons, tags_cons, tags_cons, ih, List.map_append]
    cases part <;> rfl

theorem phase_untagged {parts : List Part} (untagged : tags parts = []) (calls : Calls)
    (deferred : Bool) : phase calls deferred parts = pure parts := by
  induction parts with
  | nil => rfl
  | cons part rest ih =>
    rw [tags_cons, List.append_eq_nil_iff] at untagged
    have here : part.evaluate calls deferred = pure part := by
      cases part with
      | text | value => rfl
      | tag => cases untagged.1
    have later := ih untagged.2
    rw [phase] at later
    rw [phase, List.mapM_cons, here, later, pure_bind, pure_bind]

/-- Deferred tags that have lost their mark are evaluated in their turn. -/
theorem phase_undeferred {parts : List Part} (deferred : ∀ t ∈ tags parts, t.deferred = true)
    (calls : Calls) : phase calls false (parts.map undeferred) = phase calls true parts := by
  induction parts with
  | nil => rfl
  | cons part rest ih =>
    rw [tags_cons, List.forall_mem_append] at deferred
    have here : part.undeferred.evaluate calls false = part.evaluate calls true := by
      cases part with
      | text | value => rfl
      | tag t source =>
        have marked : t.deferred = true := deferred.1 t (List.mem_singleton_self t)
        rw [evaluate, if_pos marked]
        rfl
    have later := ih deferred.2
    rw [phase, phase] at later
    rw [phase, phase, List.map_cons, List.mapM_cons, List.mapM_cons, here, later]

end Part

namespace Tag

theorem filter_undeferred (tags : List Tag) :
    (tags.map undeferred).filter (!·.deferred) = tags.map undeferred :=
  List.filter_eq_self.mpr (List.forall_mem_map.mpr fun _ _ => rfl)

theorem filter_deferred_undeferred (tags : List Tag) :
    (tags.map undeferred).filter (·.deferred) = [] :=
  List.filter_eq_nil_iff.mpr (List.forall_mem_map.mpr fun _ _ => Bool.false_ne_true)

end Tag

/-- What is left of a template is read as such in the next pass. -/
theorem Swept.legible_undeferred {Safe : World → Prop} {parts after : List Part}
    {visits : List Visit} {s t : Session} (swept : Swept Safe parts after visits s t)
    (plain : ∀ part ∈ parts, part.Plain) : ∀ part ∈ after.map Part.undeferred, part.Legible := by
  rw [List.forall_mem_map]
  intro part member
  rcases swept.parts part member with old | ⟨untagged, new⟩
  · exact (plain part old).legible_undeferred
  · rw [Part.undeferred_of_tagless untagged]
    exact new

/-! Passes, until one finds no tag -/

/-- The session when one more pass begins. -/
def Session.pass (s : Session) : Session := { s with engine := s.engine.countPass }

/-- The engine after so many passes. -/
def Engine.passed (passes : Nat) (e : Engine) : Engine :=
  { e with stats := { e.stats with passes := e.stats.passes + passes } }

namespace Traced

variable {calls : Calls} (render : String → Params → Traced Rendered) {parts : List Part}

/-- A pass does what the parts ask for. -/
theorem expand_write (legible : ∀ part ∈ parts, part.Legible) (passes : Nat) (s : Session)
    (seen : List Visit) : expand calls render (passes + 1) (Part.write parts {}) (s, seen) =
      (Part.resolveAll (dispatch calls render) parts {} false >>= fun x =>
        if x.2 then expand calls render passes x.1
        else do
          lift (Run.note (.settled (maxPasses - passes)))
          pure x.1) (s.pass, seen) := by
  rw [← passOver_write (dispatch calls render) legible]
  rfl

/-- A pass that finds no tag is the last one. -/
theorem expand_untagged (legible : ∀ part ∈ parts, part.Legible) (untagged : Part.tags parts = [])
    (passes : Nat) (s : Session) (seen : List Visit) :
    expand calls render (passes + 1) (Part.write parts {}) (s, seen) =
      (.ok (Part.write parts {}),
        ⟨s.engine.countPass, s.world.note (.settled (maxPasses - passes))⟩, seen) := by
  rw [expand_write render legible, Part.resolveAll_untagged untagged]
  rfl

/-- A pass that finds tags evaluates those that are not deferred, and takes the mark from the others. -/
theorem expand_swept {Safe : World → Prop}
    (plain : ∀ u v : World, u.plain = v.plain → Safe u → Safe v)
    (legible : ∀ part ∈ parts, part.Legible) (tagged : Part.tags parts ≠ [])
    (able : ∀ t ∈ Part.tags parts, t.kind ≠ .chunk ∧ (t.kind = .snippet → t.Answered calls Safe))
    (passes : Nat) {s : Session} (safe : Safe s.world) (free : s.engine.mayDescend = true)
    (seen : List Visit) : ∃ after t visits, Part.phase calls false parts s.pass = (.ok after, t) ∧
      expand calls render (passes + 1) (Part.write parts {}) (s, seen) =
        expand calls render passes (Part.write (after.map Part.undeferred) {}) (t, seen ++ visits) ∧
      Swept Safe parts after visits s.pass t := by
  obtain ⟨after, t, visits, evaluated, resolved, swept⟩ :=
    parts_swept render plain parts able (s := s.pass) safe free seen {} false
  refine ⟨after, t, visits, evaluated, ?_, swept⟩
  have dirty : (!(Part.tags parts).isEmpty) = true := by simpa using tagged
  rw [expand_write render legible, Work.bind_apply, resolved]
  simp only [dirty, Bool.false_or, if_true]

/-- Two passes do what two phases do, and a third one finds no tag. -/
theorem expand_two_phases {Safe : World → Prop} {tpl : List Part}
    (plain : ∀ u v : World, u.plain = v.plain → Safe u → Safe v)
    (parts : ∀ part ∈ tpl, part.Plain)
    (answered : ∀ t ∈ Part.tags tpl, t.kind = .snippet → t.Answered calls Safe)
    {s : Session} (safe : Safe s.world) (free : s.engine.mayDescend = true) :
    ∃ first t second u visits passes e,
      Part.phase calls false tpl s.pass = (.ok first, t) ∧
      Part.phase calls true first t.pass = (.ok second, u) ∧
      Part.tags second = [] ∧
      expand calls render maxPasses (Part.write tpl {}) (s, []) =
        (.ok (Part.write second {}), ⟨e, u.world.note (.settled passes)⟩, visits) ∧
      visits.map Visit.evaluated? = ((Part.tags tpl).filter (!·.deferred) ++
        ((Part.tags tpl).filter (·.deferred)).map Tag.undeferred).map some ∧
      e = { s.engine.passed passes with placeholders := e.placeholders } ∧ passes ≤ 3 := by
  have legible : ∀ part ∈ tpl, part.Legible := fun part member => (parts part member).legible
  have able : ∀ t ∈ Part.tags tpl, t.kind ≠ .chunk ∧ (t.kind = .snippet → t.Answered calls Safe) := by
    intro t member
    obtain ⟨part, found, tagged⟩ := List.mem_filterMap.mp member
    exact ⟨(parts part found).tag_kind tagged, answered t member⟩
  by_cases tagged : Part.tags tpl = []
  · refine ⟨tpl, s.pass, tpl, s.pass.pass, [], 1, s.engine.countPass, ?_, ?_, tagged,
      expand_untagged render legible tagged 9 s [], ?_, rfl, by decide⟩
    · rw [Part.phase_untagged tagged, Run.pure_apply]
    · rw [Part.phase_untagged tagged, Run.pure_apply]
    · rw [tagged]
      rfl
  obtain ⟨first, t, visits, evaluated, passed, swept⟩ :=
    expand_swept render plain legible tagged able 9 (s := s) safe free []
  have later := swept.legible_undeferred parts
  by_cases deferred : Part.tags first = []
  · have same := Part.map_undeferred_of_tags deferred
    rw [same] at later passed
    refine ⟨first, t, first, t.pass, visits, 2, t.engine.countPass, evaluated, ?_, deferred,
      passed.trans (expand_untagged render later deferred 8 t _), ?_, ?_, by decide⟩
    · rw [Part.phase_untagged deferred, Run.pure_apply]
    · rw [swept.visits, ← swept.tags, deferred, List.map_nil, List.append_nil]
    · rw [swept.kept.engine]
      rfl
  have marked : ∀ t ∈ Part.tags first, t ∈ Part.tags tpl ∧ t.deferred = true := fun t member => by
    rw [swept.tags] at member
    exact List.mem_filter.mp member
  have put : Part.tags (first.map Part.undeferred) = (Part.tags first).map Tag.undeferred :=
    Part.tags_map_undeferred first
  have tagged' : Part.tags (first.map Part.undeferred) ≠ [] := by
    rw [put]
    exact mt List.map_eq_nil_iff.mp deferred
  obtain ⟨second, u, visits', evaluated', passed', swept'⟩ :=
    expand_swept render plain later tagged' (by
      rw [put, List.forall_mem_map]
      exact fun t member => able t (marked t member).1) 8 swept.kept.safe
      (swept.kept.mayDescend.trans free) ([] ++ visits)
  have rest : Part.tags second = [] := by
    rw [swept'.tags, put, Tag.filter_deferred_undeferred]
  have last : ∀ part ∈ second, part.Legible := fun part member =>
    (swept'.parts part member).elim (later part) And.right
  rw [Part.map_undeferred_of_tags rest] at passed'
  refine ⟨first, t, second, u, visits ++ visits', 3, u.engine.countPass, evaluated, ?_, rest,
    (passed.trans passed').trans (expand_untagged render last rest 7 u _), ?_, ?_, by decide⟩
  · rw [← Part.phase_undeferred fun t member => (marked t member).2]
    exact evaluated'
  · rw [List.map_append, swept.visits, swept'.visits, put, Tag.filter_undeferred, ← swept.tags,
      List.map_append]
  · rw [swept'.kept.engine, Session.pass, swept.kept.engine]
    rfl

end Traced

/-! Snippets that answer -/

/-- The action ends with text without brackets. It does not fail, render or run a snippet. -/
def Action.Modest : Action → Prop
  | .done text => BracketFree text.toList
  | .fail _ | .render .. | .renderChunk .. | .runSnippet .. => False
  | .set _ _ next | .registerChunk _ _ next | .announce _ _ next => next.Modest
  | .unset _ next => ∀ was, (next was).Modest
  | .get _ next | .chunk _ next => ∀ found, (next found).Modest
  | .registerSnippet _ start next => (∀ params, (start params).Modest) ∧ next.Modest
  | .stats next => ∀ stats, (next stats).Modest
  | .count _ next => ∀ value, (next value).Modest

def Snippet.Modest : Snippet → Prop
  | .program start => ∀ params, (start params).Modest
  | .script _ => False

/-- The action answers with text without brackets and keeps all but placeholders. -/
def Action.Ends (calls : Calls) (act : Action) (s : Session) : Prop :=
  ∃ text t, act.run calls s = (.ok (.ok text), t) ∧ BracketFree text.toList ∧
    Kept (World.Knows Snippet.Modest) s t

theorem Action.Ends.after {calls : Calls} {act next : Action} {s t : Session}
    (ends : next.Ends calls t) (step : act.run calls s = next.run calls t)
    (kept : Kept (World.Knows Snippet.Modest) s t) : act.Ends calls s := by
  obtain ⟨text, u, run, free, later⟩ := ends
  exact ⟨text, u, step.trans run, free, kept.trans later⟩

theorem Action.Modest.ends (calls : Calls) {act : Action} (modest : act.Modest) :
    ∀ {s : Session}, s.world.Knows Snippet.Modest → act.Ends calls s := by
  induction act with
  | done text => exact fun {s} knows => ⟨text, s, rfl, modest, knows, rfl⟩
  | fail | render | renderChunk | runSnippet => exact modest.elim
  | set name value next ih =>
    intro s knows
    let e : Engine := { s.engine with placeholders := s.engine.placeholders.insert name value }
    exact (ih modest (s := { s with engine := e }) knows).after rfl ⟨knows, rfl⟩
  | unset name next ih =>
    intro s knows
    let e : Engine := { s.engine with placeholders := s.engine.placeholders.erase name }
    exact (ih _ (modest _) (s := { s with engine := e }) knows).after rfl ⟨knows, rfl⟩
  | get name next ih => exact fun {s} knows => (ih _ (modest _) knows).after rfl ⟨knows, rfl⟩
  | stats next ih => exact fun {s} knows => (ih _ (modest _) knows).after rfl ⟨knows, rfl⟩
  | chunk name next ih =>
    intro s knows
    have knows' := (World.Move.chunk name).knows knows
    exact (ih _ (modest _) (s := { s with world := (s.world.chunk name).2 }) knows').after rfl
      ⟨knows', rfl⟩
  | registerChunk name text next ih =>
    intro s knows
    have knows' := (World.Move.registerChunk name text).knows knows
    exact (ih modest (s := { s with world := s.world.registerChunk name text }) knows').after rfl
      ⟨knows', rfl⟩
  | registerSnippet name start next _ ih =>
    intro s knows
    have knows' := (World.Move.registerSnippet name start modest.1).knows knows
    exact (ih modest.2 (s := { s with world := s.world.registerSnippet name (.program start) })
      knows').after rfl ⟨knows', rfl⟩
  | count counter next ih =>
    intro s knows
    have knows' := (World.Move.count counter).knows knows
    exact (ih _ (modest _) (s := ⟨s.engine, _⟩) knows').after rfl ⟨knows', rfl⟩
  | announce name params next ih =>
    intro s knows
    have knows' := (World.Move.record (.called name params.entries) rfl).knows knows
    exact (ih modest (s := ⟨s.engine, _⟩) knows').after rfl ⟨knows', rfl⟩

/-- Where names lead to modest snippets only, those of any tags answer. -/
theorem World.Knows.answers {w : World} (knows : w.Knows Snippet.Modest) (calls : Calls)
    (tags : List Tag) : w.Answers calls tags := by
  refine ⟨World.Knows Snippet.Modest, knows, fun u v same knows name snippet found => ?_,
    fun tag _ _ s knows => ?_⟩
  · have move : World.Move (fun _ => True) (·.snippet name) := .snippet name
    obtain ⟨answer, -⟩ := move.same same
    exact knows name snippet (answer.trans found)
  · let found : Session := { s with world := (s.world.snippet tag.name).2 }
    have knows' : found.world.Knows Snippet.Modest := (World.Move.snippet tag.name).knows knows
    rw [Engine.runSnippet, Run.onWorld_bind]
    cases leads : (s.world.snippet tag.name).1 with
    | none => exact ⟨"", found, rfl, by decide, knows', rfl⟩
    | some snippet =>
      have modest := knows tag.name snippet leads
      cases snippet with
      | script path => exact modest.elim
      | program start =>
        obtain ⟨text, t, run, free, kept⟩ := (modest tag.params).ends calls knows'
        refine ⟨text, t, ?_, free, kept.safe, kept.engine⟩
        change ((start tag.params).run calls >>= Run.accept tag.name) found = _
        rw [Run.bind_apply, run]
        rfl

theorem World.Knows.register {w : World} (knows : w.Knows Snippet.Modest) (name : String)
    (start : Params → Action) (modest : ∀ params, (start params).Modest) :
    (w.registerSnippet name (.program start)).Knows Snippet.Modest :=
  (World.Move.registerSnippet name start modest).knows knows

theorem Part.Plain.of_canonical {tag : Tag} (canonical : tag.Canonical) (kind : tag.kind ≠ .chunk) :
    Part.Plain (.tag tag tag.chars) := by
  have spells := Tag.chars_spelled canonical.toWellFormed fun p member =>
    (canonical.values p member).1
  have same : Tag.of tag.head tag.given = tag := by
    rw [Tag.of_given canonical.toWellFormed]
    exact Tag.decoded_eq_self_iff.mpr fun p member => (canonical.values p member).2.2
  have plain := Part.Plain.tag spells kind (List.forall_mem_map.mpr fun p member =>
    (canonical.values p member).2)
  rwa [same] at plain

/-- An outermost render is free to take up tags. -/
theorem Session.mayDescend_enter {s : Session} (outermost : s.engine.depth = 0) (params : Params) :
    (s.enter params).engine.mayDescend = true := by
  simp [Session.enter, Engine.enter, Engine.mayDescend, outermost, maxDepth, maxNestedRenders]

/-- A render of a template comes to what two phases come to, the first for the tags that are not
deferred, and the second for the others, with the placeholders that the first has left. Each tag is
visited once, in this order, and the render settles within three passes. So it is whatever number of
calls may be open besides the render. -/
theorem render_in_two_phases (limit : Nat) (parts : List Part) (params : Params) (s : Session)
    (plain : ∀ part ∈ parts, part.Plain)
    (answers : s.world.Answers (Engine.callsWithin limit) (Part.tags parts))
    (free : (s.enter params).engine.mayDescend = true) :
    ∃ first t second u visits passes,
      Part.phase (Engine.callsWithin limit) false parts (s.enter params).pass =
        (.ok first, t) ∧
      Part.phase (Engine.callsWithin limit) true first t.pass = (.ok second, u) ∧
      Part.tags second = [] ∧
      (Engine.callsWithin (limit + 1)).renderString (Part.flat parts) params s =
        (.ok (Part.flat second),
          ⟨s.engine.leave ((s.enter params).engine.passed passes), u.world.note (.settled passes)⟩) ∧
      (Traced.renderString (limit + 1) (Part.flat parts) params (s, [])).2.2 = visits ∧
      visits.map Visit.evaluated? = ((Part.tags parts).filter (!·.deferred) ++
        ((Part.tags parts).filter (·.deferred)).map Tag.undeferred).map some ∧
      passes ≤ 3 := by
  obtain ⟨Safe, safe, aside, answered⟩ := answers
  have entered : Safe (s.enter params).world := aside s.world _ rfl safe
  obtain ⟨first, t, second, u, visits, passes, e, evaluated, evaluated', untagged, expanded, visited,
    engine, few⟩ := Traced.expand_two_phases (Traced.render limit) aside plain answered
      entered free
  have outer : Traced.render (limit + 1) (Part.flat parts) params = Traced.within params
      (Traced.expand (Engine.callsWithin limit) (Traced.render limit) maxPasses
        (Rendered.ofText (Part.flat parts))) := rfl
  have source : Rendered.ofText (Part.flat parts) = Part.write parts {} :=
    (Part.write_text (fun part member => (plain part member).text_kind) {}).symm
  have left : s.engine.leave e = s.engine.leave ((s.enter params).engine.passed passes) := by
    rw [engine]
    rfl
  have traced : Traced.renderString (limit + 1) (Part.flat parts) params (s, []) =
      (.ok (Part.flat second),
        ⟨s.engine.leave ((s.enter params).engine.passed passes), u.world.note (.settled passes)⟩,
        visits) := by
    have text : (Part.write second {}).flatten = Part.flat second := by
      rw [Part.flatten_write, Rendered.flatten_empty, String.empty_append]
    rw [Traced.renderString, Work.bind_apply, outer, source, Traced.within, expanded, ← text, ← left]
    rfl
  obtain ⟨_, told, -⟩ := Tells.renderString (limit + 1) (Part.flat parts) params s []
  rw [traced] at told
  obtain ⟨answer, session⟩ := Prod.mk.inj told
  refine ⟨first, t, second, u, visits, passes, evaluated, evaluated', untagged, ?_, ?_, visited, few⟩
  · exact Prod.ext answer.symm (Prod.mk.inj session).1.symm
  · rw [traced]

/-! Snippets that set, unset and ask for a placeholder, in tags that are put off and others. -/
namespace Later

def shelf : World := ((({} : World).registerSnippet "put"
    (.program fun params => .set "x" (params.getD "v" "") (.done ""))).registerSnippet "drop"
    (.program fun _ => .unset "x" fun was => .done (if was then "" else "?"))).registerSnippet "state"
    (.program fun _ => .get "x" fun found => .done (if found.isSome then "on" else "off"))

def tags : List Tag :=
  [⟨true, .snippet, "state", {}⟩, ⟨false, .placeholder, "x", {}⟩, ⟨false, .snippet, "drop", {}⟩,
    ⟨true, .snippet, "put", ⟨[("v", "1]")]⟩⟩, ⟨false, .snippet, "state", {}⟩,
    ⟨true, .placeholder, "x", {}⟩]

/-- Each tag with a blank behind it. -/
def parts : List Part := tags.flatMap fun t => [.tag t t.chars, .text " "]

def params : Params := ⟨[("x", "[[0]]")]⟩

theorem plain : ∀ part ∈ parts, part.Plain := by
  have canonical : ∀ t ∈ tags, t.Canonical := by
    have head : ∀ t ∈ tags, t.head.WellFormed := by decide +kernel
    have named : ∀ t ∈ tags, ∀ p ∈ t.params.entries, p.1.toList ≠ [] ∧
        ∀ c ∈ p.1.toList, isParamChar c = true := by decide +kernel
    have distinct : ∀ t ∈ tags, t.params.Distinct := by decide +kernel
    have placeholder : ∀ t ∈ tags, t.kind = .placeholder → t.params.entries = [] := by decide +kernel
    have values : ∀ t ∈ tags, ∀ p ∈ t.params.entries, '\x60' ∉ p.2.toList ∧
        ¬ ['[', '['] <:+: p.2.toList ∧ EntityFree p.2.toList := by decide +kernel
    exact fun t member => ⟨⟨head t member, named t member, distinct t member, placeholder t member⟩,
      values t member⟩
  have kinds : ∀ t ∈ tags, t.kind ≠ .chunk := by decide
  intro part member
  obtain ⟨t, found, here⟩ := List.mem_flatMap.mp member
  rcases List.mem_cons.mp here with rfl | blank
  · exact .of_canonical (canonical t found) (kinds t found)
  · rw [List.mem_singleton.mp blank]
    exact .text (by decide)

theorem modest : shelf.Knows Snippet.Modest := by
  have empty : ({} : World).Knows Snippet.Modest := nofun
  refine ((empty.register _ _ ?_).register _ _ ?_).register _ _ ?_
  · intro params
    change BracketFree "".toList
    decide
  · rintro params (_ | _)
    · change BracketFree "?".toList
      decide
    · change BracketFree "".toList
      decide
  · rintro params (_ | _)
    · change BracketFree "off".toList
      decide
    · change BracketFree "on".toList
      decide

end Later

open Later in
theorem later_in_two_phases :
    (∀ part ∈ parts, part.Plain) ∧
    shelf.Answers (Engine.callsWithin (callLimit - 1)) (Part.tags parts) ∧
    ((Session.mk {} shelf).enter params).engine.mayDescend = true ∧
    (Engine.renderString (Part.flat parts) params ⟨{}, shelf⟩).1 = .ok "off [[0]]   off 1] " ∧
    (Traced.renderString callLimit (Part.flat parts) params
      (⟨{}, shelf⟩, [])).2.2.map Visit.evaluated? =
      ([⟨false, .placeholder, "x", {}⟩, ⟨false, .snippet, "drop", {}⟩, ⟨false, .snippet, "state", {}⟩,
        ⟨false, .snippet, "state", {}⟩, ⟨false, .snippet, "put", ⟨[("v", "1]")]⟩⟩,
        ⟨false, .placeholder, "x", {}⟩] : List Tag).map some := by
  have answers := modest.answers (Engine.callsWithin (callLimit - 1)) (Part.tags parts)
  have free := Session.mayDescend_enter (s := ⟨{}, shelf⟩) rfl params
  have answer : (Engine.renderString (Part.flat parts) params ⟨{}, shelf⟩).1 =
      .ok "off [[0]]   off 1] " := by decide +kernel
  obtain ⟨_, _, _, _, visits, _, -, -, -, -, told, visited, -⟩ :=
    render_in_two_phases (callLimit - 1) parts params ⟨{}, shelf⟩ plain answers free
  refine ⟨plain, answers, free, answer, ?_⟩
  have whole : callLimit - 1 + 1 = callLimit := rfl
  rw [← whole, told, visited]
  decide +kernel

end DocSite.Template
