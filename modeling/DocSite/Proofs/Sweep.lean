import DocSite.Proofs.Parts

/-! What one pass makes of a template. It evaluates the tags that are not deferred from left to
right, and takes the mark from the others. -/
namespace DocSite.Template

/-- What a tag stands for: the value of a placeholder, or the text of a snippet. -/
def Tag.evaluate (calls : Calls) (tag : Tag) : Run Part :=
  if tag.kind.isPlaceholder then do
    let e ← Run.engine
    pure (.value (e.placeholders.getD tag.name ""))
  else do
    Run.record (.dispatched tag.kind tag.name)
    return .text (← Engine.runSnippet calls tag.name tag.params)

namespace Part

def tag? : Part → Option Tag
  | .tag t _ => some t
  | .text _ | .value _ => none

/-- The tags of a template, from left to right. -/
def tags (parts : List Part) : List Tag := parts.filterMap tag?

/-- Evaluates a tag that is deferred, or one that is not. -/
def evaluate (calls : Calls) (deferred : Bool) : Part → Run Part
  | .tag t source => if t.deferred = deferred then t.evaluate calls else pure (.tag t source)
  | .text content => pure (.text content)
  | .value content => pure (.value content)

/-- Evaluates all tags that are deferred, or all that are not, from left to right. -/
def phase (calls : Calls) (deferred : Bool) (parts : List Part) : Run (List Part) :=
  parts.mapM (evaluate calls deferred)

end Part

/-- In all these worlds the snippet of the tag answers with text without brackets. It does not
render, and of its engine it changes nothing but the placeholders. -/
def Tag.Answered (calls : Calls) (Safe : World → Prop) (tag : Tag) : Prop :=
  ∀ s : Session, Safe s.world → ∃ text t,
    Engine.runSnippet calls tag.name tag.params s = (.ok text, t) ∧ BracketFree text.toList ∧
      Safe t.world ∧ t.engine = { s.engine with placeholders := t.engine.placeholders }

/-- From this world on the snippets of the tags answer, whatever they make of the world in turn. -/
def World.Answers (w : World) (calls : Calls) (tags : List Tag) : Prop :=
  ∃ Safe : World → Prop, Safe w ∧ (∀ u v : World, u.plain = v.plain → Safe u → Safe v) ∧
    ∀ tag ∈ tags, tag.kind = .snippet → tag.Answered calls Safe

/-- The tag that a visit has evaluated. -/
def Visit.evaluated? : Visit → Option Tag
  | .placeholder tag | .snippet tag (.ok _) => some tag
  | .snippet _ (.error _) | .chunk _ | .refused _ => none

namespace Traced

theorem includeSnippet_of_ok {calls : Calls} {tag : Tag} {s t : Session} {text : String}
    (run : Engine.runSnippet calls tag.name tag.params s = (.ok text, t)) (seen : List Visit) :
    includeSnippet calls tag (s, seen) =
      (.ok (Rendered.ofText text, true), t, seen ++ [.snippet tag (.ok text)]) := by
  rw [Engine.runSnippet, Run.onWorld_bind] at run
  rw [includeSnippet, Work.bind_apply]
  simp only [lift, Run.onWorld]
  cases found : (s.world.snippet tag.name).1 with
  | none =>
    rw [found] at run
    cases run
    rfl
  | some snippet =>
    rw [found] at run
    simp only [Engine.execute_eq] at run
    obtain ⟨answer, between, answered, accepted⟩ := Work.ok_of_bind run
    cases answer with
    | error cause => cases accepted
    | ok text =>
      cases accepted
      simp only [Work.bind_apply, lift, answered]
      rfl

end Traced

namespace Part

/-- The part as the next pass gets it. -/
def undeferred : Part → Part
  | .tag t _ => .tag t.undeferred t.undeferred.chars
  | .text content => .text content
  | .value content => .value content

theorem tags_append (a b : List Part) : tags (a ++ b) = tags a ++ tags b := List.filterMap_append

theorem tags_cons (part : Part) (parts : List Part) :
    tags (part :: parts) = part.tag?.toList ++ tags parts := by
  cases part with
  | text | value | tag => rfl

theorem undeferred_of_tagless {part : Part} (tagless : part.tag? = none) : part.undeferred = part := by
  cases part with
  | text | value => rfl
  | tag => cases tagless

theorem append_push (out : Rendered) (part : Part) :
    out ++ Rendered.push part.kind part.source {} = out.push part.kind part.source :=
  Rendered.append_push out {} part.kind part.source

theorem resolveAll_untagged {parts : List Part} (untagged : tags parts = []) {m : Type → Type}
    [Monad m] (dispatch : Dispatcher m) (out : Rendered) (dirty : Bool) :
    resolveAll dispatch parts out dirty = pure (write parts out, dirty) := by
  induction parts generalizing out with
  | nil => rfl
  | cons part rest ih =>
    rw [tags_cons, List.append_eq_nil_iff] at untagged
    cases part with
    | text | value => exact ih untagged.2 _
    | tag => cases untagged.1

end Part

/-- Nothing of the engine has changed but the placeholders, and the world is still safe. -/
structure Kept (Safe : World → Prop) (s t : Session) : Prop where
  safe : Safe t.world
  engine : t.engine = { s.engine with placeholders := t.engine.placeholders }

theorem Kept.trans {Safe : World → Prop} {s t u : Session} (first : Kept Safe s t)
    (second : Kept Safe t u) : Kept Safe s u :=
  ⟨second.safe, by rw [second.engine, first.engine]⟩

theorem Kept.mayDescend {Safe : World → Prop} {s t : Session} (kept : Kept Safe s t) :
    t.engine.mayDescend = s.engine.mayDescend := by
  rw [kept.engine]
  rfl

/-- What becomes of some parts when their tags that are not deferred are evaluated. -/
structure Swept (Safe : World → Prop) (parts after : List Part) (visits : List Visit)
    (s t : Session) : Prop where
  visits : visits.map Visit.evaluated? = ((Part.tags parts).filter (!·.deferred)).map some
  tags : Part.tags after = (Part.tags parts).filter (·.deferred)
  parts : ∀ part ∈ after, part ∈ parts ∨ part.tag? = none ∧ part.Legible
  kept : Kept Safe s t

theorem Swept.append {Safe : World → Prop} {parts after parts' after' : List Part}
    {visits visits' : List Visit} {s t u : Session} (first : Swept Safe parts after visits s t)
    (second : Swept Safe parts' after' visits' t u) :
    Swept Safe (parts ++ parts') (after ++ after') (visits ++ visits') s u where
  visits := by
    rw [List.map_append, first.visits, second.visits, Part.tags_append, List.filter_append,
      List.map_append]
  tags := by
    rw [Part.tags_append, first.tags, second.tags, Part.tags_append, List.filter_append]
  parts part member := by
    rcases List.mem_append.mp member with here | later
    · exact (first.parts part here).imp_left (List.mem_append_left _)
    · exact (second.parts part later).imp_left (List.mem_append_right _)
  kept := first.kept.trans second.kept

section Sweeping

variable {calls : Calls} {Safe : World → Prop} (render : String → Params → Traced Rendered)
  (plain : ∀ u v : World, u.plain = v.plain → Safe u → Safe v)

include plain in
/-- A tag is evaluated as it is dispatched. -/
theorem dispatch_evaluates {tag : Tag} (kind : tag.kind ≠ .chunk)
    (answered : tag.kind = .snippet → tag.Answered calls Safe) (source : List Char) {s : Session}
    (safe : Safe s.world) (free : s.engine.mayDescend = true) (seen : List Visit) :
    ∃ part t visit, tag.evaluate calls s = (.ok part, t) ∧
      Traced.dispatch calls render tag source (s, seen) =
        (.ok (Rendered.push part.kind part.source {}, true), t, seen ++ [visit]) ∧
      visit.evaluated? = some tag ∧ part.tag? = none ∧ part.Legible ∧ Kept Safe s t := by
  obtain ⟨deferred, k, name, params⟩ := tag
  cases k with
  | chunk => exact absurd rfl kind
  | placeholder | starred => exact ⟨.value _, s, _, rfl, rfl, rfl, rfl, trivial, safe, rfl⟩
  | snippet =>
    let noted : Session := { s with world := s.world.record (.dispatched .snippet name) }
    obtain ⟨text, t, run, bracketFree, safe', engine⟩ := answered rfl noted (plain s.world _ rfl safe)
    refine ⟨.text text, t, .snippet ⟨deferred, .snippet, name, params⟩ (.ok text), ?_, ?_, rfl, rfl,
      bracketFree, safe', engine⟩
    · change (do return Part.text (← Engine.runSnippet calls name params) : Run Part) noted = _
      rw [Run.map_apply, run]
      rfl
    · rw [Traced.dispatch, Work.bind_apply]
      simp only [Traced.lift, Run.engine, TagKind.isPlaceholder, free]
      exact Traced.includeSnippet_of_ok run seen

include plain in
theorem part_swept (part : Part)
    (able : ∀ t ∈ part.tag?, t.kind ≠ .chunk ∧ (t.kind = .snippet → t.Answered calls Safe))
    {s : Session} (safe : Safe s.world) (free : s.engine.mayDescend = true) (seen : List Visit)
    (rest : List Part) (out : Rendered) (dirty : Bool) :
    ∃ next t visits, part.evaluate calls false s = (.ok next, t) ∧
      Part.resolveAll (Traced.dispatch calls render) (part :: rest) out dirty (s, seen) =
        Part.resolveAll (Traced.dispatch calls render) rest (Part.write [next.undeferred] out)
          (dirty || part.tag?.isSome) (t, seen ++ visits) ∧
      Swept Safe [part] [next] visits s t := by
  cases part with
  | text | value =>
    refine ⟨_, s, [], rfl, ?_, rfl, rfl, fun _ => .inl, safe, rfl⟩
    rw [Part.resolveAll, List.append_nil, Part.tag?, Option.isSome_none, Bool.or_false]
    rfl
  | tag tag source =>
    obtain ⟨kind, answered⟩ := able tag rfl
    cases deferred : tag.deferred with
    | true =>
      refine ⟨.tag tag source, s, [], ?_, ?_, ?_, ?_, fun _ => .inl, safe, rfl⟩
      · rw [Part.evaluate, deferred]
        rfl
      · rw [Part.resolveAll, Tag.resolve, deferred, if_pos rfl, pure_bind, List.append_nil,
          Rendered.append_ofText]
        rfl
      · simp [Part.tags, Part.tag?, deferred]
      · simp [Part.tags, Part.tag?, deferred]
    | false =>
      obtain ⟨next, t, visit, evaluated, dispatched, visited, tagless, legible, kept⟩ :=
        dispatch_evaluates render plain kind answered source safe free seen
      refine ⟨next, t, [visit], ?_, ?_, ?_, ?_, ?_, kept⟩
      · rw [Part.evaluate, deferred, if_pos rfl, evaluated]
      · rw [Part.resolveAll, Tag.resolve, deferred, if_neg Bool.false_ne_true, Work.bind_apply,
          dispatched, Part.undeferred_of_tagless tagless]
        simp only [Part.append_push]
        rfl
      · simp [Part.tags, Part.tag?, deferred, visited]
      · rw [Part.tags_cons, tagless]
        simp [Part.tags, Part.tag?, deferred]
      · exact List.forall_mem_singleton.mpr (.inr ⟨tagless, legible⟩)

include plain in
/-- The first phase, as a pass does it. The tags that it leaves lose their mark. -/
theorem parts_swept (parts : List Part)
    (able : ∀ t ∈ Part.tags parts, t.kind ≠ .chunk ∧ (t.kind = .snippet → t.Answered calls Safe)) :
    ∀ {s : Session}, Safe s.world → s.engine.mayDescend = true → ∀ (seen : List Visit)
      (out : Rendered) (dirty : Bool), ∃ after t visits,
      Part.phase calls false parts s = (.ok after, t) ∧
      Part.resolveAll (Traced.dispatch calls render) parts out dirty (s, seen) =
        (.ok (Part.write (after.map Part.undeferred) out, dirty || !(Part.tags parts).isEmpty),
          t, seen ++ visits) ∧
      Swept Safe parts after visits s t := by
  induction parts with
  | nil =>
    intro s safe _ seen out dirty
    refine ⟨[], s, [], rfl, ?_, rfl, rfl, nofun, safe, rfl⟩
    rw [List.append_nil, Part.tags, List.filterMap_nil, List.isEmpty_nil, Bool.not_true,
      Bool.or_false]
    rfl
  | cons part rest ih =>
    intro s safe free seen out dirty
    rw [Part.tags_cons, List.forall_mem_append] at able
    obtain ⟨here, later⟩ := able
    obtain ⟨next, t, visits, evaluated, resolved, swept⟩ := part_swept render plain part
      (fun t found => here t (by simpa using found)) safe free seen rest out dirty
    obtain ⟨after, u, visits', evaluated', resolved', swept'⟩ := ih later swept.kept.safe
      (swept.kept.mayDescend.trans free) (seen ++ visits) (Part.write [next.undeferred] out)
      (dirty || part.tag?.isSome)
    refine ⟨next :: after, u, visits ++ visits', ?_, ?_, swept.append swept'⟩
    · rw [Part.phase, List.mapM_cons, Run.bind_apply, evaluated]
      exact (Run.map_apply _ _ _).trans (by rw [Part.phase] at evaluated'; rw [evaluated']; rfl)
    · have tagged : (part.tag?.isSome || !(Part.tags rest).isEmpty) =
          !(part.tag?.toList ++ Part.tags rest).isEmpty := by
        cases part.tag? <;> rfl
      rw [resolved, resolved', List.append_assoc, Part.tags_cons, Bool.or_assoc, tagged]
      rfl

end Sweeping

end DocSite.Template
