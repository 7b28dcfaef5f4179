import DocSite.Proofs.Law
import DocSite.Proofs.Lookup
import DocSite.Proofs.Rendered
import DocSite.Template.Conditional

/-! Where the tags of a run come from. A discipline says what the texts that are read and the
values of placeholders look like; if reading keeps to it, every tag that is dispatched begins
as it allows. -/
namespace DocSite.Template

variable {α β : Type}

namespace Event

/-- The event tells that a tag of this kind and name was taken up or left alone. -/
def Of (kind : TagKind) (name : String) : Event → Prop
  | .dispatched k n => k = kind ∧ n = name
  | .refused k n _ => k = kind ∧ n = name
  | .probed .. | .called .. => False

end Event

/-- Where tags may come from: the texts of chunks by name, the names that are taken up, and how
tags may begin. -/
structure Origins where
  chunk? : String → Option String
  taken : String → Prop
  allowed : TagKind → String → Prop

/-- What segments and the values of placeholders, by their names, look like in a run. -/
structure Discipline extends Origins where
  form : SegmentKind → List Char → Prop
  value : String → List Char → Prop

namespace Discipline

variable {D : Discipline}

/-- All these values keep to the discipline. -/
def Values (D : Discipline) (b : Bindings) : Prop :=
  ∀ p ∈ b.entries, D.value p.1 p.2.toList

structure Holds (D : Discipline) (s : Session) : Prop where
  values : D.Values s.engine.placeholders
  chunks : ∀ name, D.allowed .chunk name → s.world.chunk? name = D.chunk? name
  snippets : ∀ name snippet, s.world.snippet? name = some snippet → snippet = Conditional.snippet

/-- If only these chunks are taken up, all tags begin as allowed, the session keeps to the
discipline, and the answer is right. -/
def Traces (D : Discipline) (work : Run α) (right : α → Prop) : Prop :=
  ∀ s, D.Holds s → ∀ events, (work s).2.world.journal = events ++ s.world.journal →
    (∀ name, .dispatched .chunk name ∈ events → D.taken name) →
    (∀ event ∈ events, ∀ kind name, event.Of kind name → D.allowed kind name) ∧
      D.Holds (work s).2 ∧ ∀ a, (work s).1 = .ok a → right a

namespace Traces

theorem of_same {work : Run α} {right : α → Prop}
    (same : ∀ s, D.Holds s → (work s).2.world.journal = s.world.journal ∧ D.Holds (work s).2)
    (answers : ∀ s, D.Holds s → ∀ a, (work s).1 = .ok a → right a) : D.Traces work right := by
  intro s here events eq _
  obtain ⟨journal, there⟩ := same s here
  have none : events = [] := List.self_eq_append_left.mp (journal.symm.trans eq)
  refine ⟨?_, there, answers s here⟩
  rw [none]
  intro event member
  cases member

theorem pure {right : α → Prop} {a : α} (correct : right a) : D.Traces (pure a) right := by
  refine of_same (fun s here => ⟨rfl, here⟩) fun s _ b eq => ?_
  cases eq
  exact correct

theorem weaken {work : Run α} {right right' : α → Prop} (traces : D.Traces work right)
    (implied : ∀ a, right a → right' a) : D.Traces work right' := by
  intro s here events eq taken
  obtain ⟨allowed, there, correct⟩ := traces s here events eq taken
  exact ⟨allowed, there, fun a answer => implied a (correct a answer)⟩

theorem bind {work : Run α} {next : α → Run β} {between : α → Prop} {right : β → Prop}
    (grows : Law.growth.Obeyed work) (grows' : ∀ x, Law.growth.Obeyed (next x))
    (first : D.Traces work between) (rest : ∀ x, between x → D.Traces (next x) right) :
    D.Traces (work >>= next) right := by
  intro s here events eq taken
  obtain ⟨old, before⟩ := grows s
  have traced := first s here old before
  rw [Run.bind_apply] at eq ⊢
  rcases h : work s with ⟨answer, t⟩
  rw [h] at before traced eq
  cases answer with
  | error e =>
    have same : events = old := List.append_cancel_right (eq.symm.trans before)
    obtain ⟨allowed, there, _⟩ := traced (same ▸ taken)
    refine ⟨same ▸ allowed, there, fun _ failed => ?_⟩
    cases failed
  | ok x =>
    obtain ⟨new, after⟩ := grows' x t
    have whole : events ++ s.world.journal = (new ++ old) ++ s.world.journal := by
      rw [← eq, after, before, List.append_assoc]
    have split : events = new ++ old := List.append_cancel_right whole
    rw [split] at taken ⊢
    obtain ⟨allowed, there, correct⟩ :=
      traced fun name member => taken name (List.mem_append_right _ member)
    obtain ⟨allowed', last, right⟩ := rest x (correct x rfl) t there new after
      fun name member => taken name (List.mem_append_left _ member)
    refine ⟨fun event member => ?_, last, right⟩
    exact (List.mem_append.mp member).elim (allowed' event) (allowed event)

end Traces

/-- The branches of `if`, which it gives as its text. -/
def isBranch (name : String) : Bool := name == "then" || name == "else"

/-- What a dispatcher answers for tags that begin as allowed. -/
structure Dispatches (D : Discipline) (dispatch : Dispatcher Run) : Prop where
  grows (tag : Tag) (source : List Char) : Law.growth.Obeyed (dispatch tag source)
  placeholder (tag : Tag) (source : List Char) : tag.kind.isPlaceholder = true →
    D.Traces (dispatch tag source) fun result =>
      ∃ value, D.value tag.name value.toList ∧ result.1 = Rendered.empty.pushVerbatim value
  chunk (tag : Tag) (source : List Char) : tag.kind = .chunk → D.allowed .chunk tag.name →
    D.Values tag.params → D.Traces (dispatch tag source) fun result =>
      result.1.All D.form ∨ result.1 = Rendered.empty.pushVerbatim (String.ofList source)
  snippet (tag : Tag) (source : List Char) : tag.kind = .snippet → D.allowed .snippet tag.name →
    D.Traces (dispatch tag source) fun result =>
      (result.1 = {} ∨ ∃ name, isBranch name = true ∧
        result.1 = Rendered.ofText (tag.params.getD name "")) ∨
      result.1 = Rendered.empty.pushVerbatim (String.ofList source)

/-- What reading must keep to, for every engine to keep to it. -/
structure Lawful (D : Discipline) : Prop where
  joins (kind : SegmentKind) (a b : List Char) : D.form kind a → D.form kind b →
    D.form kind (a ++ b)
  blank (name : String) : D.value name []
  chunk (name text : String) : D.allowed .chunk name → D.taken name → D.chunk? name = some text →
    D.form .text text.toList
  scan (dispatch : Dispatcher Run) : D.Dispatches dispatch → ∀ content out,
    D.form .text content.toList → out.All D.form →
    D.Traces (scanPass dispatch content out) fun result => result.1.All D.form

/-- Texts of the discipline are rendered to segments of the discipline. -/
def Renders (D : Discipline) (calls : Calls) : Prop :=
  ∀ text params, D.form .text text.toList → D.Values params →
    D.Traces (calls.render text params) (·.All D.form)

theorem Holds.of_same {s t : Session} (here : D.Holds s) (values : D.Values t.engine.placeholders)
    (chunks : ∀ name, t.world.chunk? name = s.world.chunk? name)
    (snippets : ∀ name, t.world.snippet? name = s.world.snippet? name) : D.Holds t where
  values := values
  chunks name allowed := (chunks name).trans (here.chunks name allowed)
  snippets name snippet found := here.snippets name snippet (snippets name ▸ found)

theorem value_getD (blank : ∀ name, D.value name []) {b : Bindings} (values : D.Values b)
    (name : String) : D.value name (b.getD name "").toList := by
  rcases b.getD_cases name with none | member
  · rw [none]
    exact blank name
  · exact values _ member

theorem values_extend {b : Bindings} (values : D.Values b) {more : Bindings}
    (added : D.Values more) : D.Values (b.extend more.entries) :=
  fun p member => (Bindings.mem_of_mem_extend member).elim (values p) (added p)

section Dispatching

open Engine

variable {calls : Calls}

theorem traces_placeholder (blank : ∀ name, D.value name []) (tag : Tag) (source : List Char)
    (kind : tag.kind.isPlaceholder = true) :
    D.Traces (dispatch calls tag source) fun result =>
      ∃ value, D.value tag.name value.toList ∧ result.1 = Rendered.empty.pushVerbatim value := by
  refine Traces.of_same (fun s here => ?_) fun s here result eq => ?_
  · rw [dispatch_placeholder kind]
    exact ⟨rfl, here⟩
  · rw [dispatch_placeholder kind] at eq
    cases eq
    exact ⟨_, value_getD blank here.values tag.name, rfl⟩

theorem choose_branch (params : Params) :
    ∃ name, isBranch name = true ∧ Conditional.choose params = params.getD name "" := by
  unfold Conditional.choose
  refine ⟨_, ?_, rfl⟩
  split
  · split <;> rfl
  · rfl

/-- Telling of a tag that begins as allowed. A chunk that is taken up is one of those taken. -/
theorem traces_record (event : Event)
    (allowed : ∀ kind name, event.Of kind name → D.allowed kind name) :
    D.Traces (Run.record event) fun _ => ∀ name, event = .dispatched .chunk name → D.taken name := by
  intro s here events eq taken
  have one : events = [event] := List.append_cancel_right (eq.symm : _ = [event] ++ s.world.journal)
  rw [one] at taken ⊢
  refine ⟨fun e member => ?_, here.of_same here.values (fun _ => rfl) fun _ => rfl, ?_⟩
  · cases List.mem_singleton.mp member
    exact allowed
  · rintro _ _ name rfl
    exact taken name (List.mem_singleton.mpr rfl)

theorem traces_refused (tag : Tag) (source : List Char) (kind : tag.kind.isPlaceholder = false)
    (allowed : D.allowed tag.kind tag.name) {s : Session} (here : D.Holds s)
    (refused : s.engine.mayDescend = false) {events : List Event}
    (eq : (dispatch calls tag source s).2.world.journal = events ++ s.world.journal) :
    (∀ event ∈ events, ∀ kind name, event.Of kind name → D.allowed kind name) ∧
      D.Holds (dispatch calls tag source s).2 ∧ ∀ result, (dispatch calls tag source s).1 = .ok result →
        result.1 = Rendered.empty.pushVerbatim (String.ofList source) := by
  rw [dispatch_refused kind refused] at eq ⊢
  have one : events = [.refused tag.kind tag.name s.engine.nested] :=
    List.append_cancel_right (eq.symm : _ = [_] ++ s.world.journal)
  rw [one]
  refine ⟨fun e member => ?_, here.of_same ?_ (fun _ => rfl) fun _ => rfl, fun result answer => ?_⟩
  · cases List.mem_singleton.mp member
    rintro _ _ ⟨rfl, rfl⟩
    exact allowed
  · rw [noteLimit_placeholders]
    exact here.values
  · cases answer
    rfl

theorem traces_lookup {f : World → α × World} {right : α → Prop}
    (journal : ∀ w, ∃ events, (f w).2.journal = events ++ w.journal ∧
      ∀ event ∈ events, ∀ kind name, ¬ event.Of kind name)
    (chunks : ∀ w name, (f w).2.chunk? name = w.chunk? name)
    (snippets : ∀ w name, (f w).2.snippet? name = w.snippet? name)
    (answers : ∀ s, D.Holds s → right (f s.world).1) : D.Traces (Run.onWorld f) right := by
  intro s here events eq _
  obtain ⟨asked, grown, silent⟩ := journal s.world
  have same : events = asked := List.append_cancel_right (eq.symm.trans grown)
  rw [same]
  refine ⟨fun event member kind name told => absurd told (silent event member kind name),
    here.of_same here.values (chunks s.world) (snippets s.world), fun a answer => ?_⟩
  cases answer
  exact answers s here

theorem probes_silent (asked : List String) (kind : ResourceKind) (name : String) :
    ∀ event ∈ (asked.map (Event.probed kind · name)).reverse, ∀ k n, ¬ event.Of k n := by
  intro event member k n
  obtain ⟨dir, _, rfl⟩ := List.mem_map.mp (List.mem_reverse.mp member)
  exact id

/-- A tag of a chunk or a snippet that begins as allowed is taken up, or a limit leaves it alone. -/
theorem traces_tag {work : Run (Rendered × Bool)} {right : Rendered × Bool → Prop} (tag : Tag)
    (source : List Char) (kind : tag.kind.isPlaceholder = false)
    (allowed : D.allowed tag.kind tag.name) (grows : Law.growth.Obeyed work)
    (takes : ∀ s : Session, s.engine.mayDescend = true → dispatch calls tag source s =
      work { s with world := s.world.record (.dispatched tag.kind tag.name) })
    (traces : (tag.kind = .chunk → D.taken tag.name) → D.Traces work right) :
    D.Traces (dispatch calls tag source) fun result =>
      right result ∨ result.1 = Rendered.empty.pushVerbatim (String.ofList source) := by
  intro s here events eq taken
  cases free : s.engine.mayDescend with
  | false =>
    obtain ⟨told, there, answer⟩ := traces_refused tag source kind allowed here free eq
    exact ⟨told, there, fun result eq => .inr (answer result eq)⟩
  | true =>
    have recorded := traces_record (D := D) (.dispatched tag.kind tag.name)
      (by rintro _ _ ⟨rfl, rfl⟩; exact allowed)
    have told := Traces.bind (Growth.universal.record _ rfl) (fun _ => grows) recorded
      fun _ taken => traces fun chunk => taken tag.name (by rw [chunk])
    rw [takes s free] at eq ⊢
    obtain ⟨begins, there, answer⟩ := told s here events eq taken
    exact ⟨begins, there, fun result eq => .inl (answer result eq)⟩

theorem traces_chunk (lawful : D.Lawful) (kept : Law.growth.OnCalls calls)
    (renders : D.Renders calls) (tag : Tag) (source : List Char) (kind : tag.kind = .chunk)
    (allowed : D.allowed .chunk tag.name) (values : D.Values tag.params) :
    D.Traces (dispatch calls tag source) fun result =>
      result.1.All D.form ∨ result.1 = Rendered.empty.pushVerbatim (String.ofList source) := by
  have found : D.Traces (Run.onWorld (·.chunk tag.name)) fun text => text = D.chunk? tag.name :=
    traces_lookup (fun _ => ⟨_, rfl, probes_silent _ .chunk tag.name⟩)
      (fun w name => World.chunk?_chunk w tag.name name)
      (fun w name => World.snippet?_chunk w tag.name name)
      fun s here => here.chunks tag.name allowed
  refine traces_tag tag source (by rw [kind]; rfl) (kind ▸ allowed)
    (Growth.universal.includeChunk kept tag.name tag.params) ?_ fun taken => ?_
  · intro s free
    rw [dispatch_chunk kind free, kind]
  · refine Traces.bind (Growth.universal.chunk _) ?_ found ?_
    · intro text
      cases text with
      | none => exact .pure _
      | some text => exact (kept.render _ _).bind fun _ => .pure _
    · intro text known
      cases text with
      | none => exact .pure Rendered.All.empty
      | some text =>
        have formed := lawful.chunk tag.name text allowed (taken kind) known.symm
        have rendered := renders text tag.params formed values
        exact Traces.bind (kept.render _ _) (fun _ => .pure _) rendered fun _ all => .pure all

theorem traces_snippet (kept : Law.growth.OnCalls calls) (tag : Tag) (source : List Char)
    (kind : tag.kind = .snippet) (allowed : D.allowed .snippet tag.name) :
    D.Traces (dispatch calls tag source) fun result =>
      (result.1 = {} ∨ ∃ name, isBranch name = true ∧
        result.1 = Rendered.ofText (tag.params.getD name "")) ∨
      result.1 = Rendered.empty.pushVerbatim (String.ofList source) := by
  have found : D.Traces (Run.onWorld (·.snippet tag.name)) fun snippet =>
      snippet = none ∨ snippet = some Conditional.snippet := by
    refine traces_lookup (fun _ => ⟨_, rfl, probes_silent _ .snippet tag.name⟩)
      (fun w name => World.chunk?_snippet w tag.name name)
      (fun w name => World.snippet?_snippet w tag.name name) fun s here => ?_
    cases h : (s.world.snippet tag.name).1 with
    | none => exact .inl rfl
    | some snippet => exact .inr (congrArg some (here.snippets tag.name snippet h))
  refine traces_tag tag source (by rw [kind]; rfl) (kind ▸ allowed)
    (Growth.universal.includeSnippet kept tag.name tag.params) ?_ fun _ => ?_
  · intro s free
    rw [dispatch_snippet kind free, kind]
  · refine Traces.bind (Growth.universal.snippet _) ?_ found ?_
    · intro snippet
      cases snippet with
      | none => exact .pure _
      | some snippet => exact (Growth.universal.execute kept _ _ _).bind fun _ => .pure _
    · rintro snippet (rfl | rfl)
      · exact .pure (.inl rfl)
      · obtain ⟨name, branch, chosen⟩ := choose_branch tag.params
        exact Traces.pure (.inr ⟨name, branch, congrArg Rendered.ofText chosen⟩)

theorem dispatches (lawful : D.Lawful) (kept : Law.growth.OnCalls calls)
    (renders : D.Renders calls) : D.Dispatches (dispatch calls) where
  grows := Growth.universal.dispatch kept
  placeholder := traces_placeholder lawful.blank
  chunk := traces_chunk lawful kept renders
  snippet := traces_snippet kept

theorem passOver_traces (lawful : D.Lawful) (dispatches : D.Dispatches (dispatch calls))
    (segments : List Segment) (formed : ∀ seg ∈ segments, D.form seg.kind seg.content.toList) :
    ∀ (out : Rendered) (dirty : Bool), out.All D.form →
      D.Traces (passOver calls segments out dirty) fun result => result.1.All D.form := by
  induction segments with
  | nil => exact fun out dirty all => .pure all
  | cons seg rest ih =>
    intro out dirty all
    have first := formed seg (List.mem_cons_self ..)
    have later := ih fun seg member => formed seg (List.mem_cons_of_mem _ member)
    obtain ⟨kind, content⟩ := seg
    cases kind with
    | verbatim => exact later _ _ (all.push lawful.joins first)
    | text =>
      refine Traces.bind (Law.pieces_obeyed dispatches.grows _ _ _) ?_
        (lawful.scan _ dispatches content out first all) ?_
      · exact fun _ => Law.passOver_obeyed dispatches.grows rest _ _
      · exact fun result formed => later result.1 _ formed

theorem expand_traces (lawful : D.Lawful) (kept : Law.growth.OnCalls calls)
    (renders : D.Renders calls) (passes : Nat) : ∀ current : Rendered, current.All D.form →
      D.Traces (expand calls passes current) (·.All D.form) := by
  have counts : ∀ f : Stats → Stats,
      D.Traces (Run.onEngine fun e => { e with stats := f e.stats }) fun _ => True :=
    fun f => .of_same (fun s here => ⟨rfl, here.of_same here.values (fun _ => rfl) fun _ => rfl⟩)
      fun _ _ _ _ => trivial
  have notes : ∀ notice, D.Traces (Run.note notice) fun _ => True :=
    fun notice => .of_same (fun s here => ⟨rfl, here.of_same here.values (fun _ => rfl) fun _ => rfl⟩)
      fun _ _ _ _ => trivial
  have grows := Growth.universal.note
  induction passes with
  | zero =>
    intro current all
    let f : Stats → Stats := fun t => { t with budgetExhausted := t.budgetExhausted + 1 }
    have more : ∀ counted, ∃ more, f counted = counted + more := fun _ => ⟨⟨0, 0, 1, 0⟩, rfl⟩
    refine Traces.bind (Growth.universal.stats f more) ?_ (counts f) fun _ _ => ?_
    · exact fun _ => (grows _).bind fun _ => .pure _
    · exact Traces.bind (grows _) (fun _ => .pure _) (notes _) fun _ _ => .pure all
  | succ passes ih =>
    intro current all
    have settle : ∀ out : Rendered, Law.growth.Obeyed (do
        Run.note (.settled (maxPasses - passes))
        pure out) := fun out => (grows _).bind fun _ => .pure out
    have after : ∀ result, Law.growth.Obeyed (afterPass calls passes result) := by
      rintro ⟨next, dirty⟩
      cases dirty with
      | true => exact Growth.universal.expand kept passes next
      | false => exact settle next
    have dispatches := dispatches lawful kept renders
    let f : Stats → Stats := fun t => { t with passes := t.passes + 1 }
    have more : ∀ counted, ∃ more, f counted = counted + more := fun _ => ⟨⟨0, 1, 0, 0⟩, rfl⟩
    refine Traces.bind (Growth.universal.stats f more) ?_ (counts f) fun _ _ => ?_
    · exact fun _ => (Law.passOver_obeyed dispatches.grows _ _ _).bind after
    · refine Traces.bind (Law.passOver_obeyed dispatches.grows _ _ _) after
        (passOver_traces lawful dispatches current.segments ?_ {} false .empty) ?_
      · exact fun seg member => all seg (List.mem_reverse.mp member)
      · rintro ⟨next, dirty⟩ formed
        cases dirty with
        | true => exact ih next formed
        | false => exact Traces.bind (grows _) (fun _ => .pure _) (notes _) fun _ _ => .pure formed

theorem render_traces (lawful : D.Lawful) (kept : Law.growth.OnCalls calls)
    (renders : D.Renders calls) (text : String) (params : Params)
    (formed : D.form .text text.toList) (values : D.Values params) :
    D.Traces (render calls text params) (·.All D.form) := by
  intro s here events eq taken
  have inside : D.Holds (s.enter params) :=
    here.of_same (values_extend here.values values) (fun _ => rfl) fun _ => rfl
  have begun : (Rendered.ofText text).All D.form := Rendered.All.empty.push lawful.joins formed
  have traced := expand_traces lawful kept renders maxPasses _ begun (s.enter params) inside events
  rw [Engine.render, Run.within_apply] at eq ⊢
  generalize expand calls maxPasses _ (s.enter params) = result at traced eq ⊢
  obtain ⟨told, there, right⟩ := traced eq taken
  exact ⟨told, there.of_same here.values (fun _ => rfl) fun _ => rfl, right⟩

theorem callsWithin_traces (lawful : D.Lawful) (limit : Nat) : D.Renders (callsWithin limit) := by
  induction limit with
  | zero =>
    intro text params _ _
    refine Traces.of_same (fun s here => ⟨rfl, here⟩) fun s _ out answer => ?_
    cases answer
  | succ limit ih => exact render_traces lawful (Growth.universal.callsWithin limit) ih

end Dispatching

/-- Under a discipline that reading keeps to, every tag of a render begins as allowed. -/
theorem renderString_traces (lawful : D.Lawful) (text : String) (params : Params)
    (formed : D.form .text text.toList) (values : D.Values params) :
    D.Traces (Engine.renderString text params) fun _ => True := by
  have kept := Growth.universal.callsWithin callLimit
  exact Traces.bind (kept.render _ _) (fun _ => .pure _)
    (callsWithin_traces lawful callLimit text params formed values) fun _ _ => .pure trivial

end Discipline
end DocSite.Template
