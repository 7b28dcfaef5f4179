import DocSite.Proofs.Law
import DocSite.Proofs.Lookup
import DocSite.Template.Conditional

/-! What a render may use up when no snippet calls back into the engine: it ends, however
its chunks include one another, and its depth, its nested renders and its passes are bounded. -/
namespace DocSite.Template

/-- The action asks the engine neither for a render nor for a snippet. -/
def Action.Quiet : Action → Prop
  | .done _ | .fail _ => True
  | .set _ _ next | .registerChunk _ _ next | .announce _ _ next => next.Quiet
  | .unset _ next => ∀ was, (next was).Quiet
  | .get _ next | .chunk _ next => ∀ found, (next found).Quiet
  | .registerSnippet _ start next => (∀ params, (start params).Quiet) ∧ next.Quiet
  | .stats next => ∀ stats, (next stats).Quiet
  | .count _ next => ∀ value, (next value).Quiet
  | .render .. | .renderChunk .. | .runSnippet .. => False

def Snippet.Quiet : Snippet → Prop
  | .program start => ∀ params, (start params).Quiet
  | .script _ => True

/-- No name leads to a snippet that asks the engine for a render or for a snippet. -/
def World.Quiet (w : World) : Prop := ∀ name snippet, w.snippet? name = some snippet → snippet.Quiet

namespace Event

def isRefusal : Event → Bool
  | .refused .. => true
  | _ => false

/-- The event tells what became of a chunk or snippet tag. -/
def OfTag : Event → Prop
  | .dispatched .. | .refused .. => True
  | .probed .. | .called .. => False

/-- The number of renders had run out at the earlier event, and at the later one a tag was
taken up all the same. -/
def Overdraws (earlier later : Event) : Prop :=
  (∃ kind name nested, earlier = .refused kind name nested ∧ maxNestedRenders ≤ nested) ∧
    ∃ kind name, later = .dispatched kind name

end Event

/-- How an engine comes from `e` to `f` while `events` happen, the newest first. -/
structure Chronicle (e f : Engine) (events : List Event) : Prop where
  nested : e.nested ≤ f.nested
  limited : f.limited = (e.limited || events.any Event.isRefusal)
  counted : f.stats.depthLimited =
    e.stats.depthLimited + if e.limited = false ∧ events.any Event.isRefusal = true then 1 else 0
  bounded : ∀ kind name nested, .refused kind name nested ∈ events → nested ≤ f.nested
  closed : maxNestedRenders ≤ e.nested → ∀ kind name, .dispatched kind name ∉ events
  ordered : events.Pairwise fun later earlier => ¬ earlier.Overdraws later

namespace Chronicle

variable {e f g : Engine} {events newer : List Event}

theorem trans (first : Chronicle e f events) (second : Chronicle f g newer) :
    Chronicle e g (newer ++ events) where
  nested := Nat.le_trans first.nested second.nested
  limited := by
    rw [second.limited, first.limited, List.any_append, Bool.or_assoc, Bool.or_comm (events.any _)]
  counted := by
    rw [second.counted, first.counted, first.limited, List.any_append]
    cases e.limited <;> cases events.any Event.isRefusal <;> cases newer.any Event.isRefusal <;> rfl
  bounded kind name nested member := by
    rcases List.mem_append.mp member with recent | old
    · exact second.bounded kind name nested recent
    · exact Nat.le_trans (first.bounded kind name nested old) second.nested
  closed out kind name member := by
    rcases List.mem_append.mp member with recent | old
    · exact second.closed (Nat.le_trans out first.nested) kind name recent
    · exact first.closed out kind name old
  ordered := by
    refine List.pairwise_append.mpr ⟨second.ordered, first.ordered, ?_⟩
    rintro later recent earlier old ⟨⟨kind, name, nested, rfl, out⟩, kind', name', rfl⟩
    have reached := Nat.le_trans out (first.bounded kind name nested old)
    exact second.closed reached kind' name' recent

theorem no_refusal (other : ∀ event ∈ events, ¬ event.OfTag) :
    events.any Event.isRefusal = false := by
  rw [List.any_eq_false]
  intro event member
  have := other event member
  cases event <;> simp_all [Event.isRefusal, Event.OfTag]

/-- Events that tell nothing of tags need no change of the counters. -/
theorem silent (nested : f.nested = e.nested) (limited : f.limited = e.limited)
    (counted : f.stats.depthLimited = e.stats.depthLimited)
    (other : ∀ event ∈ events, ¬ event.OfTag) : Chronicle e f events := by
  have none := no_refusal other
  refine ⟨Nat.le_of_eq nested.symm, ?_, ?_, ?_, ?_, ?_⟩
  · rw [none, limited, Bool.or_false]
  · simp [none, counted]
  · exact fun kind name n member => absurd trivial (other _ member)
  · exact fun _ kind name member => absurd trivial (other _ member)
  · refine List.Pairwise.imp_of_mem ?_ (List.pairwise_of_forall fun _ _ => trivial)
    rintro later earlier recent _ _ ⟨_, kind, name, rfl⟩
    exact other _ recent trivial

theorem refusal (e : Engine) (kind : TagKind) (name : String) :
    Chronicle e e.noteLimit [.refused kind name e.nested] where
  nested := Nat.le_of_eq (Engine.noteLimit_nested e).symm
  limited := by
    unfold Engine.noteLimit
    split <;> simp_all [Event.isRefusal]
  counted := by
    unfold Engine.noteLimit
    split <;> simp_all [Event.isRefusal]
  bounded kind name nested member := by
    rw [Engine.noteLimit_nested]
    simp_all
  closed := by simp
  ordered := List.pairwise_singleton _ _

theorem taking {e : Engine} (free : e.mayDescend = true) (kind : TagKind) (name : String) :
    Chronicle e e [.dispatched kind name] where
  nested := Nat.le_refl _
  limited := by simp [Event.isRefusal]
  counted := by simp [Event.isRefusal]
  bounded := by simp
  closed out := absurd ((Engine.mayDescend_iff e).mp free).2 (Nat.not_lt.mpr out)
  ordered := List.pairwise_singleton _ _

end Chronicle

/-- What a session uses up on the way to another one: each nested render pays for `maxPasses`
passes, and at most `slack` passes are made on top of that. -/
structure Spends (slack : Int) (s t : Session) : Prop where
  renders : t.engine.stats.renders + s.engine.nested = s.engine.stats.renders + t.engine.nested
  passes : (t.engine.stats.passes + maxPasses * s.engine.nested : Int) ≤
    s.engine.stats.passes + maxPasses * t.engine.nested + slack
  notices : ∃ notices, t.world.notices = notices ++ s.world.notices ∧
    ∀ depth, .began depth ∈ notices → depth ≤ maxDepth
  journal : ∃ events, t.world.journal = events ++ s.world.journal ∧
    Chronicle s.engine t.engine events

/-- The session is inside a render at this depth, and all is within the limits. -/
structure Inside (depth : Nat) (s : Session) : Prop where
  quiet : s.world.Quiet
  depth : s.engine.depth = depth
  frugal : s.engine.nested ≤ maxNestedRenders

namespace Spends

variable {a b : Int} {s t u : Session}

theorem nested (spent : Spends a s t) : s.engine.nested ≤ t.engine.nested :=
  spent.journal.elim fun _ h => h.2.nested

theorem trans (first : Spends a s t) (second : Spends b t u) : Spends (a + b) s u where
  renders := by
    have := first.renders
    have := second.renders
    omega
  passes := by
    have := first.passes
    have := second.passes
    omega
  notices := by
    obtain ⟨old, eq, shallow⟩ := first.notices
    obtain ⟨new, eq', shallow'⟩ := second.notices
    refine ⟨new ++ old, by rw [eq', eq, List.append_assoc], fun depth member => ?_⟩
    exact (List.mem_append.mp member).elim (shallow' depth) (shallow depth)
  journal := by
    obtain ⟨old, eq, chronicle⟩ := first.journal
    obtain ⟨new, eq', chronicle'⟩ := second.journal
    exact ⟨new ++ old, by rw [eq', eq, List.append_assoc], chronicle.trans chronicle'⟩

theorem weaken (spent : Spends a s t) (le : a ≤ b) : Spends b s t where
  renders := spent.renders
  passes := Int.le_trans spent.passes (Int.add_le_add_left le _)
  notices := spent.notices
  journal := spent.journal

theorem settle (pass : Nat) : Spends 0 s { s with world := s.world.note (.settled pass) } where
  renders := rfl
  passes := Int.le_of_eq (Int.add_zero _).symm
  notices := ⟨[.settled pass], rfl, by simp⟩
  journal := ⟨[], rfl, .silent rfl rfl rfl (by simp)⟩

/-- Nothing is used up while the counters stay and nothing is told of renders or tags. -/
theorem still (nested : t.engine.nested = s.engine.nested)
    (limited : t.engine.limited = s.engine.limited) (stats : t.engine.stats = s.engine.stats)
    (notices : t.world.notices = s.world.notices)
    (journal : ∃ events, t.world.journal = events ++ s.world.journal ∧
      ∀ event ∈ events, ¬ event.OfTag) : Spends 0 s t where
  renders := by rw [stats, nested]
  passes := by rw [stats, nested]; omega
  notices := ⟨[], notices, by simp⟩
  journal := by
    obtain ⟨events, eq, other⟩ := journal
    exact ⟨events, eq, .silent nested limited (by rw [stats]) other⟩

theorem refl (s : Session) : Spends 0 s s := still rfl rfl rfl rfl ⟨[], rfl, by simp⟩

end Spends

/-- The limits of a render at this depth, kept by all work inside it. -/
def Law.budget (depth : Nat) : Law where
  Holds s stop t := Inside depth s → Inside depth t ∧ Spends 0 s t ∧ stop ≠ some .unfinished
  refl s inside := ⟨inside, Spends.refl s, by simp⟩
  trans := by
    intro s t u stop first second inside
    obtain ⟨between, spent, -⟩ := first inside
    obtain ⟨after, spent', finished⟩ := second between
    exact ⟨after, spent.trans spent', finished⟩

namespace Budget

open Engine

variable {depth : Nat} {α : Type}

theorem placeholders (f : Placeholders → Placeholders) : (Law.budget depth).Obeyed
    (Run.onEngine fun e => { e with placeholders := f e.placeholders }) :=
  fun _ inside => ⟨⟨inside.quiet, inside.depth, inside.frugal⟩,
    .still rfl rfl rfl rfl ⟨[], rfl, by simp⟩, by simp [Run.stopped, Run.onEngine]⟩

theorem onWorld {f : World → α × World} (quiet : ∀ w, w.Quiet → (f w).2.Quiet)
    (notices : ∀ w, (f w).2.notices = w.notices)
    (journal : ∀ w, ∃ events, (f w).2.journal = events ++ w.journal ∧
      ∀ event ∈ events, ¬ event.OfTag) : (Law.budget depth).Obeyed (Run.onWorld f) :=
  fun s inside => ⟨⟨quiet _ inside.quiet, inside.depth, inside.frugal⟩,
    .still rfl rfl rfl (notices s.world) (journal s.world), by simp [Run.stopped, Run.onWorld]⟩

theorem engine : (Law.budget depth).Obeyed Run.engine := fun s => (Law.budget depth).refl s

theorem quiet_of_same {v w : World} (quiet : w.Quiet)
    (same : ∀ name, v.snippet? name = w.snippet? name) :
    v.Quiet := fun name snippet found => quiet name snippet (same name ▸ found)

theorem probes (asked : List String) (kind : ResourceKind) (name : String) :
    ∀ event ∈ (asked.map (Event.probed kind · name)).reverse, ¬ event.OfTag := by
  intro event member
  obtain ⟨dir, _, rfl⟩ := List.mem_map.mp (List.mem_reverse.mp member)
  exact id

theorem chunk (name : String) : (Law.budget depth).Obeyed (Run.onWorld (·.chunk name)) :=
  onWorld (fun w known => quiet_of_same known (World.snippet?_chunk w name)) (fun _ => rfl)
    fun _ => ⟨_, rfl, probes _ .chunk name⟩

theorem snippet (name : String) : (Law.budget depth).Obeyed (Run.onWorld (·.snippet name)) :=
  onWorld (fun w known => quiet_of_same known (World.snippet?_snippet w name)) (fun _ => rfl)
    fun _ => ⟨_, rfl, probes _ .snippet name⟩

theorem action {calls : Calls} (act : Action) (quiet : act.Quiet) :
    (Law.budget depth).Obeyed (act.run calls) := by
  induction act with
  | done text => exact .pure _
  | fail e => exact .pure _
  | set name value next ih =>
    exact (placeholders (·.insert name value)).bind fun _ => ih quiet
  | unset name next ih =>
    exact engine.bind fun e => (placeholders (·.erase name)).bind fun _ => ih _ (quiet _)
  | get name next ih => exact engine.bind fun e => ih _ (quiet _)
  | chunk name next ih => exact (chunk name).bind fun found => ih found (quiet found)
  | registerChunk name text next ih =>
    refine (onWorld ?_ (fun _ => rfl) fun _ => ⟨[], rfl, by simp⟩).bind fun _ => ih quiet
    exact fun w quiet => quiet_of_same quiet fun _ => rfl
  | registerSnippet name start next _ ih =>
    refine (onWorld ?_ (fun _ => rfl) fun _ => ⟨[], rfl, by simp⟩).bind fun _ => ih quiet.2
    intro w known other snippet found
    rw [World.snippet?_registerSnippet] at found
    split at found
    · cases found
      exact quiet.1
    · exact known other snippet found
  | render text params next ih => exact quiet.elim
  | renderChunk name params next ih => exact quiet.elim
  | runSnippet name params next ih => exact quiet.elim
  | stats next ih => exact engine.bind fun e => ih _ (quiet _)
  | count counter next ih =>
    refine (onWorld ?_ (fun _ => rfl) fun _ => ⟨[], rfl, by simp⟩).bind fun value => ih _ (quiet value)
    exact fun w quiet => quiet_of_same quiet fun _ => rfl
  | announce name params next ih =>
    refine (onWorld ?_ (fun _ => rfl) fun _ => ⟨[_], rfl, ?_⟩).bind fun _ => ih quiet
    · exact fun w quiet => quiet_of_same quiet fun _ => rfl
    · simp [Event.OfTag]

theorem execute {calls : Calls} {snippet : Snippet} (quiet : snippet.Quiet) (name : String)
    (params : Params) : (Law.budget depth).Obeyed (execute calls name params snippet) := by
  cases snippet with
  | program start =>
    refine (action (start params) (quiet params)).bind fun answer => ?_
    cases answer with
    | ok text => exact .pure _
    | error cause =>
      exact fun s inside => ⟨inside, Spends.refl s, by simp [Run.stopped, Run.stop]⟩
  | script path =>
    intro s inside
    simp only [Engine.execute]
    cases Script.run s.world.files path params <;>
      exact ⟨inside, Spends.refl s, by simp [Run.stopped]⟩

/-- Work inside a render that makes `slack` passes at most for that render itself. -/
def Keeps (depth slack : Nat) (work : Run α) (s : Session) : Prop :=
  Inside depth s → Inside depth (work s).2 ∧ Spends slack s (work s).2 ∧
    Run.stopped (work s).1 ≠ some .unfinished

/-- A pass costs what its tags cost, and one more. -/
theorem countPass (s : Session) : Spends 1 s { s with engine := s.engine.countPass } where
  renders := rfl
  passes := by simp only [Engine.countPass]; omega
  notices := ⟨[], rfl, by simp⟩
  journal := ⟨[], rfl, .silent rfl rfl rfl (by simp)⟩

theorem expand {calls : Calls} (allowed : (Law.budget depth).Dispatching calls) (passes : Nat) :
    ∀ current s, Keeps depth passes (expand calls passes current) s := by
  induction passes with
  | zero =>
    intro current s inside
    rw [expand_zero]
    refine ⟨⟨quiet_of_same inside.quiet fun _ => rfl, inside.depth, inside.frugal⟩, ?_, by
      simp [Run.stopped]⟩
    exact {
      renders := rfl
      passes := Int.le_of_eq (Int.add_zero _).symm
      notices := ⟨[.exhausted], rfl, by simp⟩
      journal := ⟨[], rfl, .silent rfl rfl rfl (by simp)⟩ }
  | succ passes ih =>
    intro current s inside
    let counted : Session := { s with engine := s.engine.countPass }
    have scanned := Law.passOver_obeyed (Law.dispatch_obeyed allowed) current.segments {} false
      counted ⟨inside.quiet, inside.depth, inside.frugal⟩
    rw [expand_succ, Run.bind_apply]
    rcases h : passOver calls current.segments {} false counted with ⟨answer, t⟩
    rw [h] at scanned
    obtain ⟨between, spent, finished⟩ := scanned
    have first : Spends 1 s t := (countPass s).trans spent
    cases answer with
    | error e => exact ⟨between, first.weaken (by omega), finished⟩
    | ok result =>
      obtain ⟨next, dirty⟩ := result
      cases dirty with
      | true =>
        obtain ⟨after, spent', finished'⟩ := ih next t between
        exact ⟨after, (first.trans spent').weaken (by omega), finished'⟩
      | false =>
        refine ⟨⟨quiet_of_same between.quiet fun _ => rfl, between.depth, between.frugal⟩, ?_, by
          simp [Run.stopped, afterPass]⟩
        exact (first.trans (Spends.settle _)).weaken (by omega)

/-- A render that begins inside another one pays for its passes with the nested render that
is counted for it. -/
theorem enter {s : Session} (opened : 0 < s.engine.depth) (shallow : s.engine.depth < maxDepth)
    (params : Params) : Spends (-maxPasses) s (s.enter params) := by
  have nested := s.nested_enter opened params
  have limited : (s.enter params).engine.limited = s.engine.limited :=
    if_neg (Nat.ne_of_gt opened)
  refine ⟨?_, ?_, ⟨[_], rfl, ?_⟩, ⟨[], rfl, ?_⟩⟩
  · rw [nested]
    simp only [Session.enter, Engine.enter]
    omega
  · rw [nested]
    simp only [Session.enter, Engine.enter, maxPasses]
    omega
  · intro depth member
    cases List.mem_singleton.mp member
    exact shallow
  · have grows : s.engine.nested ≤ (s.enter params).engine.nested := by omega
    exact ⟨grows, by simp [limited], by simp [Session.enter, Engine.enter], by simp, by simp, .nil⟩

theorem render {calls : Calls} (allowed : (Law.budget (depth + 1)).Dispatching calls)
    (opened : 0 < depth) (text : String) (params : Params) (s : Session)
    (free : s.engine.mayDescend = true) : (Law.budget depth).At (render calls text params) s := by
  intro inside
  obtain ⟨shallow, frugal⟩ := (mayDescend_iff s.engine).mp free
  rw [← inside.depth] at opened
  have within : Inside (depth + 1) (s.enter params) := by
    refine ⟨quiet_of_same inside.quiet fun _ => rfl, congrArg (· + 1) inside.depth, ?_⟩
    exact Nat.le_trans (Nat.le_of_eq (s.nested_enter opened params)) frugal
  obtain ⟨after, spent, finished⟩ :=
    expand allowed maxPasses (Rendered.ofText text) (s.enter params) within
  rw [Engine.render, Run.within_apply]
  refine ⟨⟨after.quiet, congrArg (· - 1) after.depth, after.frugal⟩, ?_, finished⟩
  generalize (Engine.expand calls maxPasses _ (s.enter params)).2 = t at spent
  have left : Spends 0 t (s.leave t) := .still rfl rfl rfl rfl ⟨[], rfl, by simp⟩
  exact (((enter opened shallow params).trans spent).trans left).weaken (by omega)

theorem includeSnippet {calls : Calls} (name : String) (params : Params) (s : Session) :
    (Law.budget depth).At (includeSnippet calls name params) s := by
  intro inside
  refine (snippet name s).bind ?_ inside
  intro found t looked
  obtain ⟨known, -⟩ := Prod.mk.inj looked
  cases found with
  | none => exact Law.Obeyed.pure _ _
  | some found =>
    have quiet := inside.quiet name found (Except.ok.inj known)
    exact ((execute quiet name params).bind fun _ => .pure _) _

theorem includeChunk {calls : Calls} (name : String) (params : Params) (s : Session)
    (renders : ∀ text t, t.engine.mayDescend = true →
      (Law.budget depth).At (calls.render text params) t)
    (free : s.engine.mayDescend = true) :
    (Law.budget depth).At (includeChunk calls name params) s := by
  refine (chunk name s).bind ?_
  intro found t looked
  obtain ⟨-, rfl⟩ := Prod.mk.inj looked
  cases found with
  | none => exact Law.Obeyed.pure _ _
  | some text =>
    refine Law.At.bind (renders text _ ?_) fun _ t _ => Law.Obeyed.pure _ t
    exact free

theorem dispatching {calls : Calls} (renders : ∀ text params s, s.engine.mayDescend = true →
    (Law.budget depth).At (calls.render text params) s) : (Law.budget depth).Dispatching calls where
  refuse s kind name _ inside := by
    refine ⟨⟨inside.quiet, ?_, ?_⟩, ?_, by simp⟩
    · exact (noteLimit_depth s.engine).trans inside.depth
    · exact Nat.le_trans (Nat.le_of_eq (noteLimit_nested s.engine)) inside.frugal
    · exact {
        renders := by rw [noteLimit_nested, noteLimit_renders]
        passes := by rw [noteLimit_nested, noteLimit_passes]; omega
        notices := ⟨[], rfl, by simp⟩
        journal := ⟨[_], rfl, .refusal s.engine kind name⟩ }
  take s kind name free inside := by
    refine ⟨⟨quiet_of_same inside.quiet fun _ => rfl, inside.depth, inside.frugal⟩, ?_, by simp⟩
    exact {
      renders := rfl
      passes := Int.le_of_eq (Int.add_zero _).symm
      notices := ⟨[], rfl, by simp⟩
      journal := ⟨[_], rfl, .taking free kind name⟩ }
  chunk s name params free := includeChunk name params s (fun text => renders text params) free
  snippet s name params _ := includeSnippet name params s

/-- Every nested render begins one level deeper, so the calls that are left always reach the
greatest depth. -/
theorem callsWithin (limit : Nat) : ∀ depth, 0 < depth → maxDepth ≤ depth + limit →
    ∀ text params s, s.engine.mayDescend = true →
      (Law.budget depth).At ((callsWithin limit).render text params) s := by
  induction limit with
  | zero =>
    intro depth _ deep text params s free inside
    have := ((mayDescend_iff s.engine).mp free).1
    have := inside.depth
    omega
  | succ limit ih =>
    intro depth opened deep text params s free
    exact render (dispatching (ih (depth + 1) (by omega) (by omega))) opened text params s free

end Budget

/-- What an outermost render may use up on the way from `s` to `t`, given why it stopped. -/
structure Accounted (s : Session) (stop : Option Stop) (t : Session) : Prop where
  /-- It answers, unless a snippet fails. -/
  finished : stop ≠ some .unfinished
  depth : ∃ notices, t.world.notices = notices ++ s.world.notices ∧
    ∀ depth, .began depth ∈ notices → depth ≤ maxDepth
  grows : s.engine.stats.renders ≤ t.engine.stats.renders
  renders : t.engine.stats.renders ≤ s.engine.stats.renders + (maxNestedRenders + 1)
  passes : t.engine.stats.passes ≤ s.engine.stats.passes +
    maxPasses * (t.engine.stats.renders - s.engine.stats.renders)
  tags : ∃ events, t.world.journal = events ++ s.world.journal ∧
    t.engine.stats.depthLimited =
      s.engine.stats.depthLimited + (if events.any Event.isRefusal then 1 else 0) ∧
    events.Pairwise fun later earlier => ¬ earlier.Overdraws later

namespace Accounted

open Engine

variable {s t : Session} {stop : Option Stop}

/-- Looking up a chunk before the render costs nothing. -/
theorem afterLookup (name : String)
    (accounted : Accounted { s with world := (s.world.chunk name).2 } stop t) :
    Accounted s stop t := by
  obtain ⟨finished, depth, grows, renders, passes, new, happened, limited, ordered⟩ := accounted
  let asked := (s.world.chunks.get s.world.probeChunk name).asked
  let old := (asked.map (Event.probed .chunk · name)).reverse
  have other : ∀ event ∈ old, ¬ event.OfTag := Budget.probes asked .chunk name
  have looking : Chronicle s.engine s.engine old := .silent rfl rfl rfl other
  refine ⟨finished, depth, grows, renders, passes, new ++ old, ?_, ?_, ?_⟩
  · rw [happened, List.append_assoc]
    rfl
  · rw [limited, List.any_append, Chronicle.no_refusal other, Bool.or_false]
  · refine List.pairwise_append.mpr ⟨ordered, looking.ordered, ?_⟩
    rintro later _ earlier member ⟨⟨kind, name, nested, rfl, _⟩, _⟩
    exact other _ member trivial

theorem refl (s : Session) : Accounted s none s where
  finished := by simp
  depth := ⟨[], rfl, by simp⟩
  grows := Nat.le_refl _
  renders := Nat.le_add_right _ _
  passes := Nat.le_add_right _ _
  tags := ⟨[], rfl, rfl, .nil⟩

theorem flattened {work : Run Rendered}
    (accounted : Accounted s (Run.stopped (work s).1) (work s).2) :
    Accounted s (Run.stopped ((do return (← work).flatten : Run String) s).1)
      ((do return (← work).flatten : Run String) s).2 := by
  rw [Run.map_apply, Run.stopped_map]
  exact accounted

/-- The counters of nested renders and of limits start anew with an outermost render. -/
theorem render {calls : Calls} (allowed : (Law.budget 1).Dispatching calls)
    (quiet : s.world.Quiet) (outermost : s.engine.depth = 0) (text : String) (params : Params) :
    Accounted s (Run.stopped (render calls text params s).1) (render calls text params s).2 := by
  have nested := s.nested_enter_outermost outermost params
  have limited : (s.enter params).engine.limited = false := if_pos outermost
  have within : Inside 1 (s.enter params) := by
    refine ⟨Budget.quiet_of_same quiet fun _ => rfl, congrArg (· + 1) outermost, ?_⟩
    exact Nat.le_trans (Nat.le_of_eq nested) (Nat.zero_le _)
  obtain ⟨after, spent, finished⟩ :=
    Budget.expand allowed maxPasses (Rendered.ofText text) (s.enter params) within
  have frugal := after.frugal
  have renders := spent.renders
  have passes := spent.passes
  obtain ⟨notices, noticed, depths⟩ := spent.notices
  obtain ⟨events, happened, chronicle⟩ := spent.journal
  have began : (s.enter params).engine.stats.renders = s.engine.stats.renders + 1 := rfl
  have same : (s.enter params).engine.stats.passes = s.engine.stats.passes := rfl
  rw [began, nested] at renders
  rw [same, nested] at passes
  rw [Engine.render, Run.within_apply]
  generalize (expand calls maxPasses _ (s.enter params)).2 = t at *
  have stats : (s.leave t).engine.stats = t.engine.stats := rfl
  refine ⟨finished, ⟨notices ++ [.began (s.engine.depth + 1)], ?_, ?_⟩, ?_, ?_, ?_, events,
    happened, ?_, chronicle.ordered⟩
  · rw [List.append_assoc]
    exact noticed
  · intro d member
    rcases List.mem_append.mp member with later | first
    · exact depths d later
    · cases List.mem_singleton.mp first
      rw [outermost]
      decide
  · rw [stats]
    omega
  · rw [stats]
    omega
  · rw [stats]
    simp only [maxPasses] at passes ⊢
    omega
  · rw [stats, chronicle.counted, limited]
    simp [Session.enter, Engine.enter]

end Accounted

/-- An outermost render ends, whatever chunks include one another, when no snippet calls back
into the engine. It keeps to the limits on depth, nested renders and passes, counts once that
a limit left tags alone, and takes up no tag after the nested renders have run out. -/
theorem outermost_render_accounted (s : Session) (quiet : s.world.Quiet)
    (outermost : s.engine.depth = 0) (params : Params) :
    (∀ text, Accounted s (Run.stopped (Engine.renderString text params s).1)
      (Engine.renderString text params s).2) ∧
    ∀ name, Accounted s (Run.stopped (Engine.renderNamedChunk name params s).1)
      (Engine.renderNamedChunk name params s).2 := by
  have renders : ∀ (t : Session), t.world.Quiet → t.engine.depth = 0 → ∀ text,
      Accounted t (Run.stopped ((Engine.callsWithin callLimit).render text params t).1)
        ((Engine.callsWithin callLimit).render text params t).2 :=
    fun t quiet outermost text => Accounted.render
      (Budget.dispatching (Budget.callsWithin 1023 1 (by decide) (by decide)))
      quiet outermost text params
  refine ⟨fun text => Accounted.flattened (renders s quiet outermost text), fun name => ?_⟩
  rw [Engine.renderNamedChunk, Calls.renderChunk, Run.onWorld_bind]
  refine Accounted.afterLookup name ?_
  cases (s.world.chunk name).1 with
  | none => exact Accounted.refl _
  | some text =>
    refine Accounted.flattened (renders _ ?_ ?_ text)
    · exact Budget.quiet_of_same quiet fun _ => rfl
    · exact outermost

/-- A site with a chunk that includes itself twice, one that includes itself once, and the snippet
`if`. -/
def branching : Session where
  world := ((({} : World).registerChunk "tree" "([[$tree]][[$tree]])").registerChunk "twig"
    "[[$twig]]").registerSnippet "if" Conditional.snippet

/-- The last tag of the twig is left alone at the depth that is allowed, after 31 nested renders. -/
theorem branching_render_accounted : branching.world.Quiet ∧ branching.engine.depth = 0 ∧
    Accounted branching (Run.stopped (Engine.renderString "[[$tree]]" {} branching).1)
      (Engine.renderString "[[$tree]]" {} branching).2 ∧
    let t := (Engine.renderString "[[$twig]]" {} branching).2
    Accounted branching (Run.stopped (Engine.renderString "[[$twig]]" {} branching).1) t ∧
      t.world.journal.head? = some (.refused .chunk "twig" 31) ∧ t.engine.stats = ⟨32, 63, 0, 1⟩ := by
  have quiet : branching.world.Quiet := by
    intro name snippet found
    rw [branching, World.snippet?_registerSnippet] at found
    split at found
    · cases found
      exact fun _ => trivial
    · cases found
  obtain ⟨accounted, -⟩ := outermost_render_accounted branching quiet rfl {}
  exact ⟨quiet, rfl, accounted "[[$tree]]", accounted "[[$twig]]", by decide +kernel,
    by decide +kernel⟩

end DocSite.Template
