import DocSite.Proofs.Replay
import DocSite.Proofs.Store
import Mathlib.Data.List.Forall2

/-! Engines forked from one another. They share their caches and nothing else: whatever is asked of them
in turn, and whatever becomes of the files meanwhile, an engine depends on the others only through the
answers of the caches. -/
namespace DocSite.Template.Family

/-- What happens to a family. -/
inductive Turn where
  | ask (index : Nat) (operation : Operation)
  | change (files : Files)

def step (f : Family) : Turn → Family
  | .ask index operation => (f.ask index operation).2
  | .change files => { f with world := { f.world with files } }

def after (f : Family) (history : List Turn) : Family := history.foldl step f

/-- One new engine, with new caches. -/
def new (w : World) : Family where
  engines := [{}]
  world := { w with chunks := {}, snippets := {}, journal := [] }

/-- The turns of a history, each with the family before it. -/
def moments (f : Family) : List Turn → List (Family × Turn)
  | [] => []
  | turn :: rest => (f, turn) :: (f.step turn).moments rest

/-- What the engine at `index` is asked at this moment, and the world then. -/
def asked? (index : Nat) : Family × Turn → Option (Operation × World)
  | (f, .ask i operation) =>
    if i = index ∧ index < f.engines.length then some (operation, f.world) else none
  | (_, .change _) => none

/-- All that is asked of the engine at `index`. -/
def own (f : Family) (index : Nat) (history : List Turn) : List (Operation × World) :=
  (f.moments history).filterMap (asked? index)

/-- The placeholders of the engine that the one at `index` is forked from at this moment. -/
def forked? (index : Nat) : Family × Turn → Option Placeholders
  | (f, .ask i .fork) =>
    if index = f.engines.length then f.engines[i]?.map (·.placeholders) else none
  | _ => none

/-- The placeholders of the parent of the engine at `index` at the time of its fork. -/
def inherited (f : Family) (index : Nat) (history : List Turn) : Placeholders :=
  ((f.moments history).findSome? (forked? index)).getD {}

section Engines

variable {f : Family} {index i : Nat} {e : Engine} {operation : Operation}

/-- What becomes of a family that is asked something: nothing if the engine is missing, a further engine,
or another engine and world in place of the ones there. -/
theorem ask_cases (f : Family) (i : Nat) (operation : Operation) :
    (f.engines[i]? = none ∧ (f.ask i operation).2 = f) ∨
      ∃ e, f.engines[i]? = some e ∧
        ((operation = .fork ∧ (f.ask i operation).2 = { f with engines := f.engines ++ [e.fork] }) ∨
          (operation ≠ .fork ∧ (f.ask i operation).2 =
            ⟨f.engines.set i (answer operation ⟨e, f.world⟩).2.engine,
              (answer operation ⟨e, f.world⟩).2.world⟩)) := by
  cases there : f.engines[i]? with
  | none =>
    refine .inl ⟨rfl, ?_⟩
    rw [ask, there]
  | some e =>
    refine .inr ⟨e, rfl, ?_⟩
    rw [ask, there]
    cases operation with
    | fork => exact .inl ⟨rfl, rfl⟩
    | _ => exact .inr ⟨nofun, rfl⟩

theorem own_cons (f : Family) (index : Nat) (turn : Turn) (rest : List Turn) :
    f.own index (turn :: rest) =
      (asked? index (f, turn)).toList ++ (f.step turn).own index rest := by
  rw [own, moments, List.filterMap_cons]
  cases asked? index (f, turn) <;> rfl

theorem inherited_cons (f : Family) (index : Nat) (turn : Turn) (rest : List Turn) :
    f.inherited index (turn :: rest) =
      (forked? index (f, turn)).getD ((f.step turn).inherited index rest) := by
  rw [inherited, moments, List.findSome?_cons]
  cases forked? index (f, turn) <;> rfl

theorem asked?_ask (present : f.engines[index]? = some e) (operation : Operation) :
    asked? index (f, .ask index operation) = some (operation, f.world) :=
  if_pos ⟨rfl, (List.getElem?_eq_some_iff.mp present).1⟩

theorem ask_world (present : f.engines[i]? = some e) (operation : Operation) :
    (f.ask i operation).2.world = (answer operation ⟨e, f.world⟩).2.world := by
  rcases f.ask_cases i operation with ⟨absent, -⟩ | ⟨e', there, ⟨rfl, forked⟩ | ⟨-, answered⟩⟩
  · cases absent.symm.trans present
  · rw [forked]
    rfl
  · cases there.symm.trans present
    rw [answered]

/-- What one turn makes of an engine that is there. -/
theorem engine_step (present : f.engines[index]? = some e) (turn : Turn) :
    (f.step turn).engines[index]? = some (replay e (asked? index (f, turn)).toList) := by
  cases turn with
  | change files => exact present
  | ask i operation =>
    obtain ⟨within, -⟩ := List.getElem?_eq_some_iff.mp present
    rw [step]
    by_cases here : i = index
    · subst here
      rw [asked?_ask present]
      rcases f.ask_cases i operation with ⟨absent, -⟩ | ⟨e', there, ⟨rfl, forked⟩ | ⟨-, answered⟩⟩
      · cases absent.symm.trans present
      · rw [forked, List.getElem?_append_left within]
        exact present
      · cases there.symm.trans present
        rw [answered, List.getElem?_set_self within]
        rfl
    · have none : asked? index (f, .ask i operation) = none := if_neg fun asked => here asked.1
      rw [none]
      change _ = some e
      rcases f.ask_cases i operation with ⟨-, same⟩ | ⟨e', -, ⟨-, forked⟩ | ⟨-, answered⟩⟩
      · rwa [same]
      · rwa [forked, List.getElem?_append_left within]
      · rwa [answered, List.getElem?_set_ne here]

/-- An engine that is there comes to what it would come to without the others. -/
theorem engine_after (history : List Turn) (present : f.engines[index]? = some e) :
    (f.after history).engines[index]? = some (replay e (f.own index history)) := by
  induction history generalizing f e with
  | nil => exact present
  | cons turn rest ih =>
    rw [own_cons, replay, List.foldl_append]
    exact ih (engine_step present turn)

theorem forked?_of_ne {operation : Operation} (other : operation ≠ .fork) :
    forked? index (f, .ask i operation) = none := by
  cases operation with
  | fork => exact absurd rfl other
  | _ => rfl

/-- An engine that is not there yet is not there after a turn either, or is forked off in it. -/
theorem step_absent (absent : f.engines.length ≤ index) (turn : Turn) :
    ((f.step turn).engines.length ≤ index ∧ forked? index (f, turn) = none) ∨
      ∃ values, forked? index (f, turn) = some values ∧
        (f.step turn).engines[index]? = some { placeholders := values } := by
  cases turn with
  | change files => exact .inl ⟨absent, rfl⟩
  | ask i operation =>
    rw [step]
    rcases f.ask_cases i operation with ⟨missing, same⟩ | ⟨e, there, ⟨rfl, forked⟩ | ⟨other, answered⟩⟩
    · refine .inl ⟨by rwa [same], ?_⟩
      by_cases fork : operation = .fork
      · subst fork
        rw [forked?, missing]
        exact ite_self _
      · exact forked?_of_ne fork
    · rw [forked, forked?, there]
      by_cases next : index = f.engines.length
      · subst next
        exact .inr ⟨e.placeholders, if_pos rfl, List.getElem?_concat_length⟩
      · refine .inl ⟨?_, if_neg next⟩
        rw [List.length_append, List.length_singleton]
        omega
    · refine .inl ⟨?_, forked?_of_ne other⟩
      rwa [answered, List.length_set]

/-- An engine that is forked off comes to what one with the placeholders of its parent comes to. -/
theorem engine_forked (history : List Turn) (absent : f.engines.length ≤ index)
    (there : (f.after history).engines[index]? = some e) :
    e = replay { placeholders := f.inherited index history } (f.own index history) := by
  induction history generalizing f with
  | nil =>
    rw [after, List.foldl_nil, List.getElem?_eq_none absent] at there
    cases there
  | cons turn rest ih =>
    have none : asked? index (f, turn) = none := by
      cases turn with
      | change files => rfl
      | ask i operation => exact if_neg fun asked => Nat.not_lt.mpr absent asked.2
    rw [own_cons, inherited_cons, none]
    rcases step_absent absent turn with ⟨still, never⟩ | ⟨values, forked, present⟩
    · rw [never]
      exact ih still there
    · rw [forked]
      have reached := engine_after rest present
      exact Option.some.inj (there.symm.trans reached)

theorem inherited_present (history : List Turn) (present : f.engines[index]? = some e) :
    f.inherited index history = {} := by
  induction history generalizing f e with
  | nil => rfl
  | cons turn rest ih =>
    obtain ⟨within, -⟩ := List.getElem?_eq_some_iff.mp present
    have never : forked? index (f, turn) = none := by
      cases turn with
      | change files => rfl
      | ask i operation =>
        by_cases fork : operation = .fork
        · subst fork
          exact if_neg (Nat.ne_of_lt within)
        · exact forked?_of_ne fork
    rw [inherited_cons, never]
    exact ih (engine_step present turn)

/-- The first engine has no parent and begins without placeholders. -/
theorem engine_new {w : World} {history : List Turn}
    (there : ((new w).after history).engines[index]? = some e) :
    e = replay { placeholders := (new w).inherited index history } ((new w).own index history) := by
  cases index with
  | zero =>
    have first : (new w).engines[0]? = some { placeholders := {} } := rfl
    rw [inherited_present history first]
    exact Option.some.inj (there.symm.trans (engine_after history first))
  | succ index => exact engine_forked history (Nat.le_add_left 1 index) there

end Engines

/-- What an operation demands of the caches in this world. Lookups, registrations and search paths
demand just that; renders may look up and register what they like. -/
def Operation.Demands (w : World) : Operation → List Demand → Prop
  | .registerChunk name text, demands => demands = [.chunk (.register name text)]
  | .registerSnippet name snippet, demands => demands = [.snippet (.register name snippet)]
  | .registerBuiltins, demands => demands = [.snippet (.register "if" Conditional.snippet)]
  | .addChunkPath path, demands => demands = [.chunk (.addSearchPath path)]
  | .addSnippetPath path, demands => demands = [.snippet (.addSearchPath path)]
  | .chunk name, demands | .hasChunk name, demands => demands = [.chunk (.get w.probeChunk name)]
  | .render .., demands | .renderChunk .., demands | .runSnippet .., demands =>
    ∀ demand ∈ demands, w.Permits demand
  | .set .., demands | .setMany _, demands | .unset _, demands | .get _, demands
  | .getD .., demands | .chunkPaths, demands | .snippetPaths, demands | .stats, demands
  | .fork, demands => demands = []

/-- What is demanded of the caches at this moment. A missing engine demands nothing. -/
def Demands : Family × Turn → List Demand → Prop
  | (f, .ask i operation), demands =>
    if i < f.engines.length then operation.Demands f.world demands else demands = []
  | (_, .change _), demands => demands = []

section Caches

variable {store : Store}

/-- The caches of a family do what they would do as one store of which all this is demanded. -/
theorem answer_demands (operation : Operation) (e : Engine) {w : World} (shows : w.Shows store) :
    ∃ demands : List Demand, operation.Demands w demands ∧
      (answer operation ⟨e, w⟩).2.world.Shows (demands.foldl Store.serve store) := by
  have universal := Demanding.universal
  have kept := universal.callsWithin callLimit
  cases operation with
  | registerChunk name text =>
    exact ⟨[_], rfl, { shows with chunks := congrArg (Cache.register · name text) shows.chunks }⟩
  | registerSnippet name snippet =>
    exact ⟨[_], rfl, { shows with
      snippets := congrArg (fun c : Cache Snippet => c.register name snippet) shows.snippets }⟩
  | registerBuiltins =>
    exact ⟨[_], rfl, { shows with
      snippets := congrArg (fun c : Cache Snippet => c.register "if" Conditional.snippet)
        shows.snippets }⟩
  | addChunkPath path =>
    exact ⟨[_], rfl, { shows with chunks := congrArg (Cache.addSearchPath · path) shows.chunks }⟩
  | addSnippetPath path =>
    exact ⟨[_], rfl, { shows with
      snippets := congrArg (fun c : Cache Snippet => c.addSearchPath path) shows.snippets }⟩
  | chunk name => exact ⟨[_], rfl, shows.chunk name⟩
  | hasChunk name => exact ⟨[_], rfl, shows.chunk name⟩
  | render text params =>
    exact (((kept.render text params).bind fun _ => .pure _) ⟨e, w⟩).1 store shows
  | renderChunk name params => exact (universal.renderChunk kept name params ⟨e, w⟩).1 store shows
  | runSnippet name params => exact (kept.runSnippet name params ⟨e, w⟩).1 store shows
  | set | setMany | unset | get | getD | chunkPaths | snippetPaths | stats | fork =>
    exact ⟨[], rfl, shows⟩

theorem step_demands {f : Family} (shows : f.world.Shows store) (turn : Turn) :
    ∃ demands : List Demand, Demands (f, turn) demands ∧
      (f.step turn).world.Shows (demands.foldl Store.serve store) := by
  cases turn with
  | change files => exact ⟨[], rfl, { shows with }⟩
  | ask i operation =>
    cases present : f.engines[i]? with
    | none =>
      have missing := Nat.not_lt.mpr (List.getElem?_eq_none_iff.mp present)
      obtain ⟨-, same⟩ | ⟨e, there, -⟩ := f.ask_cases i operation
      · refine ⟨[], (if_neg missing).mpr rfl, ?_⟩
        rwa [step, same]
      · cases present.symm.trans there
    | some e =>
      obtain ⟨within, -⟩ := List.getElem?_eq_some_iff.mp present
      obtain ⟨demands, demanded, shows⟩ := answer_demands operation e shows
      refine ⟨demands, (if_pos within).mpr demanded, ?_⟩
      rwa [step, ask_world present]

theorem after_demands {f : Family} (shows : f.world.Shows store) (history : List Turn) :
    ∃ demands : List (List Demand), List.Forall₂ Demands (f.moments history) demands ∧
      (f.after history).world.Shows (demands.flatten.foldl Store.serve store) := by
  induction history generalizing f store with
  | nil => exact ⟨[], .nil, shows⟩
  | cons turn rest ih =>
    obtain ⟨now, demanded, shows⟩ := step_demands shows turn
    obtain ⟨later, demanded', shows⟩ := ih shows
    refine ⟨now :: later, .cons demanded demanded', ?_⟩
    rwa [List.flatten_cons, List.foldl_append]

end Caches

/-- Whatever is asked of engines that are forked from one another, in turn and while files change, the
placeholders and counters of each come from the placeholders of its parent at the time of its fork and
from what is asked of itself, given what its world answers to what it asks in turn. The caches are
those of a single store of which all is demanded that the engines demand, and it loads no chunk and no
snippet twice. -/
theorem forks_share_caches (w : World) (history : List Turn) :
    (∀ (w' : World) (history' : List Turn) (i j : Nat) (e e' : Engine),
      ((new w).after history).engines[i]? = some e →
      ((new w').after history').engines[j]? = some e' →
      ((new w).inherited i history).Alike ((new w').inherited j history') →
      Repeats { placeholders := (new w').inherited j history' } ((new w).own i history)
        ((new w').own j history') →
      e.placeholders.Alike e'.placeholders ∧ e'.stats = e.stats) ∧
    ∃ demands : List (List Demand), List.Forall₂ Demands ((new w).moments history) demands ∧
      let store := Store.after demands.flatten
      let f := (new w).after history
      f.world.Shows store ∧ (store.loads.map Load.resource).Nodup ∧
      (∀ i name, i < f.engines.length →
        (f.ask i (.chunk name)).1 = .found (store.chunks.get f.world.probeChunk name).answer) ∧
      ∀ name, f.world.snippet? name = (store.snippets.get f.world.probeSnippet name).answer := by
  constructor
  · intro w' history' i j e e' there there' inherited repeats
    rw [engine_new there, engine_new there']
    have born : Engine.Alike { placeholders := (new w).inherited i history }
        { placeholders := (new w').inherited j history' } := ⟨inherited, rfl, rfl, rfl, rfl⟩
    have same := replay_alike repeats born
    exact ⟨same.placeholders, same.stats⟩
  · have begun : (new w).world.Shows {} := ⟨rfl, rfl, rfl⟩
    obtain ⟨demands, demanded, reached⟩ := after_demands begun history
    have shows : ((new w).after history).world.Shows (.after demands.flatten) := reached
    refine ⟨demands, demanded, shows, (Store.thrifty_after demands.flatten).once, ?_, ?_⟩
    · intro i name within
      rw [ask, List.getElem?_eq_getElem within, ← shows.chunks]
      rfl
    · intro name
      rw [← shows.snippets]
      rfl

/-! Two families that have little in common but what is asked of one engine in each of them. -/
namespace Kin

def card : String × String := ("card", "[[+who]] at [[+site]]")

/-- A chunk that only the second family has. The engine never asks for it. -/
def aside : String × String := ("aside", "beside [[$card]]")

/-- The engine is forked off before there is a chunk, and its parent goes on. -/
def early : List Turn := [
  .ask 0 (.set "site" "Docs"), .ask 0 (.set "who" "all"), .ask 0 .fork, .ask 0 (.unset "site"),
  .ask 1 (.set "who" "me"), .ask 0 (.registerChunk card.1 card.2), .change { current := ["site"] },
  .ask 1 (.render "[[$card]]" {})]

/-- The engine is forked off later and has a sibling. -/
def late : List Turn := [
  .ask 0 (.registerChunk card.1 card.2), .ask 0 (.registerChunk aside.1 aside.2),
  .ask 0 (.set "who" "all"), .ask 0 (.set "site" "Docs"), .ask 0 .fork, .ask 0 .fork,
  .ask 1 (.set "site" "Mine"), .ask 2 (.set "who" "me"), .ask 2 (.render "[[$card]]" {}),
  .ask 1 (.render "[[$aside]]" {})]

/-- What the engine is in the end, up to the order of its placeholders. -/
def engine (placeholders : List (String × String)) : Engine where
  placeholders := ⟨placeholders⟩
  nested := 1
  stats := ⟨2, 4, 0, 0⟩

def first : Engine := engine [("site", "Docs"), ("who", "me")]

def second : Engine := engine [("who", "me"), ("site", "Docs")]

def worldEarly : World :=
  { (new {}).world.registerChunk card.1 card.2 with files := { current := ["site"] } }

def worldLate : World := ((new {}).world.registerChunk card.1 card.2).registerChunk aside.1 aside.2

theorem alike : worldEarly.AlikeOn (· ∈ [.chunk "card"]) worldLate where
  chunk? about := by
    cases List.mem_singleton.mp about
    decide +kernel
  snippet? about := nomatch List.mem_singleton.mp about
  script about := nomatch List.mem_singleton.mp about
  counter about := nomatch List.mem_singleton.mp about

theorem repeats : Repeats { placeholders := (new {}).inherited 2 late } ((new {}).own 1 early)
    ((new {}).own 2 late) := by
  have own : (new {}).own 1 early =
      [(.set "who" "me", (new {}).world), (.render "[[$card]]" {}, worldEarly)] := rfl
  have own' : (new {}).own 2 late =
      [(.set "who" "me", worldLate), (.render "[[$card]]" {}, worldLate)] := rfl
  rw [own, own']
  refine .cons nofun (.cons (fun _ => ?_) .nil)
  have asked : queries (.render "[[$card]]" {}) (answer (.set "who" "me")
      ⟨{ placeholders := (new {}).inherited 2 late }, worldLate⟩).2.engine worldLate =
        [.chunk "card"] := by
    decide +kernel
  rw [asked]
  exact alike

end Kin

open Kin in
theorem kin_share_caches :
    ((new {}).after early).engines[1]? = some first ∧ ((new {}).after late).engines[2]? = some second ∧
    ((new {}).inherited 1 early).Alike ((new {}).inherited 2 late) ∧
    Repeats { placeholders := (new {}).inherited 2 late } ((new {}).own 1 early)
      ((new {}).own 2 late) ∧
    first.placeholders.Alike second.placeholders ∧ second.stats = first.stats := by
  have there : ((new {}).after early).engines[1]? = some first := by decide +kernel
  have there' : ((new {}).after late).engines[2]? = some second := by decide +kernel
  have inherited : ((new {}).inherited 1 early).Alike ((new {}).inherited 2 late) :=
    .of_agree (by decide +kernel)
  exact ⟨there, there', inherited, repeats,
    (forks_share_caches {} early).1 {} late 1 2 first second there there' inherited repeats⟩

end DocSite.Template.Family
