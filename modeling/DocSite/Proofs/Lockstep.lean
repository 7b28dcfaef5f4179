import DocSite.Proofs.Alongside
import DocSite.Proofs.SameAnswers

/-! Two runs in lockstep, from engines that may have rendered different things before and in worlds
that give the same answers. What engines keep of earlier renders does not count for later ones. -/
namespace DocSite.Template

theorem Stats.add_assoc (a b c : Stats) : a + b + c = a + (b + c) := by
  change add (add a b) c = add a (add b c)
  simp only [add, Nat.add_assoc]

theorem Stats.add_comm (a b : Stats) : a + b = b + a := by
  change add a b = add b a
  simp only [add, Nat.add_comm]

theorem Stats.add_right_cancel {a b c : Stats} (same : a + c = b + c) : a = b := by
  rw [Stats.add_eq_iff] at same
  obtain ⟨renders, passes, exhausted, limited⟩ := a
  obtain ⟨renders', passes', exhausted', limited'⟩ := b
  rw [mk.injEq]
  dsimp only at same
  omega

/-- What renders add to the counters of an engine is never taken back. -/
def Law.counting : Law where
  Holds s _ t := ∃ more, t.engine.stats = s.engine.stats + more
  refl s := ⟨{}, rfl⟩
  trans := by
    rintro s t u stop ⟨more, same⟩ ⟨more', same'⟩
    refine ⟨more + more', ?_⟩
    rw [same', same, Stats.add_assoc]

namespace Counting

theorem universal : Law.counting.Universal where
  ends held := held
  placeholders _ s := Law.counting.refl s
  stats f grows s := grows s.engine.stats
  world _ s := Law.counting.refl s
  refuse s kind name := by
    cases limited : s.engine.limited with
    | true => exact ⟨{}, by rw [Engine.noteLimit, limited]; rfl⟩
    | false => exact ⟨⟨0, 0, 0, 1⟩, by rw [Engine.noteLimit, limited]; rfl⟩
  within params obeyed s := by
    obtain ⟨more, counted⟩ := obeyed (s.enter params)
    refine ⟨⟨1, 0, 0, 0⟩ + more, counted.trans ?_⟩
    rw [← Stats.add_assoc]
    rfl

end Counting

/-- From `s₀` to `s` and from `t₀` to `t` the same has happened. -/
structure Lockstep (R : World → World → Prop) (s₀ t₀ s t : Session) : Prop where
  placeholders : s.engine.placeholders.Alike t.engine.placeholders
  depth : t.engine.depth = s.engine.depth
  nested : t.engine.nested = s.engine.nested
  limited : t.engine.limited = s.engine.limited
  stats : s.engine.stats + t₀.engine.stats = t.engine.stats + s₀.engine.stats
  world : R s.world t.world
  files : s.world.files = s₀.world.files
  files' : t.world.files = t₀.world.files
  /-- Counters that differ are not asked for. -/
  blind : t₀.engine.stats = s₀.engine.stats ∨ s.world.Blind

/-- The second run is excused once its world is in `E`. -/
def Coupling.lockstep (R : World → World → Prop) (E : World → Prop) (s₀ t₀ : Session) : Coupling where
  Holds := Lockstep R s₀ t₀
  aware := t₀.engine.stats = s₀.engine.stats
  Runs path := Script.run t₀.world.files path = Script.run s₀.world.files path
  Excuses _ t := E t.world
  law := Law.growth.both Law.querying

namespace Lockstep

variable {R : World → World → Prop} {E : World → Prop} {s₀ t₀ s t u v : Session}

theorem mayDescend (here : Lockstep R s₀ t₀ s t) : t.engine.mayDescend = s.engine.mayDescend := by
  rw [Engine.mayDescend, Engine.mayDescend, here.depth, here.nested]

theorem fits (lasting : World.Lasting R E) (here : Lockstep R s₀ t₀ s t) {name : String}
    {snippet : Snippet} (found : s.world.snippet? name = some snippet) :
    E (t.world.snippet name).2 ∨ (Coupling.lockstep R E s₀ t₀).Fits snippet := by
  cases snippet with
  | program start => exact .inr (here.blind.imp_right fun blind => blind name _ found)
  | script path =>
    refine (lasting.script here.world found).imp_right fun same => ?_
    rwa [here.files, here.files'] at same

theorem move (lasting : World.Lasting R E) {α : Type} {f : World → α × World}
    (move : World.Move (Coupling.lockstep R E s₀ t₀).Fits f) (here : Lockstep R s₀ t₀ s t) :
    E (f t.world).2 ∨ ((f s.world).1 = (f t.world).1 ∧
      Lockstep R s₀ t₀ { s with world := (f s.world).2 } { t with world := (f t.world).2 }) := by
  refine (lasting.move move here.world).imp_right fun ⟨same, world⟩ => ⟨same, { here with
    world
    files := (move.files s.world).trans here.files
    files' := (move.files t.world).trans here.files'
    blind := ?_ }⟩
  by_cases aware : t₀.engine.stats = s₀.engine.stats
  · exact .inl aware
  · right
    refine World.Move.blind (move.mono fun snippet fits => ?_) (here.blind.resolve_left aware)
    cases snippet with
    | program start => exact fits.resolve_left aware
    | script path => trivial

theorem refuse (here : Lockstep R s₀ t₀ s t) (lasting : World.Lasting R E) (kind : TagKind)
    (name : String) :
    E (t.refuse kind name).world ∨ Lockstep R s₀ t₀ (s.refuse kind name) (t.refuse kind name) := by
  have recorded := here.move lasting (.record (.refused kind name s.engine.nested) rfl)
  rw [Session.refuse, Session.refuse, here.nested]
  rcases recorded with away | ⟨-, there⟩
  · exact .inl away
  refine .inr { there with
    placeholders := ?_
    depth := ?_
    nested := ?_
    limited := ?_
    stats := ?_ }
  · simpa using here.placeholders
  · simpa using here.depth
  · simpa using here.nested
  · simp
  · have stats := here.stats
    rw [Stats.add_eq_iff] at stats ⊢
    simp only [Engine.noteLimit, here.limited]
    cases s.engine.limited <;> simp <;> omega

theorem enter (here : Lockstep R s₀ t₀ s t) (lasting : World.Lasting R E) (params : Params) :
    Lockstep R s₀ t₀ (s.enter params) (t.enter params) := by
  rw [Session.enter, Session.enter, here.depth]
  refine { here with
    placeholders := here.placeholders.extend params.entries
    depth := congrArg (· + 1) here.depth
    nested := ?_
    limited := ?_
    stats := ?_
    world := lasting.note _ here.world }
  · rw [Engine.enter, Engine.enter, here.depth, here.nested]
  · rw [Engine.enter, Engine.enter, here.depth, here.limited]
  · have stats := here.stats
    rw [Stats.add_eq_iff] at stats ⊢
    simp only [Engine.enter]
    omega

theorem leave (here : Lockstep R s₀ t₀ s t) (there : Lockstep R s₀ t₀ u v) :
    Lockstep R s₀ t₀ (s.leave u) (t.leave v) :=
  { there with
    placeholders := here.placeholders
    depth := congrArg (· - 1) there.depth }

theorem universal (lasting : World.Lasting R E) (s₀ t₀ : Session) :
    (Coupling.lockstep R E s₀ t₀).Universal where
  law := Growth.universal.both Querying.universal
  lasts := by
    rintro s t stop excuse ⟨⟨events, grown⟩, queried⟩
    exact lasting.stays excuse grown queried
  caught excuse := excuse
  scope here := here.placeholders
  stats {s t} aware here := by
    have counted : s.engine.stats + t₀.engine.stats = t.engine.stats + s₀.engine.stats := here.stats
    rw [(aware : t₀.engine.stats = s₀.engine.stats)] at counted
    exact (Stats.add_right_cancel counted).symm
  script {s t path} runs here := by
    have same : Script.run t₀.world.files path = Script.run s₀.world.files path := runs
    rwa [← here.files, ← here.files'] at same
  fits here found := here.fits lasting found
  placeholders alike here := { here with placeholders := alike here.placeholders }
  move move here := here.move lasting move
  countPass here := { here with
    stats := by
      have stats := here.stats
      rw [Stats.add_eq_iff] at stats ⊢
      simp only [Engine.countPass]
      omega }
  countExhausted here := { here with
    stats := by
      have stats := here.stats
      rw [Stats.add_eq_iff] at stats ⊢
      simp only [Engine.countExhausted]
      omega }
  descend here free := here.mayDescend.symm.trans free
  refuse kind name here refused := (here.refuse lasting kind name).imp_right fun there =>
    ⟨here.mayDescend.symm.trans refused, there⟩
  enter params here := here.enter lasting params
  leave here _ there := here.leave there
  left excuse := excuse

theorem callsWithin (lasting : World.Lasting R E) (s₀ t₀ : Session) (limit : Nat) :
    (Coupling.lockstep R E s₀ t₀).OnCalls (Engine.callsWithin limit) (Engine.callsWithin limit) :=
  (universal lasting s₀ t₀).callsWithin 0 limit nofun

/-- An outermost render does not look at how far earlier renders have gone. -/
theorem outermost (lasting : World.Lasting R E) (depth : s.engine.depth = 0)
    (depth' : t.engine.depth = 0) (placeholders : s.engine.placeholders.Alike t.engine.placeholders)
    (world : R s.world t.world) (blind : s.world.Blind) (params : Params) :
    Lockstep R s t (s.enter params) (t.enter params) where
  placeholders := placeholders.extend params.entries
  depth := congrArg (· + 1) (depth'.trans depth.symm)
  nested := by
    change (if t.engine.depth = 0 then 0 else _) = if s.engine.depth = 0 then 0 else _
    rw [if_pos depth, if_pos depth']
  limited := by
    change (if t.engine.depth = 0 then false else _) = if s.engine.depth = 0 then false else _
    rw [if_pos depth, if_pos depth']
  stats := by
    rw [Stats.add_eq_iff]
    simp only [Session.enter, Engine.enter]
    omega
  world := by
    rw [Session.enter, Session.enter, depth, depth']
    exact lasting.note _ world
  files := rfl
  files' := rfl
  blind := .inr blind

end Lockstep

open Engine

/-- Renders that begin outside any other from the same placeholders and with the same caches come to
the same, add the same to all counters, and leave the same placeholders and caches, whatever the
engines have rendered before and whether that was cut short by a limit or a failure, and however many
calls may be open. -/
theorem outermost_renders_alike (limit : Nat) {s t : Session} (outermost : s.engine.depth = 0)
    (outermost' : t.engine.depth = 0)
    (placeholders : s.engine.placeholders.Alike t.engine.placeholders)
    (world : s.world.Same t.world) (blind : s.world.Blind) (text : String) (params : Params) :
    let first := (callsWithin limit).renderString text params s
    let second := (callsWithin limit).renderString text params t
    second.1 = first.1 ∧
      (∃ spent, first.2.engine.stats = s.engine.stats + spent ∧
        second.2.engine.stats = t.engine.stats + spent) ∧
      first.2.engine.placeholders.Alike second.2.engine.placeholders ∧
      first.2.world.Same second.2.world := by
  cases limit with
  | zero => exact ⟨rfl, ⟨{}, rfl, rfl⟩, placeholders, world⟩
  | succ limit =>
  simp only [renderStringWithin_apply]
  have lasting := World.Same.lasting
  have start := Lockstep.outermost lasting outermost outermost' placeholders world blind params
  have agree := (Lockstep.universal lasting s t).expand (Lockstep.callsWithin lasting s t limit)
    maxPasses (.ofText text)
  obtain ⟨same, there⟩ := (agree.meet start).resolve_left id
  have kept := Counting.universal.expand (Counting.universal.callsWithin limit) maxPasses
    (.ofText text)
  obtain ⟨spent, counted⟩ := Counting.universal.within params kept s
  rw [Run.within_apply] at counted
  rw [render, Run.within_apply, Run.within_apply]
  refine ⟨congrArg _ same.symm, ⟨spent, counted, ?_⟩, placeholders, there.world⟩
  apply Stats.add_right_cancel
  calc (expand _ _ _ (t.enter params)).2.engine.stats + s.engine.stats
    _ = (expand _ _ _ (s.enter params)).2.engine.stats + t.engine.stats := there.stats.symm
    _ = s.engine.stats + spent + t.engine.stats := congrArg (· + t.engine.stats) counted
    _ = t.engine.stats + (spent + s.engine.stats) := by
      rw [Stats.add_comm, Stats.add_comm spent]
    _ = t.engine.stats + spent + s.engine.stats := (Stats.add_assoc ..).symm

/-! An engine that a limit has stopped before, beside one that has not rendered anything yet. -/
namespace Worn

def sign : Snippet := .program fun params => .get "site" fun site =>
  .done (params.getD "by" "" ++ site.getD "")

def card : String × String := ("card", "[[+who]]: [[sign &by=`[[$pen]]`]]")

def pen : String × String := ("pen", "written for ")

def fresh : Session where
  engine := { placeholders := ⟨[("site", "Docs"), ("who", "all")]⟩ }
  world := ((({} : World).registerChunk card.1 card.2).registerChunk pen.1 pen.2).registerSnippet
    "sign" sign

def worn : Session where
  engine := {
    placeholders := ⟨[("who", "all"), ("site", "Docs")]⟩
    nested := maxNestedRenders
    limited := true
    stats := ⟨4097, 4130, 2, 1⟩ }
  world := { ((({} : World).registerChunk pen.1 pen.2).registerChunk card.1 card.2).registerSnippet
    "sign" sign with journal := [.refused .chunk "card" maxNestedRenders] }

theorem placeholders : fresh.engine.placeholders.Alike worn.engine.placeholders :=
  .of_agree (by decide)

theorem world : fresh.world.Same worn.world where
  chunks := by
    refine ⟨rfl, fun name => ?_⟩
    change (Cache.known? ((Cache.register {} pen.1 pen.2).register card.1 card.2) name) =
      Cache.known? ((Cache.register {} card.1 card.2).register pen.1 pen.2) name
    simp only [Cache.known?_register]
    by_cases here : name = card.1
    · subst here
      decide
    · simp [here]
  snippets := .refl _
  chunkExtension := rfl
  snippetExtension := rfl
  files := rfl
  counters := rfl

theorem blind : fresh.world.Blind := by
  have empty : ({} : World).Blind := nofun
  have chunks := (World.Move.registerChunk pen.1 pen.2).blind
    ((World.Move.registerChunk card.1 card.2).blind empty)
  exact (World.Move.registerSnippet "sign" _ fun _ _ => trivial).blind chunks

end Worn

open Worn in
theorem worn_engine_renders_alike :
    let first := renderString "[[$card &who=`me`]]" {} fresh
    let second := renderString "[[$card &who=`me`]]" {} worn
    first.1 = .ok "me: written for Docs" ∧ second.1 = first.1 ∧
      (∃ spent, first.2.engine.stats = fresh.engine.stats + spent ∧
        second.2.engine.stats = worn.engine.stats + spent) ∧
      first.2.engine.placeholders.Alike second.2.engine.placeholders ∧
      first.2.world.Same second.2.world := by
  have answered : (renderString "[[$card &who=`me`]]" {} fresh).1 = .ok "me: written for Docs" := by
    decide +kernel
  exact ⟨answered, outermost_renders_alike callLimit rfl rfl placeholders world blind _ _⟩

end DocSite.Template
