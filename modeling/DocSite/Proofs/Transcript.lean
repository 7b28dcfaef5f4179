import DocSite.Proofs.Grammar
import DocSite.Proofs.Rendered
import DocSite.Proofs.Run

/-! What one pass does to each part of a source, with any dispatcher: text stays, a tag gives way
to what the dispatcher answers, and a deferred tag to its canonical form. -/
namespace DocSite.Template

variable {ε σ : Type} {dispatch : Dispatcher (Work ε σ)} {s t : σ}

/-- What takes the place of each piece, while the dispatcher goes from one state to another. -/
inductive Transcribed (dispatch : Dispatcher (Work ε σ)) :
    σ → List Piece → List Rendered → σ → Prop where
  | done {s : σ} : Transcribed dispatch s [] [] s
  | text {s t : σ} {chars : List Char} {rest : List Piece} {places : List Rendered} :
    Transcribed dispatch s rest places t →
    Transcribed dispatch s (.text chars :: rest) (Rendered.ofText (String.ofList chars) :: places) t
  /-- The tags inside a span that is no tag are tried, and it stays as it is. -/
  | literal {s between t : σ} {source : List Char} {inner : List Span} {dirty : Bool}
    {rest : List Piece} {places : List Rendered} :
    Span.visitAll dispatch inner false s = (.ok dirty, between) →
    Transcribed dispatch between rest places t →
    Transcribed dispatch s (.span (.literal source inner) :: rest)
      (Rendered.ofText (String.ofList source) :: places) t
  | resolved {s named between t : σ} {kind : TagKind} {name : String} {arguments : List Argument}
    {source : List Char} {params : Params} {dirty resolved : Bool} {place : Rendered}
    {rest : List Piece} {places : List Rendered} :
    Argument.resolveAll dispatch arguments {} false s = (.ok (params, dirty), named) →
    dispatch { kind, name, params } source named = (.ok (place, resolved), between) →
    Transcribed dispatch between rest places t →
    Transcribed dispatch s (.span (.tag false kind name arguments source) :: rest)
      (place :: places) t
  | undeferred {s between t : σ} {kind : TagKind} {name : String} {arguments : List Argument}
    {source : List Char} {params : Params} {dirty : Bool} {rest : List Piece}
    {places : List Rendered} :
    Argument.resolveAll dispatch arguments {} false s = (.ok (params, dirty), between) →
    Transcribed dispatch between rest places t →
    Transcribed dispatch s (.span (.tag true kind name arguments source) :: rest)
      (Rendered.ofText (toString ({ kind, name, params } : Tag)) :: places) t

/-- What was written before, followed by what took the place of each piece. -/
def Rendered.join (out : Rendered) (places : List Rendered) : Rendered := places.foldl (· ++ ·) out

theorem Rendered.flatten_join (out : Rendered) (places : List Rendered) :
    (out.join places).flatten.toList =
      out.flatten.toList ++ places.flatMap (fun place => place.flatten.toList) := by
  induction places generalizing out with
  | nil => exact (List.append_nil _).symm
  | cons place places ih =>
    refine (ih (out ++ place)).trans ?_
    rw [Rendered.flatten_append, String.toList_append, List.append_assoc, List.flatMap_cons]

theorem pieces_transcribed (pieces : List Piece) (out : Rendered) (dirty : Bool)
    {result : Rendered} {dirty' : Bool}
    (ended : Piece.resolveAll dispatch pieces out dirty s = (.ok (result, dirty'), t)) :
    ∃ places, Transcribed dispatch s pieces places t ∧ result = out.join places := by
  induction pieces generalizing out dirty s with
  | nil =>
    rw [Piece.resolveAll] at ended
    cases ended
    exact ⟨[], .done, rfl⟩
  | cons piece rest ih =>
    cases piece with
    | text chars =>
      rw [Piece.resolveAll, ← Rendered.append_ofText] at ended
      obtain ⟨places, transcribed, same⟩ := ih _ _ ended
      exact ⟨_, .text transcribed, same⟩
    | span span =>
      rw [Piece.resolveAll] at ended
      obtain ⟨⟨place, d⟩, between, here, later⟩ := Work.ok_of_bind ended
      obtain ⟨places, transcribed, same⟩ := ih _ _ later
      refine ⟨place :: places, ?_, same⟩
      cases span with
      | literal source inner =>
        rw [Span.resolve] at here
        obtain ⟨_, _, visited, finished⟩ := Work.ok_of_bind here
        cases finished
        exact .literal visited transcribed
      | tag deferred kind name arguments source =>
        rw [Span.resolve] at here
        obtain ⟨⟨params, _⟩, named, given, finished⟩ := Work.ok_of_bind here
        cases deferred with
        | true =>
          cases finished
          exact .undeferred given transcribed
        | false =>
          obtain ⟨⟨_, _⟩, _, answered, finished⟩ := Work.ok_of_bind finished
          cases finished
          exact .resolved given answered transcribed

/-- The dispatcher leaves every tag as it is. -/
def Copies (dispatch : Dispatcher (Work ε σ)) : Prop :=
  ∀ tag source s answer t, dispatch tag source s = (.ok answer, t) →
    answer.1.flatten = String.ofList source

/-- A tag on the first level of a text that is put off to the next pass. -/
def Piece.isDeferred : Piece → Bool
  | .span (.tag deferred ..) => deferred
  | _ => false

/-- Of the tags on its first level the text puts none off. Those in values may be deferred. -/
def NoneDeferred (pieces : List Piece) : Prop := ∀ p ∈ pieces, p.isDeferred = false

instance (pieces : List Piece) : Decidable (NoneDeferred pieces) :=
  inferInstanceAs (Decidable (∀ p ∈ pieces, p.isDeferred = false))

theorem NoneDeferred.later {piece : Piece} {rest : List Piece} (now : NoneDeferred (piece :: rest)) :
    NoneDeferred rest :=
  fun p member => now p (List.mem_cons_of_mem _ member)

theorem copied_gist (copies : Copies dispatch) {pieces : List Piece} {places : List Rendered}
    (transcribed : Transcribed dispatch s pieces places t) (now : NoneDeferred pieces) :
    places.flatMap (fun place => place.flatten.toList) = gistOf pieces := by
  have kept : ∀ chars, (Rendered.ofText (String.ofList chars)).flatten.toList = chars := by
    intro chars
    rw [Rendered.flatten_ofText, String.toList_ofList]
  induction transcribed with
  | done => rfl
  | text _ ih =>
    rw [List.flatMap_cons, kept, ih now.later]
    rfl
  | literal _ _ ih =>
    rw [List.flatMap_cons, kept, ih now.later]
    rfl
  | resolved _ answered _ ih =>
    rw [List.flatMap_cons, copies _ _ _ _ _ answered, String.toList_ofList, ih now.later]
    rfl
  | undeferred => cases now _ (List.mem_cons_self ..)

/-- A pass that ends leaves each part of the source in its place: text stays, tags give way to
their resolution. So a dispatcher that copies tags gives back a source without deferred ones. -/
theorem scanPass_transcribes (dispatch : Dispatcher (Work ε σ)) (source : String)
    (out result : Rendered) (dirty : Bool) (s t : σ)
    (ended : scanPass dispatch source out s = (.ok (result, dirty), t)) :
    gistOf (Piece.readAll source.toList) = source.toList ∧
    (∀ piece ∈ Piece.readAll source.toList, piece.Formed) ∧
    (∃ places, Transcribed dispatch s (Piece.readAll source.toList) places t ∧
      result = out.join places) ∧
    (Copies dispatch → NoneDeferred (Piece.readAll source.toList) →
      result.flatten = out.flatten ++ source) := by
  obtain ⟨formed, gist⟩ := Piece.readAll_formed source.toList
  obtain ⟨places, transcribed, joined⟩ := pieces_transcribed _ _ _ ended
  refine ⟨gist, formed, ⟨places, transcribed, joined⟩, fun copies now => ?_⟩
  have copied := copied_gist copies transcribed now
  refine String.toList_inj.mp ?_
  rw [joined, Rendered.flatten_join, copied, gist, String.toList_append]

/-- Outcomes of a pass can be compared. -/
instance outcomeDecidableEq {α : Type} [DecidableEq ε] [DecidableEq α] : DecidableEq (Except ε α)
  | .ok a, .ok b => decidable_of_iff (a = b) ⟨congrArg _, Except.ok.inj⟩
  | .error a, .error b => decidable_of_iff (a = b) ⟨congrArg _, Except.error.inj⟩
  | .ok _, .error _ => isFalse nofun
  | .error _, .ok _ => isFalse nofun

/-- Leaves every tag as it is and counts them. -/
def counting : Dispatcher (Work Unit Nat) := fun _ source => do
  modify (· + 1)
  pure (Rendered.empty.pushVerbatim (String.ofList source), false)

theorem counting_copies : Copies counting := by
  intro tag source s answer t answered
  cases answered
  exact Rendered.flatten_pushVerbatim ..

/-- Two tags, the first with a deferred one in its value, and two that are broken off. -/
def broken : String := "é[[b &q=`[[!c]]ü[[+d`]][[+e &ß=`]] [[no-name [[f &x=`ö [[*g]]"

def copied : Rendered where
  newestFirst := [⟨.text, " [[no-name [[f &x=`ö [[*g]]"⟩,
    ⟨.verbatim, "[[b &q=`[[!c]]ü[[+d`]][[+e &ß=`]]"⟩, ⟨.text, "é"⟩]

theorem broken_copied : scanPass counting broken {} 0 = (.ok (copied, true), 3) ∧
    NoneDeferred (Piece.readAll broken.toList) ∧
    (∃ places, Transcribed counting 0 (Piece.readAll broken.toList) places 3 ∧
      copied = Rendered.join {} places) ∧
    copied.flatten = broken := by
  have ended : scanPass counting broken {} 0 = (.ok (copied, true), 3) := by
    change @Eq (Except Unit (Rendered × Bool) × Nat) _ _
    decide +kernel
  have now : NoneDeferred (Piece.readAll broken.toList) := by decide +kernel
  obtain ⟨-, -, transcribed, same⟩ := scanPass_transcribes counting broken {} copied true 0 3 ended
  refine ⟨ended, now, transcribed, ?_⟩
  rw [same counting_copies now, Rendered.flatten_empty, String.empty_append]

end DocSite.Template
