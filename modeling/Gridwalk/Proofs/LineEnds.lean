import Mathlib.Logic.Relation
import Gridwalk.Diagnostic
import Gridwalk.Load
import Gridwalk.Proofs.Inlining
import Gridwalk.Proofs.LineLaws

/-!
# Line ends

How the lines of a text are ended does not matter: carriage returns before a line feed or at the end
of the text, and a line feed at the end. `Respelt` says that texts differ in nothing else. They then
have the same lines (`Respelt.lines_eq`), so sources of such texts have the same plans
(`plan_congr`), loads of them give the same answer and excerpts show the same line
(`line_ends_do_not_matter`). Carriage returns inside a line are text like any other.
-/

namespace Gridwalk

-- ---------------------------------------------------------------------------
-- Texts
-- ---------------------------------------------------------------------------

namespace Text

inductive Respells : List Char → List Char → Prop
  /-- Some number of carriage returns before a line feed becomes another. -/
  | returns (front back : List Char) (n m : Nat) :
    Respells (front ++ List.replicate n '\r' ++ '\n' :: back)
      (front ++ List.replicate m '\r' ++ '\n' :: back)
  /-- Some number of carriage returns at the end of a text, behind a character that is no line feed,
  becomes another. -/
  | ending (front : List Char) (c : Char) (n m : Nat) (hfeed : c ≠ '\n') :
    Respells (front ++ c :: List.replicate n '\r') (front ++ c :: List.replicate m '\r')
  /-- A text that is not empty and ends without a line feed gets one. -/
  | feed (text : List Char) (hne : text ≠ []) (hlast : text.getLast? ≠ some '\n') :
    Respells text (text ++ ['\n'])

def Respelt (text other : String) : Prop :=
  Relation.ReflTransGen Respells text.toList other.toList

def SameLines (cs ds : List Char) : Prop :=
  (pieces cs).map dropReturns = (pieces ds).map dropReturns

section
variable {cs ds : List Char} {c : Char}

theorem dropReturns_replicate (n : Nat) : dropReturns (List.replicate n '\r') = [] := by
  simp [dropReturns, dropEndWhile]

theorem dropReturns_cons_dropReturns (c : Char) (cs : List Char) :
    dropReturns (c :: dropReturns cs) = dropReturns (c :: cs) := by
  obtain ⟨n, hreturns⟩ := exists_eq_dropReturns cs
  have hdropped : ∀ d ∈ List.replicate n '\r', decide (d = '\r') = true := by
    simp [List.mem_replicate]
  have hcons : dropReturns (c :: dropReturns cs ++ List.replicate n '\r') =
      dropReturns (c :: dropReturns cs) := dropEndWhile_append_of_all hdropped
  rw [List.cons_append, ← hreturns] at hcons
  exact hcons.symm

theorem SameLines.cons (c : Char) (h : SameLines cs ds) : SameLines (c :: cs) (c :: ds) := by
  unfold SameLines at h ⊢
  by_cases hc : c = '\n'
  · simp [pieces, hc, h]
  · cases hp : pieces cs with
    | nil =>
      have hq : pieces ds = [] := by simpa [hp] using h.symm
      simp [pieces, hc, hp, hq]
    | cons piece rest =>
      obtain ⟨other, rest', hq⟩ := List.exists_cons_of_ne_nil
        (show pieces ds ≠ [] from fun hq => by simp [hp, hq] at h)
      simp only [hp, hq, List.map_cons, List.cons.injEq] at h
      have hline : dropReturns (c :: piece) = dropReturns (c :: other) := by
        rw [← dropReturns_cons_dropReturns, h.1, dropReturns_cons_dropReturns]
      simp [pieces, hc, hp, hq, hline, h.2]

theorem SameLines.append (front : List Char) (h : SameLines cs ds) :
    SameLines (front ++ cs) (front ++ ds) := by
  induction front with
  | nil => exact h
  | cons c front ih => exact ih.cons c

theorem pieces_of_newline_not_mem (hne : cs ≠ []) (h : '\n' ∉ cs) : pieces cs = [cs] := by
  induction cs with
  | nil => exact absurd rfl hne
  | cons c cs ih =>
    obtain ⟨hc, hcs⟩ := not_or.1 (mt List.mem_cons.2 h)
    cases cs with
    | nil => simp [pieces, Ne.symm hc]
    | cons d cs => rw [pieces, if_neg (Ne.symm hc), ih (List.cons_ne_nil d cs) hcs]

theorem lines_returns (n : Nat) (back : List Char) :
    (pieces (List.replicate n '\r' ++ '\n' :: back)).map dropReturns =
      [] :: (pieces back).map dropReturns := by
  have hnone : '\n' ∉ List.replicate n '\r' := by simp [List.mem_replicate]
  rw [pieces_append_newline hnone, List.map_cons, dropReturns_replicate]

theorem lines_ending (n : Nat) (hfeed : c ≠ '\n') :
    (pieces (c :: List.replicate n '\r')).map dropReturns = [dropReturns [c]] := by
  have hnone : '\n' ∉ c :: List.replicate n '\r' := by simp [Ne.symm hfeed, List.mem_replicate]
  rw [pieces_of_newline_not_mem (List.cons_ne_nil _ _) hnone, List.map_singleton,
    ← dropReturns_cons_dropReturns, dropReturns_replicate]

theorem lines_feed (hfeed : c ≠ '\n') :
    (pieces [c, '\n']).map dropReturns = [dropReturns [c]] := by
  have hline : pieces ([c] ++ ['\n']) = [[c]] :=
    pieces_append_newline (by simpa using Ne.symm hfeed)
  rw [← List.singleton_append, hline, List.map_singleton]

theorem Respells.sameLines (h : Respells cs ds) : SameLines cs ds := by
  cases h with
  | returns front back n m =>
    rw [List.append_assoc, List.append_assoc]
    exact .append front ((lines_returns n back).trans (lines_returns m back).symm)
  | ending front c n m hfeed =>
    exact .append front ((lines_ending n hfeed).trans (lines_ending m hfeed).symm)
  | feed text hne hlast =>
    have hfeed : cs.getLast hne ≠ '\n' := by
      rwa [List.getLast?_eq_some_getLast hne, Ne, Option.some.injEq] at hlast
    rw [← List.dropLast_append_getLast hne, List.append_assoc]
    exact .append _ ((lines_ending 0 hfeed).trans (lines_feed hfeed).symm)

theorem sameLines_of_respells (h : Relation.ReflTransGen Respells cs ds) : SameLines cs ds := by
  induction h with
  | refl => rfl
  | tail _ hlast ih => exact ih.trans hlast.sameLines

theorem Respelt.lines_eq {text other : String} (h : Respelt text other) :
    lines text = lines other :=
  sameLines_of_respells h

end

end Text

-- ---------------------------------------------------------------------------
-- Sources
-- ---------------------------------------------------------------------------

namespace Source

section
variable {source other : Source} {reading : List String}

theorem planWithin_congr_of_expand {unit : String}
    (henter : source.enter reading unit = other.enter reading unit)
    (hexpand : ∀ outline, source.enter reading unit = .ok outline → ∀ h h',
      source.expand (reading ++ [unit]) outline.items outline.fault h =
        other.expand (reading ++ [unit]) outline.items outline.fault h') :
    source.planWithin reading unit = other.planWithin reading unit := by
  cases he : source.enter reading unit with
  | error error => rw [planWithin_of_error he, planWithin_of_error (henter.symm.trans he)]
  | ok outline =>
    rw [planWithin_of_ok he, planWithin_of_ok (henter.symm.trans he)]
    exact hexpand outline he _ _

/-- A plan depends on what opening units gives and on nothing else of a source. -/
theorem expand_congr (henter : ∀ reading unit, source.enter reading unit = other.enter reading unit)
    {items : List Item} {fault : Option LoadError} {h h'} :
    source.expand reading items fault h = other.expand reading items fault h' := by
  induction reading, items, fault, h using expand.induct source with
  | case1 reading fault h => rw [expand_nil, expand_nil]
  | case2 reading fault codebox rest h _ ih =>
    rw [expand_box, expand_box, Plan.box.injEq]
    exact ⟨rfl, funext fun _ => ih⟩
  | case3 reading fault place blank rest h _ ih =>
    rw [expand_stray, expand_stray, Plan.stray.injEq]
    exact ⟨rfl, rfl, funext fun _ => ih⟩
  | case4 reading fault place target rest h _ ihb ihr =>
    have hbody : source.planWithin reading target = other.planWithin reading target :=
      planWithin_congr_of_expand (henter reading target) fun outline he _ _ => ihb outline he
    rw [expand_imports, expand_imports, Plan.imports.injEq]
    exact ⟨rfl, rfl, funext fun _ => hbody, funext fun _ => ihr⟩

theorem plan_congr (henter : ∀ reading unit, source.enter reading unit = other.enter reading unit)
    (unit : String) : source.plan unit = other.plan unit :=
  planWithin_congr_of_expand (henter [] unit) fun _ _ _ _ => expand_congr henter

end

theorem enter_respelt {units others : List (String × String)}
    (h : ∀ unit, Option.Rel Text.Respelt (lookup? units unit) (lookup? others unit))
    (reading : List String) (unit : String) :
    (Source.ofUnits units).enter reading unit = (Source.ofUnits others).enter reading unit := by
  have hread := h unit
  unfold enter ofUnits ofTexts
  dsimp only
  generalize lookup? units unit = text, lookup? others unit = other at hread
  cases hread with
  | none => rfl
  | some hrespelt =>
    simp only [Option.elim, Outline.ofText, hrespelt.lines_eq]

end Source

theorem Diagnostic.render_congr {text other : String} (h : Text.lines text = Text.lines other)
    (colours : Bool) (error : LoadError) :
    render colours error text = render colours error other := by
  simp only [render, spans, lineAt?, h]

/-- Let two sources of named texts differ in how the lines of their texts are ended and in nothing
else. Every load, in either mode, gives the same registry or the same error with both, in the same
order of imported codeboxes and with the same records, and the excerpt for an error is the same
against either version of a text. -/
theorem Loader.line_ends_do_not_matter (loader : Loader) (units others : List (String × String))
    (h : ∀ unit, Option.Rel Text.Respelt (Source.lookup? units unit) (Source.lookup? others unit))
    (unit : String) (journal : Log.Journal) :
    loader.load (.ofUnits units) unit journal = loader.load (.ofUnits others) unit journal ∧
    ∀ (colours : Bool) (error : LoadError) (place : String) (text other : String),
      Source.lookup? units place = some text → Source.lookup? others place = some other →
      Diagnostic.render colours error text = Diagnostic.render colours error other := by
  constructor
  · have hplan := Source.plan_congr (Source.enter_respelt h) unit
    simp only [load, hplan]
  · intro colours error place text other htext hother
    have hrespelt := h place
    rw [htext, hother] at hrespelt
    cases hrespelt with
    | some hrespelt => exact Diagnostic.render_congr hrespelt.lines_eq colours error

def Source.bare : List (String × String) := [("m", "###\n# #\n#v#\n#\r#\n##")]

def Source.mixed : List (String × String) := [("m", "###\r\r\n# #\n#v#\n#\r#\n##\r\n")]

theorem Source.respelt_mixed (unit : String) :
    Option.Rel Text.Respelt (lookup? bare unit) (lookup? mixed unit) := by
  by_cases hunit : unit = "m"
  · subst hunit
    refine .some (.head (.returns "###".toList "# #\n#v#\n#\r#\n##".toList 0 2) ?_)
    refine .head (.ending "###\r\r\n# #\n#v#\n#\r#\n#".toList '#' 0 1 (by decide)) (.single ?_)
    exact .feed "###\r\r\n# #\n#v#\n#\r#\n##\r".toList (by decide) (by decide)
  · have hnone : ∀ text : String, lookup? [("m", text)] unit = none := by
      intro text
      simp [lookup?, hunit]
    rw [bare, mixed, hnone, hnone]
    exact .none

theorem Loader.line_ends_do_not_matter_mixed :
    (Loader.lenient.load (.ofUnits Source.mixed) "m" (.start .warn)).1 =
      .error (.widthMismatch ⟨"m", 5⟩ 3 2) ∧
    Diagnostic.render false (.widthMismatch ⟨"m", 5⟩ 3 2) "###\r\r\n# #\n#v#\n#\r#\n##\r\n" =
      Diagnostic.render false (.widthMismatch ⟨"m", 5⟩ 3 2) "###\n# #\n#v#\n#\r#\n##" := by
  obtain ⟨hload, hrender⟩ := line_ends_do_not_matter .lenient Source.bare Source.mixed
    Source.respelt_mixed "m" (.start .warn)
  obtain ⟨_, hplan⟩ := Source.exists_planWithin_eq (show (Source.ofUnits Source.bare).enter [] "m" =
    .ok ⟨[], some (.widthMismatch ⟨"m", 5⟩ 3 2)⟩ by rfl)
  refine ⟨?_, (hrender false _ "m" _ _ rfl rfl).symm⟩
  rw [← hload, load_lenient rfl, Source.plan, hplan, Source.expand_nil]
  rfl

end Gridwalk
