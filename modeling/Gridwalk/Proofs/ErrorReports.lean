import Gridwalk.Proofs.Excerpts
import Gridwalk.Proofs.Provenance

/-!
# Error reports

A load error that has a place names a line, and that line is to blame. `Broken` says how for each
kind of error, in terms of the lines above and below it; `reports_are_truthful` says that the line
is one of a unit in reach, that it is broken in the way that is reported and what the long form of
the error is: it shows the line with its number and says what to do.

What stops a strict load (`Stops`) need not be a fault of a text. Of two codeboxes with one key from
different places the second is reported: everything before it has been passed, and the first among
it. With imports this takes an argument, since the codeboxes of an import are compared with one
another first and with those of the importing unit later, in any order (`stops_of_follow`).
-/

namespace Gridwalk

open Line (border)

-- ---------------------------------------------------------------------------
-- What stops a strict load
-- ---------------------------------------------------------------------------

/-- Nothing in the trace stops a strict load by itself. -/
structure Passable (trace : List (Except LoadError Item)) : Prop where
  faultless : ∀ error, .error error ∉ trace
  blank : ∀ place, .ok (.stray place false) ∉ trace

/-- Why a strict load that has the codeboxes `known` registered does not come past `trace`. -/
inductive Stops (known : List Codebox) (trace : List (Except LoadError Item)) : LoadError → Prop
  | fault {error} (met : .error error ∈ trace) : Stops known trace error
  | stray {place} (met : .ok (.stray place false) ∈ trace) : Stops known trace (.strayText place)
  | duplicate {earlier box later other} (split : trace = earlier ++ .ok (.box box) :: later)
    (passed : Passable earlier) (before : other ∈ known ∨ .ok (.box other) ∈ earlier)
    (key : other.key = box.key) (origin : other.origin ≠ box.origin) :
    Stops known trace (.duplicateCommand box.key box.origin)

section
variable {known others : List Codebox} {trace first : List (Except LoadError Item)}
  {error : LoadError}

theorem Passable.nil : Passable [] := ⟨fun _ => List.not_mem_nil, fun _ => List.not_mem_nil⟩

theorem Passable.singleton {item : Item} (h : ∀ place, item ≠ .stray place false) :
    Passable [.ok item] where
  faultless _ hm := nomatch List.mem_singleton.1 hm
  blank place hm := h place (Except.ok.inj (List.mem_singleton.1 hm)).symm

theorem Passable.of_subset (h : Passable trace) (hs : first ⊆ trace) : Passable first where
  faultless error hm := h.faultless error (hs hm)
  blank place hm := h.blank place (hs hm)

theorem Passable.append (h : Passable first) (h' : Passable trace) : Passable (first ++ trace) where
  faultless error hm := (List.mem_append.1 hm).elim (h.faultless error) (h'.faultless error)
  blank place hm := (List.mem_append.1 hm).elim (h.blank place) (h'.blank place)

theorem Stops.append_right (h : Stops known trace error) (rest : List (Except LoadError Item)) :
    Stops known (trace ++ rest) error := by
  cases h with
  | fault met => exact .fault (List.mem_append_left _ met)
  | stray met => exact .stray (List.mem_append_left _ met)
  | @duplicate earlier box later _ split passed before key origin =>
    have hsplit : trace ++ rest = earlier ++ .ok (.box box) :: (later ++ rest) := by
      rw [split, List.append_assoc, List.cons_append]
    exact .duplicate hsplit passed before key origin

theorem Stops.after (h : Stops known trace error) (hp : Passable first)
    (hk : ∀ box ∈ known, box ∈ others ∨ .ok (.box box) ∈ first) :
    Stops others (first ++ trace) error := by
  cases h with
  | fault met => exact .fault (List.mem_append_right _ met)
  | stray met => exact .stray (List.mem_append_right _ met)
  | duplicate split passed before key origin =>
    refine .duplicate (by rw [split, List.append_assoc]) (hp.append passed) ?_ key origin
    rcases before with before | before
    · exact (hk _ before).imp_right (List.mem_append_left _)
    · exact .inr (List.mem_append_right _ before)

end

namespace Loader

section
variable {loader : Loader} {box : Codebox} {boxes : List Codebox} {reg reg' : Registry}
  {journal : Log.Journal} {error : LoadError} {sites : List Location} {plan : Plan}

theorem register_strict_error (h : loader.strict = true)
    (hr : (loader.register box reg journal).1 = .error error) :
    ∃ old ∈ reg.boxes, old.key = box.key ∧ old.origin ≠ box.origin ∧
      error = .duplicateCommand box.key box.origin := by
  unfold register at hr
  split at hr
  next => cases hr
  next old hg =>
    have hk := Registry.key_of_get? hg
    split at hr
    next => cases hr
    next ho =>
      exact ⟨old, Registry.mem_boxes_iff.2 (hk ▸ hg), hk, ho, (Except.error.inj hr).symm⟩

/-- Codeboxes that do not collide among themselves collide with one that was there before. -/
theorem registerAll_strict_error (h : loader.strict = true) (hc : Consistent boxes)
    (hr : (loader.registerAll boxes reg journal).1 = .error error) :
    ∃ box ∈ boxes, ∃ old ∈ reg.boxes, old.key = box.key ∧ old.origin ≠ box.origin ∧
      error = .duplicateCommand box.key box.origin := by
  induction boxes generalizing reg journal with
  | nil => cases hr
  | cons first rest ih =>
    rw [registerAll] at hr
    split at hr
    next hone =>
      obtain ⟨old, hold⟩ := register_strict_error h ((congrArg Prod.fst hone).trans hr)
      exact ⟨first, List.mem_cons_self, old, hold⟩
    next hone =>
      obtain ⟨-, rfl⟩ := (register_strict_ok_iff h).1 (congrArg Prod.fst hone)
      have hrest : Consistent rest := hc.of_subset (List.subset_cons_self _ _)
      obtain ⟨box, hbox, old, hold, hkey, horigin, rfl⟩ := ih hrest hr
      refine ⟨box, List.mem_cons_of_mem _ hbox, old, ?_, hkey, horigin, rfl⟩
      rcases Registry.mem_of_mem_place hold with rfl | hold
      · exact absurd (hc _ List.mem_cons_self box (List.mem_cons_of_mem _ hbox) hkey) horigin
      · exact hold

theorem passable_of_follow (h : loader.strict = true)
    (hf : (loader.follow sites plan reg journal).1 = .ok reg') : Passable plan.trace := by
  obtain ⟨boxes, hflat, hblank, -, -⟩ := flat_of_follow_strict h hf
  exact ⟨Plan.not_mem_trace_of_flat hflat, hblank⟩

theorem mem_trace_of_follow (h : loader.strict = true)
    (hf : (loader.follow sites plan ∅ journal).1 = .ok reg') (hb : box ∈ reg'.boxes) :
    .ok (.box box) ∈ plan.trace := by
  obtain ⟨boxes, hflat, -, -, rfl⟩ := flat_of_follow_strict h hf
  exact Plan.mem_trace_of_mem_flat hflat (Registry.foldl_insert_subset boxes ∅ hb)

theorem stops_of_follow (h : loader.strict = true)
    (hf : (loader.follow sites plan reg journal).1 = .error error) :
    Stops reg.boxes plan.trace error := by
  induction plan generalizing sites reg journal with
  | done => cases hf
  | fault other =>
    obtain rfl := Except.error.inj hf
    exact .fault (List.mem_singleton.2 rfl)
  | box codebox next ih =>
    simp only [follow] at hf
    split at hf
    next hr =>
      obtain ⟨old, hold, hkey, horigin, rfl⟩ :=
        register_strict_error h ((congrArg Prod.fst hr).trans hf)
      exact .duplicate rfl .nil (.inl hold) hkey horigin
    next hr =>
      obtain ⟨-, rfl⟩ := (register_strict_ok_iff h).1 (congrArg Prod.fst hr)
      have hpast : Passable [.ok (.box codebox)] := .singleton (by simp)
      refine (ih () hf).after hpast ?_
      intro box hbox
      rcases Registry.mem_of_mem_place hbox with rfl | hbox
      · exact .inr (List.mem_singleton.2 rfl)
      · exact .inl hbox
  | stray place blank next ih =>
    simp only [follow, h, Bool.true_and] at hf
    cases blank with
    | false =>
      obtain rfl := Except.error.inj hf
      exact .stray List.mem_cons_self
    | true =>
      have hpast : Passable [.ok (.stray place true)] := .singleton (by simp)
      exact (ih () hf).after hpast fun _ => .inl
  | imports place target body next ihb ihn =>
    have hline : Passable [.ok (.imports place target)] := .singleton (by simp)
    simp only [follow] at hf
    split at hf
    next hb =>
      have hstops := (ihb () ((congrArg Prod.fst hb).trans hf)).append_right (next ()).trace
      refine hstops.after hline ?_
      intro box hbox
      cases hbox
    next imported _ hb =>
      have hbody : Passable (body ()).trace := passable_of_follow h (congrArg Prod.fst hb)
      have hperm := loader.order.perm (place :: sites) imported
      split at hf
      next hr =>
        -- what an import brings does not collide in itself, so the other codebox was there before
        have hown : Consistent (loader.order.list (place :: sites) imported) :=
          (consistent_boxes imported).of_subset hperm.subset
        obtain ⟨box, hbox, old, hold, hkey, horigin, rfl⟩ :=
          registerAll_strict_error h hown ((congrArg Prod.fst hr).trans hf)
        obtain ⟨earlier, later, hsplit⟩ := List.append_of_mem
          (mem_trace_of_follow h (congrArg Prod.fst hb) (hperm.subset hbox))
        have hearlier : Passable earlier :=
          hbody.of_subset (hsplit ▸ List.subset_append_left earlier _)
        have hstops : Stops reg.boxes (body ()).trace (.duplicateCommand box.key box.origin) :=
          .duplicate hsplit hearlier (.inl hold) hkey horigin
        exact (hstops.append_right (next ()).trace).after hline fun _ => .inl
      next hr =>
        obtain ⟨-, rfl⟩ := (registerAll_strict_ok_iff h).1 (congrArg Prod.fst hr)
        refine (ihn () hf).after (hline.append hbody) ?_
        intro box hbox
        rcases List.mem_append.1 (Registry.foldl_insert_subset _ _ hbox) with hbox | hbox
        · exact .inl hbox
        · have hm := mem_trace_of_follow h (congrArg Prod.fst hb) (hperm.subset hbox)
          exact .inr (List.mem_cons_of_mem _ hm)

end

end Loader

-- ---------------------------------------------------------------------------
-- Broken lines
-- ---------------------------------------------------------------------------

/-- The plan comes to `other` and later to `box`, and up to there nothing stops a strict load by
itself. -/
def Plan.ComesTo (plan : Plan) (other box : Codebox) : Prop :=
  ∃ earlier later, plan.trace = earlier ++ .ok (.box box) :: later ∧ Passable earlier ∧
    .ok (.box other) ∈ earlier

/-- What is wrong with `line`, which is the line `place` of a unit, when loading according to `plan`
ends with an error. Above it are the lines `before` of the unit, and below it are `rest`. -/
inductive Broken (strict : Bool) (plan : Plan) (before : List (List Char)) (place : Location)
    (line : List Char) (rest : List (List Char)) : LoadError → Prop
  | misfit {parts opened width stage error} (above : before = Part.allLines parts ++ opened)
    (opening : Opening width stage opened) (breaks : Misfit width opened place line error) :
    Broken strict plan before place line rest error
  | unterminated {parts width stage} (above : before = Part.allLines parts)
    (opens : line = border width) (unclosed : Opening width stage (line :: rest)) :
    Broken strict plan before place line rest (.unterminated place)
  | stray {parts} (only : strict = true) (above : before = Part.allLines parts)
    (plain : Line.IsFiller line) (text : line.all Text.isBlank = false) :
    Broken strict plan before place line rest (.strayText place)
  | duplicate {parts drawing below other} (only : strict = true)
    (above : before = Part.allLines parts) (drawn : line :: rest = Drawing.lines drawing ++ below)
    (second : plan.ComesTo other (drawing.codebox place))
    (key : other.key = (drawing.codebox place).key) (origin : other.origin ≠ place) :
    Broken strict plan before place line rest
      (.duplicateCommand (drawing.codebox place).key place)

def Blames (strict : Bool) (plan : Plan) (unit : String) (lines : List (List Char))
    (place : Location) (error : LoadError) : Prop :=
  ∃ before line rest, lines = before ++ line :: rest ∧ place = ⟨unit, before.length + 1⟩ ∧
    Broken strict plan before place line rest error

theorem Opening.exists_cons {width : Nat} {stage : Draft.Stage} {opened : List (List Char)}
    (h : Opening width stage opened) : ∃ inside, opened = border width :: inside := by
  cases h <;> exact ⟨_, rfl⟩

section
variable {strict : Bool} {plan : Plan} {unit text : String} {error : LoadError} {place : Location}

theorem Outline.blames_of_fault (h : (ofText unit text).fault = some error)
    (hp : error.location? = some place) :
    Blames strict plan unit (Text.lines text) place error := by
  obtain ⟨above, draft, hreads, hends⟩ := exists_reads_of_fault .top h
  obtain ⟨parts, opened, rfl, horigin, hopening⟩ := hreads.standing
  rcases hends with ⟨hlines, rfl⟩ | ⟨line, rest, hlines, hfeed⟩
  · obtain rfl : draft.origin = place := Option.some.inj hp
    obtain ⟨inside, rfl⟩ := hopening.exists_cons
    exact ⟨_, _, _, hlines, horigin, .unterminated rfl rfl hopening⟩
  · obtain rfl : _ = place := Option.some.inj ((Draft.location?_of_feed hfeed).symm.trans hp)
    exact ⟨_, _, _, hlines, rfl, .misfit rfl hopening (hopening.misfit hfeed)⟩

theorem Outline.blames_of_stray (h : .stray place false ∈ (ofText unit text).items) :
    Blames true plan unit (Text.lines text) place (.strayText place) := by
  obtain ⟨parts, part, rest, hlines, hitem⟩ := mem_items_scan_iff.1 h
  cases part with
  | imports target => nomatch hitem
  | drawn segment =>
    cases segment with
    | box drawing => nomatch hitem
    | filler line plain =>
      obtain ⟨hplace, hblank⟩ := Item.stray.inj hitem
      rw [Nat.add_comm] at hplace
      refine ⟨_, line, rest, ?_, hplace, .stray rfl rfl plain hblank.symm⟩
      simpa [Part.lines, Segment.lines] using hlines

theorem Outline.Closes.blames {draft : Draft} {box other : Codebox} {lines : List (List Char)}
    (h : Closes unit lines draft box) (hsecond : plan.ComesTo other box)
    (hkey : other.key = box.key) (horigin : other.origin ≠ box.origin) :
    Blames true plan unit lines box.origin (.duplicateCommand box.key box.origin) := by
  obtain ⟨parts, drawing, below, hlines, -, rfl⟩ := h.drawn
  rw [List.append_assoc] at hlines
  exact ⟨_, _, _, hlines, rfl, .duplicate rfl rfl rfl hsecond hkey horigin⟩

end

-- ---------------------------------------------------------------------------
-- Reports
-- ---------------------------------------------------------------------------

theorem Diagnostic.lineAt?_of_lines {text : String} {before rest : List (List Char)}
    {line : List Char} (h : Text.lines text = before ++ line :: rest) :
    lineAt? text (before.length + 1) = some (String.ofList line) := by
  simp [lineAt?, h]

namespace Loader

section
variable {loader : Loader} {source : Source} {unit : String} {journal : Log.Journal}
  {error : LoadError} {place : Location}

theorem stops_of_load (hs : loader.strict = true)
    (h : (loader.load source unit journal).1 = .error error) :
    Stops [] (source.plan unit).trace error := by
  obtain ⟨journal', hl⟩ := load_fst loader source unit journal
  exact stops_of_follow hs (hl.symm.trans h)

theorem fault_of_load (hs : loader.strict = false)
    (h : (loader.load source unit journal).1 = .error error) :
    .error error ∈ (source.plan unit).trace := by
  rw [load_lenient hs] at h
  cases hf : (source.plan unit).flat with
  | ok boxes => simp [hf, Except.map] at h
  | error other =>
    obtain rfl : other = error := by simpa [hf, Except.map] using h
    exact Plan.mem_trace_of_flat hf

theorem blames_of_load (h : (loader.load source unit journal).1 = .error error)
    (hp : error.location? = some place) :
    ∃ other text, source.Reaches unit other ∧ source.read other = .ok text ∧
      Blames loader.strict (source.plan unit) other (Text.lines text) place error := by
  have hfault : .error error ∈ (source.plan unit).trace →
      ∃ other text, source.Reaches unit other ∧ source.read other = .ok text ∧
        Blames loader.strict (source.plan unit) other (Text.lines text) place error := by
    intro hm
    rcases Source.exists_text_of_fault hm with hnone | ⟨other, text, hreach, htext, hfault⟩
    · cases hnone.symm.trans hp
    · exact ⟨other, text, hreach, htext, Outline.blames_of_fault hfault hp⟩
  cases hs : loader.strict with
  | false => exact hs ▸ hfault (fault_of_load hs h)
  | true =>
    cases stops_of_load hs h with
    | fault met => exact hs ▸ hfault met
    | stray met =>
      obtain rfl := Option.some.inj hp
      obtain ⟨other, text, hreach, htext, hitem⟩ := Source.exists_text_of_mem_trace met
      exact ⟨other, text, hreach, htext, Outline.blames_of_stray hitem⟩
    | duplicate split passed before key origin =>
      obtain rfl := Option.some.inj hp
      have hfirst := before.resolve_left List.not_mem_nil
      obtain ⟨other, text, draft, hreach, htext, hcloses⟩ :=
        Source.closes_of_mem_trace (split ▸ List.mem_append_right _ List.mem_cons_self)
      exact ⟨other, text, hreach, htext, hcloses.blames ⟨_, _, split, passed, hfirst⟩ key origin⟩

/-- A load error that has a place is about that line of a unit in reach. The line breaks the rule
that the error names, in strict loading the rules of strict loading among them. The long form of the
error, in colours or plain, shows this line behind its number, with carets below it, and says what
to do. -/
theorem reports_are_truthful (h : (loader.load source unit journal).1 = .error error)
    (hp : error.location? = some place) :
    ∃ text before line rest, source.Reaches unit place.unit ∧
      source.read place.unit = .ok text ∧ Text.lines text = before ++ line :: rest ∧
      place.line = before.length + 1 ∧
      Broken loader.strict (source.plan unit) before place line rest error ∧
      ∃ help, error.help? = some help ∧ ∀ colours, Diagnostic.render colours error text =
        String.join ((Diagnostic.explainedRows colours error.message place (String.ofList line)
          help).map (· ++ "\n")) := by
  obtain ⟨other, text, hreach, htext, before, line, rest, hlines, rfl, hbroken⟩ :=
    blames_of_load h hp
  obtain ⟨help, hhelp⟩ := LoadError.exists_help hp
  exact ⟨text, before, line, rest, hreach, htext, hlines, rfl, hbroken, help, hhelp,
    Diagnostic.render_of_line hp (Diagnostic.lineAt?_of_lines hlines) hhelp⟩

end

def namesakes : Source := .ofUnits
  [("a", "###\n#f#\n#v#\n###\n"), ("m", "\x7ba\x7d\n\n####\n#f #\n#v=#\n####\n")]

theorem reports_are_truthful_namesakes :
    (load ⟨true, .byKey⟩ namesakes "m" (.start .warn)).1 =
      .error (.duplicateCommand (.command 'f') ⟨"m", 3⟩) ∧
    ∃ text, namesakes.read "m" = .ok text ∧
      Diagnostic.render false (.duplicateCommand (.command 'f') ⟨"m", 3⟩) text =
        "error: Duplicate command 'f': file m, line 3\n --> m:3\n  |\n3 | ####\n  | ^^^^\n" ++
          "  = help: codeboxes are invoked by the first character of their name\n" := by
  obtain ⟨_, hm⟩ := Source.exists_planWithin_eq (show namesakes.enter [] "m" = .ok
    ⟨[.imports ⟨"m", 1⟩ "a", .stray ⟨"m", 2⟩ true, .box ⟨"f", 2, 0, [], ⟨"m", 3⟩⟩], none⟩ by rfl)
  obtain ⟨_, ha⟩ := Source.exists_planWithin_eq (show namesakes.enter ["m"] "a" = .ok
    ⟨[.box ⟨"f", 1, 0, [], ⟨"a", 1⟩⟩], none⟩ by rfl)
  have hload : (load ⟨true, .byKey⟩ namesakes "m" (.start .warn)).1 =
      .error (.duplicateCommand (.command 'f') ⟨"m", 3⟩) := by
    obtain ⟨journal, hl⟩ := load_fst ⟨true, .byKey⟩ namesakes "m" (.start .warn)
    rw [hl]
    simp only [Source.plan, hm, ha, Source.expand_imports, Source.expand_stray, Source.expand_box,
      Source.expand_nil, List.nil_append]
    rfl
  refine ⟨hload, ?_⟩
  obtain ⟨text, before, line, rest, -, htext, hlines, hplace, -, help, hhelp, hshown⟩ :=
    reports_are_truthful hload rfl
  have hread : namesakes.read "m" = .ok "\x7ba\x7d\n\n####\n#f #\n#v=#\n####\n" := rfl
  obtain rfl := Except.ok.inj (hread.symm.trans htext)
  have hline := Diagnostic.lineAt?_of_lines hlines
  rw [← hplace] at hline
  have hborder : "####" = String.ofList line := Option.some.inj hline
  obtain rfl := Option.some.inj hhelp
  refine ⟨_, htext, ?_⟩
  rw [hshown, ← hborder]
  decide +kernel

end Loader

end Gridwalk
