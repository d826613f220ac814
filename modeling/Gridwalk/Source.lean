import Gridwalk.Outline

/-!
# Sources

A source gives the text of a unit by its name. Any number of names may lead to a text, but the
texts are finitely many; so are the names that their import lines mention, which is why loading
ends.
-/

namespace Gridwalk

structure Source where
  /-- The file that a unit is looked up in. -/
  fileName : String → String
  /-- The text of a unit, or why there is none. -/
  read : String → Except String String
  texts : List String
  mem_texts : ∀ unit text, read unit = .ok text → text ∈ texts

namespace Source

def defaultExtension : String := "merry"

/-- The text that a list of named texts gives to a name: of several the last. -/
def lookup? (units : List (String × String)) (unit : String) : Option String :=
  units.reverse.lookup unit

theorem mem_of_lookup? {units : List (String × String)} {unit text : String}
    (h : lookup? units unit = some text) : text ∈ units.map (·.2) := by
  unfold lookup? at h
  obtain ⟨before, after, he, -⟩ := List.lookup_eq_some_iff.1 h
  have hm : (unit, text) ∈ units.reverse := by simp [he]
  exact List.mem_map.2 ⟨_, List.mem_reverse.1 hm, rfl⟩

def ofTexts (extension : String) (units : List (String × String)) : Source where
  fileName unit := unit ++ "." ++ extension
  read unit := (lookup? units unit).elim (.error "no such unit") .ok
  texts := units.map (·.2)
  mem_texts unit text h := by
    cases hl : lookup? units unit with
    | none => simp [hl] at h
    | some found =>
      obtain rfl : found = text := by simpa [hl] using h
      exact mem_of_lookup? hl

def ofUnits (units : List (String × String)) : Source := ofTexts defaultExtension units

/-- Every name on a line of any text that looks like an import. -/
def names (source : Source) : List String :=
  source.texts.flatMap fun text => (Text.lines text).filterMap Line.importTarget?

theorem mem_names {source : Source} {unit text target : String}
    (hread : source.read unit = .ok text) (h : target ∈ (Outline.ofText unit text).targets) :
    target ∈ source.names := by
  obtain ⟨line, hline, ht⟩ := Outline.exists_line_of_mem_targets_scan h
  exact List.mem_flatMap.2
    ⟨text, source.mem_texts unit text hread, List.mem_filterMap.2 ⟨line, hline, ht⟩⟩

end Source

end Gridwalk
