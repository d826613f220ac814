import Gridwalk.Log.Journal
import Gridwalk.Plan
import Gridwalk.Registry

/-!
# Loading

Loading a unit registers the codeboxes of its plan one after the other. An import first makes a
registry of its own; the codeboxes of that registry are then registered in the importing one, so
of two codeboxes with one key the later one stays.

Strict loading refuses text outside codeboxes that is not blank, and two codeboxes with one key
that come from different places. The same codebox arriving twice is no collision.
-/

namespace Gridwalk

open Log (Journal)

/-- The order in which the codeboxes of an imported registry are registered, for every chain of
lines that import it. -/
structure Enumeration where
  list : List Location → Registry → List Codebox
  perm : ∀ sites reg, (list sites reg).Perm reg.boxes

def Enumeration.byKey : Enumeration := ⟨fun _ reg => reg.boxes, fun _ _ => .refl _⟩

structure Loader where
  strict : Bool
  order : Enumeration

namespace Loader

def target : String := "merry_syntax::loader"

def lenient : Loader := ⟨false, .byKey⟩

def register (loader : Loader) (box : Codebox) (reg : Registry) (journal : Journal) :
    Except LoadError Registry × Journal :=
  let journal := journal.note .debug target fun _ =>
    s!"registering codebox '{box.name}' as {box.key.text} ({box.origin.describe})"
  match reg.get? box.key with
  | none => (.ok (reg.insert box), journal)
  | some old =>
    if old.origin = box.origin then (.ok (reg.insert box), journal)
    else if loader.strict then (.error (.duplicateCommand box.key box.origin), journal)
    else
      (.ok (reg.insert box), journal.note .warn target fun _ =>
        s!"command {box.key.text} redefined: {box.origin.describe} replaces " ++
          s!"'{old.name}' from {old.origin.describe}")

def registerAll (loader : Loader) : List Codebox → Registry → Journal →
    Except LoadError Registry × Journal
  | [], reg, journal => (.ok reg, journal)
  | box :: rest, reg, journal =>
    match loader.register box reg journal with
    | (.error error, journal) => (.error error, journal)
    | (.ok reg, journal) => loader.registerAll rest reg journal

/-- Carries out the rest of a plan, reached through the import lines `sites`, innermost first. -/
def follow (loader : Loader) (sites : List Location) : Plan → Registry → Journal →
    Except LoadError Registry × Journal
  | .done, reg, journal => (.ok reg, journal)
  | .fault error, _, journal => (.error error, journal)
  | .box box next, reg, journal =>
    match loader.register box reg journal with
    | (.error error, journal) => (.error error, journal)
    | (.ok reg, journal) => loader.follow sites (next ()) reg journal
  | .stray place blank next, reg, journal =>
    if loader.strict && !blank then (.error (.strayText place), journal)
    else
      loader.follow sites (next ()) reg <| journal.note .trace target fun _ =>
        s!"{place.unit}:{place.line}: ignoring text outside codebox"
  | .imports place unit body next, reg, journal =>
    let journal := journal.note .debug target fun _ =>
      s!"{place.unit}:{place.line}: importing '{unit}'"
    match loader.follow (place :: sites) (body ()) ∅ journal with
    | (.error error, journal) => (.error error, journal)
    | (.ok imported, journal) =>
      match loader.registerAll (loader.order.list (place :: sites) imported) reg journal with
      | (.error error, journal) => (.error error, journal)
      | (.ok reg, journal) => loader.follow sites (next ()) reg journal

def load (loader : Loader) (source : Source) (unit : String) (journal : Journal) :
    Except LoadError Registry × Journal :=
  let journal := journal.note .debug target fun _ => s!"loading unit '{unit}'"
  match loader.follow [] (source.plan unit) ∅ journal with
  | (.error error, journal) => (.error error, journal)
  | (.ok reg, journal) =>
    (.ok reg, journal.note .debug target fun _ => s!"unit '{unit}' loaded: {reg.size} codeboxes")

end Loader

end Gridwalk
