import Gridwalk.Log.Record

/-!
# Journals

A journal collects the records of a load or a run, oldest first. A record that its level does not
let through is never made.
-/

namespace Gridwalk.Log

structure Journal where
  level : Level
  records : Array Record
  deriving Repr

namespace Journal

def start (level : Level) : Journal := ⟨level, #[]⟩

def note (journal : Journal) (level : Level) (target : String) (text : Unit → String) : Journal :=
  if level ≤ journal.level then
    { journal with records := journal.records.push ⟨level, target, text ()⟩ }
  else journal

def render (journal : Journal) (colours : Bool) : String :=
  String.join (journal.records.toList.map fun record => record.render colours ++ "\n")

@[simp] theorem level_note (journal : Journal) (level : Level) (target : String)
    (text : Unit → String) : (journal.note level target text).level = journal.level := by
  unfold note
  split <;> rfl

end Journal

end Gridwalk.Log
