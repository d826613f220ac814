import Gridwalk.Proofs.StepLaws

/-!
# The stack of frames

Whatever a machine has been through, its frames are a chain of calls: every frame but the innermost
stands outside strings on the character that called the next one, and every frame runs the codebox
that is registered under its key. Failed steps and failed calls keep this, since they take the
failing frame off and leave its callers where they were.

`Reachable` is every machine that some history of calls and steps leads to. `Stacked` is the
invariant in the form in which steps keep it; `WellStacked` says what it means for a whole stack.
-/

namespace Gridwalk

-- ---------------------------------------------------------------------------
-- Stacks
-- ---------------------------------------------------------------------------

/-- The frame `caller` stands on the character that called `callee`. -/
structure Frame.Waits (caller callee : Frame) : Prop where
  outside : caller.inString = false
  calls : ∃ c, caller.current? = some c ∧ Command.isReserved c = false ∧ callee.key = .command c

/-- Frames, innermost first, of which the bottom one was called under the key `latest`. -/
inductive Stacked (reg : Registry) : Option Key → List Frame → Prop
  | empty {latest} : Stacked reg latest []
  | bottom {frame} (registered : reg.get? frame.key = some frame.codebox) :
    Stacked reg (some frame.key) [frame]
  | above {latest callee caller callers} (registered : reg.get? callee.key = some callee.codebox)
    (waits : caller.Waits callee) (below : Stacked reg latest (caller :: callers)) :
    Stacked reg latest (callee :: caller :: callers)

section
variable {reg : Registry} {latest : Option Key} {frame : Frame} {frames : List Frame}

theorem Frame.site_eq_main_iff (h : frame.codebox.key = frame.key) :
    frame.site = .main ↔ frame.codebox.name = "" := by
  rw [← Key.isMain_ofName, ← Codebox.key, h]
  simp [Frame.site]

theorem Frame.describe_site_iff (h : frame.codebox.key = frame.key) :
    frame.site.describe = "main codebox" ↔ frame.codebox.name = "" := by
  rw [← Frame.site_eq_main_iff h]
  cases frame.site with
  | main => simp [Site.describe]
  | codebox name =>
    have hne : "codebox " ++ name ≠ "main codebox" := fun he => by
      have := congrArg String.toList he
      simp at this
    simp [Site.describe, hne]

theorem Stacked.tail (h : Stacked reg latest (frame :: frames)) : Stacked reg latest frames := by
  cases h with
  | bottom => exact .empty
  | above _ _ below => exact below

theorem Stacked.replace {next : Frame} (h : Stacked reg latest (frame :: frames))
    (hb : next.codebox = frame.codebox) (hk : next.key = frame.key) :
    Stacked reg latest (next :: frames) := by
  cases h with
  | bottom registered =>
    rw [← hk, ← hb] at registered
    rw [← hk]
    exact .bottom registered
  | above registered waits below =>
    rw [← hk, ← hb] at registered
    exact .above registered ⟨waits.outside, hk ▸ waits.calls⟩ below

theorem Stacked.registered (h : Stacked reg latest frames) (hm : frame ∈ frames) :
    reg.get? frame.key = some frame.codebox := by
  induction h with
  | empty => simp at hm
  | bottom registered => exact List.mem_singleton.1 hm ▸ registered
  | above registered _ _ ih =>
    rcases List.mem_cons.1 hm with rfl | hm
    · exact registered
    · exact ih hm

theorem Stacked.drop {above : List Frame} (h : Stacked reg latest (above ++ frames)) :
    Stacked reg latest frames := by
  induction above with
  | nil => exact h
  | cons _ _ ih => exact ih h.tail

structure WellStacked (reg : Registry) (latest : Option Key) (frames : List Frame) : Prop where
  registered : ∀ frame ∈ frames,
    reg.get? frame.key = some frame.codebox ∧ frame.codebox.key = frame.key
  waiting : ∀ above callee caller below,
    frames = above ++ callee :: caller :: below → caller.Waits callee
  main_at_bottom : ∀ above frame below,
    frames = above ++ frame :: below → frame.key = .main → below = []
  bottom : ∀ above frame, frames = above ++ [frame] → latest = some frame.key

theorem Stacked.wellStacked (h : Stacked reg latest frames) : WellStacked reg latest frames where
  registered frame hm := ⟨h.registered hm, Registry.key_of_get? (h.registered hm)⟩
  waiting above callee caller below he := by
    subst he
    cases h.drop with
    | above _ waits _ => exact waits
  main_at_bottom above frame below he hk := by
    subst he
    cases h.drop with
    | bottom => rfl
    | above _ waits _ =>
      obtain ⟨c, -, -, hc⟩ := waits.calls
      exact nomatch hk.symm.trans hc
  bottom above frame he := by
    subst he
    cases h.drop with
    | bottom => rfl

end

namespace Machine

-- ---------------------------------------------------------------------------
-- Steps and runs
-- ---------------------------------------------------------------------------

section
variable {reg : Registry} {latest : Option Key} {machine after : Machine} {outcome : Outcome}
  {key : Key} {fuel : Nat} {result : Except RunError Unit}

theorem Move.stacked (h : Move reg machine outcome after)
    (hs : Stacked reg latest machine.frames) : Stacked reg latest after.frames := by
  cases h with
  | idle => exact .empty
  | strays | fails | misses | starves => exact hs.tail
  | ends => exact .empty
  | moves _ he =>
    obtain ⟨hb, hk⟩ := Frame.same_codebox_of_effect he
    exact hs.replace hb hk
  | calls hc he hb =>
    obtain ⟨hout, hres, rfl⟩ := Frame.effect_eq_calls_iff.1 he
    exact .above hb ⟨hout, _, hc, hres, rfl⟩ hs
  | resumes => exact hs.tail.replace rfl rfl

theorem stacked_step (h : Stacked reg latest machine.frames) :
    Stacked reg latest (step reg machine).2.frames :=
  (move_step reg machine).stacked h

theorem stacked_entered {codebox : Codebox} (h : reg.get? key = some codebox) :
    Stacked reg (some key) (machine.entered key codebox).frames :=
  show Stacked reg (some (Frame.enter codebox key).key) [.enter codebox key] from .bottom h

theorem stacked_run {answer : Except RunError Unit × Machine}
    (h : run reg fuel key machine = some answer) : Stacked reg (some key) answer.2.frames := by
  rcases run_cases h with ⟨-, rfl⟩ | ⟨codebox, result, last, hb, hd, rfl⟩
  · rw [frames_conclude]
    exact .empty
  · rw [frames_conclude]
    exact drive_invariant (P := fun m => Stacked reg (some key) m.frames)
      (fun _ => stacked_step) (stacked_entered hb) hd

theorem Move.finished_iff (h : Move reg machine outcome after)
    (hf : ∀ error, outcome ≠ .failed error) : outcome = .finished ↔ after.frames = [] := by
  cases h with
  | idle | ends => simp
  | moves | calls | resumes => simp
  | strays | fails | misses | starves => exact absurd rfl (hf _)

theorem frames_of_drive_ok (h : drive reg fuel machine = some (.ok (), after)) :
    after.frames = [] := by
  induction fuel generalizing machine with
  | zero => simp [drive] at h
  | succ fuel ih =>
    rcases hs : step reg machine with ⟨outcome, next⟩
    rw [drive, hs] at h
    cases outcome with
    | running => exact ih h
    | finished =>
      obtain ⟨-, rfl⟩ := Prod.mk.inj (Option.some.inj h)
      exact ((move_of_step hs).finished_iff (by simp)).1 rfl
    | failed error => simp at h

theorem depth_of_run_ok (h : run reg fuel key machine = some (.ok (), after)) :
    after.depth = 0 := by
  rcases run_cases h with ⟨-, he⟩ | ⟨codebox, result, last, hb, hd, he⟩
  · exact nomatch congrArg Prod.fst he
  · cases result with
    | error => exact nomatch congrArg Prod.fst he
    | ok =>
      have hf : after.frames = last.frames := by
        rw [← frames_conclude key (.ok ()) last, ← he]
      rw [depth, hf, frames_of_drive_ok hd, List.length_nil]

theorem Move.failed_return {frame caller : Frame} {callers : List Frame} {error : RunError}
    (h : Move reg machine (.failed error) after)
    (hs : Stacked reg latest machine.frames) (hf : machine.frames = frame :: caller :: callers)
    (hc : frame.current? = some '@') (hout : frame.inString = false) :
    ∃ c, error = .velocityUnderflow c caller.site ∧ caller.current? = some c ∧
      frame.key = .command c := by
  have hret : ∀ store, frame.effect '@' store = .returns := fun _ => Frame.effect_at_return hout
  cases h with
  | strays hc' =>
    obtain ⟨rfl, -⟩ := List.cons.inj hf
    simp [hc] at hc'
  | fails hc' he | misses hc' he =>
    obtain ⟨rfl, -⟩ := List.cons.inj hf
    obtain rfl : '@' = _ := Option.some.inj (hc.symm.trans hc')
    exact nomatch (hret _).symm.trans he
  | starves =>
    obtain ⟨rfl, ht⟩ := List.cons.inj hf
    obtain ⟨rfl, rfl⟩ := List.cons.inj ht
    cases hs with
    | above _ waits _ =>
      obtain ⟨c, hcur, -, hk⟩ := waits.calls
      exact ⟨c, by rw [hcur]; rfl, hcur, hk⟩

end

-- ---------------------------------------------------------------------------
-- Histories
-- ---------------------------------------------------------------------------

/-- `Reachable reg latest machine`: some history of calls and steps, whatever came of each, leads
from a machine that had not run to `machine`, and `latest` is the key of the last call. A call that
is under way counts: `entering` is its start, from where it goes on by steps. -/
inductive Reachable (reg : Registry) : Option Key → Machine → Prop
  | fresh {data velocity input sink journal} :
    Reachable reg none (.start data velocity input sink journal)
  | stepped {latest machine} (before : Reachable reg latest machine) :
    Reachable reg latest (step reg machine).2
  | entering {latest machine key codebox} (before : Reachable reg latest machine)
    (found : reg.get? key = some codebox) : Reachable reg (some key) (machine.entered key codebox)
  | called {latest machine key fuel answer} (before : Reachable reg latest machine)
    (ended : run reg fuel key machine = some answer) : Reachable reg (some key) answer.2

section
variable {reg : Registry} {latest : Option Key} {machine : Machine}

theorem Reachable.stacked (h : Reachable reg latest machine) :
    Stacked reg latest machine.frames := by
  induction h with
  | fresh => exact .empty
  | stepped _ ih => exact stacked_step ih
  | entering _ found => exact stacked_entered found
  | called _ ended => exact stacked_run ended

/-- In every machine that calls and steps lead to, also after errors, the frames are a chain of
calls under the latest call's key. So a step that does not fail ends the run exactly when it leaves
no frame, a call without an error leaves none, only the codebox without a name is reported as the
main one, and a return that finds no velocity names the character that called its frame and the
caller's codebox. -/
theorem Reachable.frames_are_calls (h : Reachable reg latest machine) :
    WellStacked reg latest machine.frames ∧
    ((∀ error, (step reg machine).1 ≠ .failed error) →
      ((step reg machine).1 = .finished ↔ (step reg machine).2.frames = [])) ∧
    (∀ fuel key after, run reg fuel key machine = some (.ok (), after) → after.depth = 0) ∧
    (∀ frame ∈ machine.frames,
      (frame.site = .main ↔ frame.codebox.name = "") ∧
      (frame.site.describe = "main codebox" ↔ frame.codebox.name = "")) ∧
    (∀ frame caller callers error, machine.frames = frame :: caller :: callers →
      frame.current? = some '@' → frame.inString = false →
      (step reg machine).1 = .failed error →
      ∃ c, error = .velocityUnderflow c caller.site ∧ caller.current? = some c ∧
        frame.key = .command c) := by
  have hm := move_step reg machine
  refine ⟨h.stacked.wellStacked, hm.finished_iff, fun _ _ _ => depth_of_run_ok, ?_, ?_⟩
  · intro frame hf
    obtain ⟨-, hk⟩ := h.stacked.wellStacked.registered frame hf
    exact ⟨Frame.site_eq_main_iff hk, Frame.describe_site_iff hk⟩
  · intro frame caller callers error hf hc hout he
    rw [he] at hm
    exact hm.failed_return h.stacked hf hc hout

end

def thief : Registry := .ofList
  [⟨"", 1, 0, [['f'], ['@']], ⟨"t", 1⟩⟩, ⟨"f", 1, 0, [['{'], ['{'], ['@']], ⟨"t", 7⟩⟩]

def robbed : Machine :=
  let main := entered (start [] [] [] .unlimited (.start .warn)) .main
    ⟨"", 1, 0, [['f'], ['@']], ⟨"t", 1⟩⟩
  (step thief (step thief (step thief main).2).2).2

theorem frames_are_calls_robbed :
    WellStacked thief (some .main) robbed.frames ∧ robbed.depth = 2 ∧
      (step thief robbed).1 = .failed (.velocityUnderflow 'f' .main) := by
  have hr : Reachable thief (some .main) robbed :=
    .stepped (.stepped (.stepped (.entering .fresh rfl)))
  obtain ⟨hs, -, -, -, hret⟩ := hr.frames_are_calls
  obtain ⟨error, hfail⟩ : ∃ error, (step thief robbed).1 = .failed error := ⟨_, rfl⟩
  obtain ⟨c, rfl, hc, -⟩ := hret _ _ _ _ rfl rfl rfl hfail
  obtain rfl : 'f' = c := Option.some.inj hc
  exact ⟨hs, rfl, hfail⟩

end Machine

end Gridwalk
