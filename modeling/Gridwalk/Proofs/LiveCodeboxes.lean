import Mathlib.Data.List.Forall2
import Gridwalk.Proofs.RegistryLaws
import Gridwalk.Proofs.StepLaws

/-!
# Codeboxes that a run can come to

Pointers, strings and stacks decide where a run goes, but it only ever calls what stands in a grid:
`Live` is the least set of keys that contains the key of the call and, with the key of a codebox,
every character of its rows that is not reserved. Two registries with the same code under the live
keys run alike, whatever else they hold (`live_codeboxes_decide_run`). Where a codebox was read from
is never looked at.

`Twins` relates machines that run over two such registries; steps keep it.
-/

namespace Gridwalk

/-- The keys that characters lead to from `key`. -/
inductive Live (reg : Registry) (key : Key) : Key → Prop
  | start : Live reg key key
  | calls {caller box row c} (live : Live reg key caller) (found : reg.get? caller = some box)
    (drawn : row ∈ box.rows) (cell : c ∈ row) (free : Command.isReserved c = false) :
    Live reg key (.command c)

def Key.Callable (key : Key) : Prop := ∃ c, key = .command c ∧ Command.isReserved c = false

theorem Live.eq_or_callable {reg : Registry} {key other : Key} (h : Live reg key other) :
    other = key ∨ other.Callable := by
  cases h with
  | start => exact .inl rfl
  | calls _ _ _ _ free => exact .inr ⟨_, rfl, free⟩

-- ---------------------------------------------------------------------------
-- Frames over another copy of their codebox
-- ---------------------------------------------------------------------------

def Frame.onto (frame : Frame) (box : Codebox) : Frame := { frame with codebox := box }

def Effect.onto (box : Codebox) : Effect → Effect
  | .moves frame store => .moves (frame.onto box) store
  | .fails error store => .fails error store
  | .calls c => .calls c
  | .returns => .returns

section
variable {box : Codebox} {frame : Frame} {store : Store} {c : Char}

theorem Codebox.mem_of_cell? {x y : Int} (h : box.cell? x y = some c) :
    ∃ row ∈ box.rows, c ∈ row := by
  unfold Codebox.cell? at h
  split at h
  next x y =>
    obtain ⟨row, hrow, hc⟩ := Option.bind_eq_some_iff.1 h
    exact ⟨row, List.mem_of_getElem? hrow, List.mem_of_getElem? hc⟩
  next => nomatch h

theorem Frame.current?_onto (h : frame.codebox.SameCode box) :
    (frame.onto box).current? = frame.current? := by
  obtain ⟨origin, rfl⟩ := h.exists_eq
  rfl

theorem Frame.site_onto (h : frame.codebox.SameCode box) : (frame.onto box).site = frame.site := by
  obtain ⟨origin, rfl⟩ := h.exists_eq
  rfl

theorem Op.run_onto (op : Op) (h : frame.codebox.SameCode box) :
    op.run (frame.onto box) store = op.run frame store := by
  obtain ⟨origin, rfl⟩ := h.exists_eq
  cases op <;> rfl

theorem Frame.effect_onto (h : frame.codebox.SameCode box) :
    (frame.onto box).effect c store = (frame.effect c store).onto box := by
  have hin : (frame.onto box).inString = frame.inString := rfl
  unfold Frame.effect
  rw [hin, Frame.site_onto h]
  cases frame.inString with
  | true => by_cases hq : c = '"' <;> simp only [hq, ↓reduceIte] <;> rfl
  | false =>
    cases Command.decode c with
    | op op =>
      simp only [Op.run_onto op h]
      rcases op.run frame store with ⟨_ | _, _⟩ <;> rfl
    | quote | ret | call => rfl

end

-- ---------------------------------------------------------------------------
-- Two runs
-- ---------------------------------------------------------------------------

/-- The frame runs what is registered under a live key, and `other` runs the same code. -/
structure Frame.Twin (reg : Registry) (key : Key) (frame other : Frame) : Prop where
  live : Live reg key frame.key
  registered : reg.get? frame.key = some frame.codebox
  code : frame.codebox.SameCode other.codebox
  eq_onto : other = frame.onto other.codebox

section
variable {reg : Registry} {key called : Key} {frame other next : Frame} {store : Store} {c d : Char}

theorem Frame.Twin.current?_eq (h : Frame.Twin reg key frame other) :
    other.current? = frame.current? := by
  rw [h.eq_onto, Frame.current?_onto h.code]

theorem Frame.Twin.site_eq (h : Frame.Twin reg key frame other) : other.site = frame.site := by
  rw [h.eq_onto, Frame.site_onto h.code]

theorem Frame.Twin.effect_of {effect : Effect} (h : Frame.Twin reg key frame other)
    (he : frame.effect c store = effect) : other.effect c store = effect.onto other.codebox := by
  rw [← he, ← Frame.effect_onto h.code, ← h.eq_onto]

theorem Frame.Twin.save_eq (h : Frame.Twin reg key frame other) :
    store.save other = store.save frame := by
  rw [h.eq_onto]
  rfl

theorem Frame.Twin.replace (h : Frame.Twin reg key frame other)
    (hb : next.codebox = frame.codebox) (hk : next.key = frame.key) :
    Frame.Twin reg key next (next.onto other.codebox) where
  live := hk ▸ h.live
  registered := by rw [hk, hb, h.registered]
  code := by
    rw [hb]
    exact h.code
  eq_onto := rfl

theorem Frame.Twin.enter {box copy : Codebox} (live : Live reg key called)
    (hb : reg.get? called = some box) (hc : box.SameCode copy) :
    Frame.Twin reg key (.enter box called) (.enter copy called) where
  live := live
  registered := hb
  code := hc
  eq_onto := by
    obtain ⟨origin, rfl⟩ := hc.exists_eq
    rfl

theorem Frame.Twin.live_call (h : Frame.Twin reg key frame other) (hc : frame.current? = some c)
    (he : frame.effect c store = .calls d) : Live reg key (.command d) := by
  obtain ⟨-, hfree, rfl⟩ := Frame.effect_eq_calls_iff.1 he
  obtain ⟨row, hrow, hcell⟩ := Codebox.mem_of_cell? hc
  exact .calls h.live h.registered hrow hcell hfree

end

namespace Machine

/-- The machines have the same store and count, and their frames are twins. Their journals need not
agree. -/
structure Twins (reg : Registry) (key : Key) (machine other : Machine) : Prop where
  store : machine.store = other.store
  steps : machine.steps = other.steps
  frames : List.Forall₂ (Frame.Twin reg key) machine.frames other.frames

structure SameEnd (answer other : Except RunError Unit × Machine) : Prop where
  result : answer.1 = other.1
  store : answer.2.store = other.2.store
  steps : answer.2.steps = other.2.steps
  depth : answer.2.depth = other.2.depth

section
variable {reg reg' : Registry} {key : Key} {machine other after : Machine} {outcome : Outcome}
  {fuel : Nat}

theorem Move.twins (h : Move reg machine outcome after)
    (hreg : ∀ called, Live reg key called → reg.SameUnder reg' called)
    (ht : Twins reg key machine other) :
    ∃ next, Move reg' other outcome next ∧ Twins reg key after next := by
  obtain ⟨store, frames, steps, journal⟩ := other
  obtain ⟨rfl, rfl, hframes⟩ := ht
  cases h with
  | idle =>
    cases hframes
    exact ⟨⟨_, _, _, journal⟩, .idle, rfl, rfl, .nil⟩
  | strays hc =>
    obtain ⟨copy, copies, htwin, hrest, rfl⟩ := List.forall₂_cons_left_iff.1 hframes
    rw [← htwin.current?_eq] at hc
    rw [← htwin.site_eq]
    exact ⟨⟨_, _, _, journal⟩, .strays hc, rfl, rfl, hrest⟩
  | moves hc he =>
    obtain ⟨copy, copies, htwin, hrest, rfl⟩ := List.forall₂_cons_left_iff.1 hframes
    obtain ⟨hb, hk⟩ := Frame.same_codebox_of_effect he
    rw [← htwin.current?_eq] at hc
    have he' := htwin.effect_of he
    exact ⟨⟨_, _, _, journal⟩, .moves hc he', rfl, rfl, .cons (htwin.replace hb hk) hrest⟩
  | fails hc he =>
    obtain ⟨copy, copies, htwin, hrest, rfl⟩ := List.forall₂_cons_left_iff.1 hframes
    rw [← htwin.current?_eq] at hc
    have he' := htwin.effect_of he
    exact ⟨⟨_, _, _, journal⟩, .fails hc he', rfl, rfl, hrest⟩
  | calls hc he hb =>
    obtain ⟨copy, copies, htwin, hrest, rfl⟩ := List.forall₂_cons_left_iff.1 hframes
    have hlive := htwin.live_call hc he
    obtain ⟨box', hb', hcode⟩ := (hreg _ hlive).of_some hb
    rw [← htwin.current?_eq] at hc
    have he' := htwin.effect_of he
    exact ⟨⟨_, _, _, journal⟩, .calls hc he' hb', htwin.save_eq.symm, rfl,
      .cons (.enter hlive hb hcode) (.cons htwin hrest)⟩
  | misses hc he hb =>
    obtain ⟨copy, copies, htwin, hrest, rfl⟩ := List.forall₂_cons_left_iff.1 hframes
    have hb' := (hreg _ (htwin.live_call hc he)).of_none hb
    rw [← htwin.current?_eq] at hc
    have he' := htwin.effect_of he
    exact ⟨⟨_, _, _, journal⟩, .misses hc he' hb', htwin.save_eq.symm, rfl, hrest⟩
  | ends hc he =>
    obtain ⟨copy, copies, htwin, hrest, rfl⟩ := List.forall₂_cons_left_iff.1 hframes
    cases hrest
    rw [← htwin.current?_eq] at hc
    have he' := htwin.effect_of he
    exact ⟨⟨_, _, _, journal⟩, .ends hc he', rfl, rfl, .nil⟩
  | resumes hc he hv =>
    obtain ⟨copy, copies, htwin, hrest, rfl⟩ := List.forall₂_cons_left_iff.1 hframes
    obtain ⟨caller, callers, hcaller, hcallers, rfl⟩ := List.forall₂_cons_left_iff.1 hrest
    rw [← htwin.current?_eq] at hc
    have he' := htwin.effect_of he
    refine ⟨⟨_, _, _, journal⟩, .resumes hc he' hv, rfl, rfl, .cons ?_ hcallers⟩
    rw [hcaller.eq_onto]
    exact hcaller.replace rfl rfl
  | starves hc he hv =>
    obtain ⟨copy, copies, htwin, hrest, rfl⟩ := List.forall₂_cons_left_iff.1 hframes
    obtain ⟨caller, callers, hcaller, -, rfl⟩ := List.forall₂_cons_left_iff.1 hrest
    rw [← htwin.current?_eq] at hc
    have he' := htwin.effect_of he
    rw [← hcaller.current?_eq, ← hcaller.site_eq]
    exact ⟨⟨_, _, _, journal⟩, .starves hc he' hv, rfl, rfl, hrest⟩

theorem step_twins (hreg : ∀ called, Live reg key called → reg.SameUnder reg' called)
    (h : Twins reg key machine other) :
    (step reg machine).1 = (step reg' other).1 ∧
      Twins reg key (step reg machine).2 (step reg' other).2 := by
  obtain ⟨next, hm, ht⟩ := (move_step reg machine).twins hreg h
  obtain ⟨journal, hs⟩ := hm.step_eq
  rw [hs]
  exact ⟨rfl, ht.store, ht.steps, ht.frames⟩

theorem conclude_twins (result : Except RunError Unit) (h : Twins reg key machine other) :
    SameEnd (conclude key result machine) (conclude key result other) := by
  obtain ⟨store, frames, steps, journal⟩ := other
  obtain ⟨rfl, rfl, hframes⟩ := h
  cases result with
  | error error => exact ⟨rfl, rfl, rfl, hframes.length_eq⟩
  | ok => exact ⟨rfl, rfl, rfl, hframes.length_eq⟩

theorem run_twins (hreg : ∀ called, Live reg key called → reg.SameUnder reg' called)
    (hstore : machine.store = other.store) (hsteps : machine.steps = other.steps) :
    Option.Rel SameEnd (run reg fuel key machine) (run reg' fuel key other) := by
  have hkey : reg.SameUnder reg' key := hreg key .start
  cases hb : reg.get? key with
  | none =>
    have hcleared : Twins reg key { machine with frames := [] } { other with frames := [] } :=
      ⟨hstore, hsteps, .nil⟩
    rw [run_of_none hb, run_of_none (hkey.of_none hb)]
    exact .some (conclude_twins _ hcleared)
  | some codebox =>
    obtain ⟨copy, hb', hcode⟩ := hkey.of_some hb
    have hentered : Twins reg key (machine.entered key codebox) (other.entered key copy) :=
      ⟨hstore, hsteps, .cons (.enter .start hb hcode) .nil⟩
    have hdriven := drive_lockstep (fun _ _ => step_twins hreg) hentered fuel
    rw [run_of_some hb, run_of_some hb']
    generalize drive reg fuel (machine.entered key codebox) = driven at hdriven ⊢
    generalize drive reg' fuel (other.entered key copy) = driven' at hdriven ⊢
    cases hdriven with
    | none => exact .none
    | @some answer answer' hr =>
      obtain ⟨result, last⟩ := answer
      obtain ⟨result', last'⟩ := answer'
      obtain ⟨rfl, ht⟩ : result = result' ∧ Twins reg key last last' := hr
      exact .some (conclude_twins result ht)

end

/-- A call ends the same over every registry that has the same code under the keys that characters
lead to: with the same result, stacks, streams, count and depth, or it does not end over either.
So but for what stands under the called key itself, the main codebox and codeboxes under reserved
characters make no difference to it. -/
theorem live_codeboxes_decide_run (reg : Registry) (key : Key) (fuel : Nat) (store : Store)
    (steps : Nat) (frames frames' : List Frame) (journal journal' : Log.Journal) :
    (∀ reg' : Registry, (∀ called, Live reg key called → reg.SameUnder reg' called) →
      Option.Rel SameEnd (run reg fuel key ⟨store, frames, steps, journal⟩)
        (run reg' fuel key ⟨store, frames', steps, journal'⟩)) ∧
    ∀ reg' : Registry, (∀ called, called = key ∨ called.Callable → reg.SameUnder reg' called) →
      Option.Rel SameEnd (run reg fuel key ⟨store, frames, steps, journal⟩)
        (run reg' fuel key ⟨store, frames', steps, journal'⟩) := by
  refine ⟨?_, ?_⟩
  · intro reg' hreg
    exact run_twins hreg rfl rfl
  · intro reg' hreg
    refine run_twins (fun called hlive => ?_) rfl rfl
    exact hreg called hlive.eq_or_callable

/-- The main codebox calls `f`, which calls nothing; nothing leads to `g`. -/
def settled : Registry := .ofList
  [⟨"", 1, 0, [['f'], ['@']], ⟨"t", 1⟩⟩, ⟨"f", 1, 0, [['3'], ['@']], ⟨"t", 7⟩⟩,
    ⟨"g", 1, 0, [['f'], ['m']], ⟨"t", 13⟩⟩]

def resettled : Registry := .ofList
  [⟨"", 1, 0, [['f'], ['@']], ⟨"u", 1⟩⟩, ⟨"f", 1, 0, [['3'], ['@']], ⟨"t", 7⟩⟩,
    ⟨"3 of them", 1, 0, [['?']], ⟨"u", 9⟩⟩]

theorem live_codeboxes_decide_run_settled :
    (∀ called, Live settled .main called → settled.SameUnder resettled called) ∧
    ∃ answer, run resettled 9 .main (start [] [] [] .unlimited (.start .warn)) = some answer ∧
      answer.1 = .ok () ∧ answer.2.store.data = [3] ∧ answer.2.steps = 4 := by
  have hlive : ∀ called, Live settled .main called → called = .main ∨ called = .command 'f' := by
    intro called h
    induction h with
    | start => exact .inl rfl
    | @calls caller box row c _ found drawn cell free ih =>
      right
      rcases ih with rfl | rfl
      · obtain rfl := Option.some.inj (found.symm.trans rfl)
        have hrows : ∀ row ∈ [['f'], ['@']], ∀ c ∈ row, Command.isReserved c = false → c = 'f' := by
          simp [Command.isReserved, Command.decode]
        rw [hrows row drawn c cell free]
      · obtain rfl := Option.some.inj (found.symm.trans rfl)
        have hrows : ∀ row ∈ [['3'], ['@']], ∀ c ∈ row, Command.isReserved c = true := by
          simp [Command.isReserved, Command.decode]
        cases (hrows row drawn c cell).symm.trans free
  have hsame : ∀ called, Live settled .main called → settled.SameUnder resettled called := by
    intro called h
    rcases hlive called h with rfl | rfl
    · exact .some ⟨rfl, rfl, rfl, rfl⟩
    · exact .some ⟨rfl, rfl, rfl, rfl⟩
  obtain ⟨answer, hrun, hresult, hdata, hsteps⟩ : ∃ answer,
      run settled 9 .main (start [] [] [] .unlimited (.start .warn)) = some answer ∧
        answer.1 = .ok () ∧ answer.2.store.data = [3] ∧ answer.2.steps = 4 :=
    ⟨_, rfl, rfl, rfl, rfl⟩
  obtain ⟨hruns, -⟩ := live_codeboxes_decide_run settled .main 9 ⟨[], [], [], .unlimited⟩ 0 [] []
    (.start .warn) (.start .warn)
  have hrel : Option.Rel SameEnd (some answer)
      (run resettled 9 .main (start [] [] [] .unlimited (.start .warn))) :=
    hrun ▸ hruns resettled hsame
  refine ⟨hsame, ?_⟩
  generalize run resettled 9 .main (start [] [] [] .unlimited (.start .warn)) = run' at hrel ⊢
  cases hrel with
  | some same =>
    exact ⟨_, rfl, same.result.symm.trans hresult, by rw [← same.store, hdata],
      same.steps.symm.trans hsteps⟩

end Machine

end Gridwalk
