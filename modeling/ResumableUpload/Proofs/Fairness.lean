import Mathlib.Data.Nat.Init
import Mathlib.Tactic.ByContra
import ResumableUpload.Proofs.Trace

/-!
# Fair runs

A fair run of a transition system goes on for ever, or for as long as anything can happen, and lets
everybody move who could otherwise move from some time on (`FairRun`).  If somebody can make a move
that leads to a goal, and nobody else can prevent it, the goal is reached (`FairRun.leads`).  A run
that has come to where nothing can happen any more is fair (`FairRun.exists_of_trace`).
-/

namespace ResumableUpload

variable {State Label Actor : Type} {step : State → Label → State → Prop} {actor : Label → Actor}
variable {start : State}

/-- Somebody moves from one state to another. -/
def Moves (step : State → Label → State → Prop) (actor : Label → Actor) (who : Actor)
    (state next : State) : Prop :=
  ∃ label, actor label = who ∧ step state label next

/-- Nothing can happen. -/
def Stuck (step : State → Label → State → Prop) (state : State) : Prop :=
  ∀ (label : Label) (next : State), ¬ step state label next

/-- An endless run in which nobody who can move waits for ever; `actor` tells who makes a move. -/
structure FairRun (step : State → Label → State → Prop) (actor : Label → Actor) (start : State) where
  state : Nat → State
  starts : state 0 = start
  goes : ∀ time,
    (∃ label, step (state time) label (state (time + 1))) ∨
      Stuck step (state time) ∧ state (time + 1) = state time
  fair : ∀ who time, ∃ later ≥ time,
    (∃ next, Moves step actor who (state later) next) →
      Moves step actor who (state later) (state (later + 1))

namespace FairRun

/-- What holds at the start and is kept by every step holds at any time. -/
theorem invariant
    {property : State → Prop}
    (run : FairRun step actor start)
    (initially : property start)
    (kept : ∀ {state label next}, property state → step state label next → property next)
    (time : Nat) :
    property (run.state time) := by
  induction time with
  | zero => exact run.starts.symm ▸ initially
  | succ time held =>
      rcases run.goes time with ⟨label, stepped⟩ | ⟨_, same⟩
      · exact kept held stepped
      · exact same ▸ held

/-- The run up to some time. -/
theorem trace
    (run : FairRun step actor start)
    (time : Nat) :
    ∃ labels, Trace step start labels (run.state time) := by
  induction time with
  | zero => exact ⟨[], run.starts.symm ▸ .refl⟩
  | succ time before =>
      obtain ⟨labels, past⟩ := before
      rcases run.goes time with ⟨label, stepped⟩ | ⟨_, same⟩
      · exact ⟨_, past.snoc stepped⟩
      · exact ⟨labels, same ▸ past⟩

/-- Where nothing can happen any more the run stays. -/
theorem eq_of_stuck
    {time later : Nat}
    (run : FairRun step actor start)
    (stuck : Stuck step (run.state time))
    (ordered : time ≤ later) :
    run.state later = run.state time := by
  induction later, ordered using Nat.le_induction with
  | base => rfl
  | succ later _ same =>
      rcases run.goes later with ⟨label, stepped⟩ | ⟨_, still⟩
      · exact absurd (same ▸ stepped) (stuck _ _)
      · exact still.trans same

/--
If somebody can move and reaches the goal by that, while whatever the others do keeps it so or reaches
the goal, then the goal is reached.
-/
theorem leads
    {time : Nat}
    (run : FairRun step actor start)
    (holds goal : State → Prop)
    (who : Actor)
    (able : ∀ {state}, holds state → ∃ next, Moves step actor who state next)
    (effect : ∀ {state next}, holds state → Moves step actor who state next → goal next)
    (kept :
      ∀ {state label next}, holds state → step state label next → holds next ∨ goal next)
    (now : holds (run.state time)) :
    ∃ later ≥ time, goal (run.state later) := by
  by_contra never
  have missed : ∀ later ≥ time, ¬ goal (run.state later) :=
    fun later after reached => never ⟨later, after, reached⟩
  have still : ∀ later ≥ time, holds (run.state later) := by
    intro later after
    induction later, after using Nat.le_induction with
    | base => exact now
    | succ later after held =>
        rcases run.goes later with ⟨label, stepped⟩ | ⟨_, same⟩
        · exact (kept held stepped).resolve_right (missed _ (Nat.le_succ_of_le after))
        · exact same ▸ held
  obtain ⟨later, after, moves⟩ := run.fair who time
  have held := still later after
  exact missed _ (Nat.le_succ_of_le after) (effect held (moves (able held)))

/-- A goal is reached if from every state on the way to it something smaller or the goal is reached. -/
theorem reaches
    {Rank : Type}
    {below : Rank → Rank → Prop}
    (run : FairRun step actor start)
    (founded : WellFounded below)
    (ranked : Rank → State → Prop)
    (goal : State → Prop)
    (progress :
      ∀ {rank : Rank} {time : Nat}, ranked rank (run.state time) →
        ∃ later ≥ time, goal (run.state later) ∨
          ∃ less, below less rank ∧ ranked less (run.state later))
    {rank : Rank}
    (initially : ranked rank start) :
    ∃ time, goal (run.state time) := by
  have always : ∀ {rank : Rank} {time : Nat}, ranked rank (run.state time) →
      ∃ later, goal (run.state later) := by
    intro rank
    induction rank using founded.induction with
    | h rank smaller =>
        intro time here
        obtain ⟨later, _, reached | ⟨less, lower, there⟩⟩ := progress here
        · exact ⟨later, reached⟩
        · exact smaller less lower there
  exact @always _ 0 (run.starts.symm ▸ initially)

/-! ## Runs that come to their end -/

/-- A run of finitely many steps, with its states by time; at the end it stays where it is. -/
theorem exists_states
    {labels : List Label}
    {final : State}
    (trace : Trace step start labels final) :
    ∃ state : Nat → State,
      state 0 = start ∧ (∀ time < labels.length, ∃ label, step (state time) label (state (time + 1))) ∧
        ∀ time ≥ labels.length, state time = final := by
  induction trace with
  | refl => exact ⟨fun _ => start, rfl, nofun, fun _ _ => rfl⟩
  | @snoc labels middle final label _ last before =>
      obtain ⟨state, starts, steps, rests⟩ := before
      refine ⟨fun time => if time ≤ labels.length then state time else final, starts, ?_, ?_⟩
      · intro time within
        rw [List.length_append, List.length_singleton] at within
        dsimp only
        rw [if_pos (by omega)]
        by_cases earlier : time < labels.length
        · rw [if_pos (by omega)]
          exact steps time earlier
        · rw [if_neg (by omega), rests time (by omega)]
          exact ⟨label, last⟩
      · intro time beyond
        rw [List.length_append, List.length_singleton] at beyond
        exact if_neg (by omega)

/-- A run to where nothing can happen any more is fair. -/
theorem exists_of_trace
    {labels : List Label}
    {final : State}
    (actor : Label → Actor)
    (trace : Trace step start labels final)
    (stuck : Stuck step final) :
    ∃ (run : FairRun step actor start) (time : Nat), run.state time = final := by
  obtain ⟨state, starts, steps, rests⟩ := exists_states trace
  refine ⟨⟨state, starts, ?_, ?_⟩, labels.length, rests _ (Nat.le_refl _)⟩
  · intro time
    by_cases earlier : time < labels.length
    · exact .inl (steps time earlier)
    · have last := rests time (by omega)
      have also := rests (time + 1) (by omega)
      rw [last, also]
      exact .inr ⟨stuck, rfl⟩
  · intro who time
    refine ⟨max time labels.length, Nat.le_max_left _ _, ?_⟩
    rw [rests _ (Nat.le_max_right _ _)]
    rintro ⟨next, label, _, stepped⟩
    exact absurd stepped (stuck _ _)

end FairRun

end ResumableUpload
