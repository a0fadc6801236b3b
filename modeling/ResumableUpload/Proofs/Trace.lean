/-!
# Traces

Engines, executors, schedulers and transfers are all treated as transition systems: a relation says
which labelled steps a state can take.  A `Trace` is a finite run of such a system, with the labels
of its steps in order.  What every step keeps, every trace keeps (`Trace.invariant`).
-/

namespace ResumableUpload

/-- A run from `start` to a final state, with the labels of its steps in order. -/
inductive Trace {State Label : Type} (step : State → Label → State → Prop) (start : State) :
    List Label → State → Prop where
  | refl : Trace step start [] start
  | snoc {labels : List Label} {middle final : State} {label : Label}
      (past : Trace step start labels middle)
      (last : step middle label final) :
      Trace step start (labels ++ [label]) final

namespace Trace

variable {State Label : Type} {step : State → Label → State → Prop}
variable {start middle final : State} {labels : List Label}

/-- What holds at the start and is kept by every step holds at the end. -/
theorem invariant
    {property : State → Prop}
    (trace : Trace step start labels final)
    (initially : property start)
    (kept :
      ∀ {state label next},
        property state → step state label next → property next) :
    property final := by
  induction trace with
  | refl => exact initially
  | snoc _ last held => exact kept held last

theorem append
    {further : List Label}
    (first : Trace step start labels middle)
    (second : Trace step middle further final) :
    Trace step start (labels ++ further) final := by
  induction second with
  | refl => simpa using first
  | snoc _ last extended =>
      rw [← List.append_assoc]
      exact extended.snoc last

theorem eq_of_nil
    (trace : Trace step start labels final)
    (same : labels = []) :
    final = start := by
  cases trace with
  | refl => rfl
  | snoc => exact absurd same (List.append_ne_nil_of_right_ne_nil _ (List.cons_ne_nil _ _))

theorem uncons
    {label : Label}
    {rest : List Label}
    (trace : Trace step start labels final)
    (same : labels = label :: rest) :
    ∃ middle, step start label middle ∧ Trace step middle rest final := by
  induction trace generalizing rest with
  | refl => cases same
  | @snoc earlier middle final _ past last later =>
      cases earlier with
      | nil =>
          cases same
          obtain rfl := past.eq_of_nil rfl
          exact ⟨final, last, .refl⟩
      | cons first between =>
          cases same
          obtain ⟨second, head, tail⟩ := later rfl
          exact ⟨second, head, tail.snoc last⟩

/-- A run can be parted anywhere. -/
theorem split
    {earlier later : List Label}
    (trace : Trace step start (earlier ++ later) final) :
    ∃ middle, Trace step start earlier middle ∧ Trace step middle later final := by
  induction earlier generalizing start with
  | nil => exact ⟨start, .refl, trace⟩
  | cons label rest parted =>
      obtain ⟨second, head, tail⟩ := trace.uncons rfl
      obtain ⟨middle, before, after⟩ := parted tail
      exact ⟨middle, (Trace.snoc .refl head).append before, after⟩

/-- In a system whose steps are determined by what is seen of them, so are the runs. -/
theorem eq_of_map
    {Seen : Type}
    {view : Label → Seen}
    {others : List Label}
    {other : State}
    (determined :
      ∀ {state first second : State} {label also : Label},
        step state label first → step state also second → view label = view also →
          label = also ∧ first = second)
    (trace : Trace step start labels final)
    (twin : Trace step start others other)
    (same : labels.map view = others.map view) :
    labels = others ∧ final = other := by
  induction labels generalizing start others with
  | nil =>
      obtain rfl := List.map_eq_nil_iff.mp same.symm
      rw [trace.eq_of_nil rfl, twin.eq_of_nil rfl]
      exact ⟨rfl, rfl⟩
  | cons label rest later =>
      obtain ⟨also, further, rfl, seen, left⟩ := List.map_eq_cons_iff.mp same.symm
      obtain ⟨first, head, tail⟩ := trace.uncons rfl
      obtain ⟨second, twinHead, twinTail⟩ := twin.uncons rfl
      obtain ⟨rfl, rfl⟩ := determined head twinHead seen.symm
      obtain ⟨rfl, rfl⟩ := later tail twinTail left.symm
      exact ⟨rfl, rfl⟩

/-- A system that has at most one step in every state has at most one run to where it is stuck. -/
theorem eq_of_stuck
    {others : List Label}
    {other : State}
    (determined :
      ∀ {state first second : State} {label also : Label},
        step state label first → step state also second → label = also ∧ first = second)
    (trace : Trace step start labels final)
    (twin : Trace step start others other)
    (stuck : ∀ {label : Label} {next : State}, ¬ step final label next)
    (also : ∀ {label : Label} {next : State}, ¬ step other label next) :
    labels = others ∧ final = other := by
  induction labels generalizing start others with
  | nil =>
      obtain rfl := trace.eq_of_nil rfl
      cases others with
      | nil => exact ⟨rfl, (twin.eq_of_nil rfl).symm⟩
      | cons =>
          obtain ⟨_, head, _⟩ := twin.uncons rfl
          exact absurd head stuck
  | cons label rest later =>
      obtain ⟨first, head, tail⟩ := trace.uncons rfl
      cases others with
      | nil =>
          obtain rfl := twin.eq_of_nil rfl
          exact absurd head also
      | cons =>
          obtain ⟨second, twinHead, twinTail⟩ := twin.uncons rfl
          obtain ⟨rfl, rfl⟩ := determined head twinHead
          obtain ⟨rfl, rfl⟩ := later tail twinTail
          exact ⟨rfl, rfl⟩

theorem imp
    {other : State → Label → State → Prop}
    (trace : Trace step start labels final)
    (weaker : ∀ {state label next}, step state label next → other state label next) :
    Trace other start labels final := by
  induction trace with
  | refl => exact .refl
  | snoc _ last earlier => exact earlier.snoc (weaker last)

/-- If every computed step is one of the system, what is computed step by step is a run. -/
theorem of_foldlM
    (step : State → Label → State → Prop)
    {next? : State → Label → Option State}
    (sound :
      ∀ {state label next}, next? state label = some next → step state label next)
    (computed : labels.foldlM next? start = some final) :
    Trace step start labels final := by
  induction labels generalizing start with
  | nil =>
      rw [List.foldlM_nil] at computed
      cases computed
      exact .refl
  | cons label rest continued =>
      rw [List.foldlM_cons] at computed
      obtain ⟨next, first, remaining⟩ := Option.bind_eq_some_iff.mp computed
      exact (Trace.snoc .refl (sound first)).append (continued remaining)

/-- A run of a system whose steps another system can take, under labels of its own. -/
theorem relabel
    {Other : Type}
    {other : State → Other → State → Prop}
    (trace : Trace step start labels final)
    (relabelled :
      ∀ {state label next}, step state label next → ∃ label, other state label next) :
    ∃ labels, Trace other start labels final := by
  induction trace with
  | refl => exact ⟨[], .refl⟩
  | snoc _ last earlier =>
      obtain ⟨labels, past⟩ := earlier
      obtain ⟨label, taken⟩ := relabelled last
      exact ⟨labels ++ [label], past.snoc taken⟩

/-- A run of a system whose steps another system can take under labels that tell more. -/
theorem lift
    {Full : Type}
    {other : State → Full → State → Prop}
    {view : Full → Label}
    (trace : Trace step start labels final)
    (lifted :
      ∀ {state label next}, step state label next →
        ∃ full, view full = label ∧ other state full next) :
    ∃ fulls, fulls.map view = labels ∧ Trace other start fulls final := by
  induction trace with
  | refl => exact ⟨[], rfl, .refl⟩
  | snoc _ last earlier =>
      obtain ⟨fulls, same, past⟩ := earlier
      obtain ⟨full, seen, taken⟩ := lifted last
      refine ⟨fulls ++ [full], ?_, past.snoc taken⟩
      rw [List.map_append, List.map_singleton, same, seen]

end Trace

/-- What the labels of a run tell when there is one more. -/
theorem filterMap_concat
    {Label Seen : Type}
    (see : Label → Option Seen)
    (labels : List Label)
    (label : Label) :
    (labels ++ [label]).filterMap see = labels.filterMap see ++ (see label).toList := by
  rw [List.filterMap_append, List.filterMap_cons]
  cases see label <;> rfl

end ResumableUpload
