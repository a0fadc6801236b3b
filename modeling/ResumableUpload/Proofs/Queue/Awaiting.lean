import ResumableUpload.Proofs.Session.Turns

/-!
# What a queue has yet to hear of

With a background executor reports and snapshots are under way for some time.  `Queue.Awaits` says what
the reports under way may be about: the upload of one engine, so that the last of them ends it and the
others leave the entry as runnable as it was.  `Queue.InLine` says which of the snapshots under way are
still right: those that have seen every report that the queue has.
-/

namespace ResumableUpload

variable {queue : Queue} {slot : Option Engine} {engine next : Engine} {reports rest : List Report}
variable {report : Report} {entry : Entry} {path : String} {snapshot : Snapshot}
variable {snapshots : List Snapshot}

/-! ## Reports under way -/

/-- A report about a path that is not the last one of its engine. -/
structure Report.Lasting (report : Report) (path : String) (size : Nat) : Prop where
  about : report.path = path
  runnable : report.runnable = true
  below : report.uploaded < size

/-- The entry of a path runs on after such a report. -/
theorem Report.Lasting.find?_reconcile
    (lasting : report.Lasting path entry.size)
    (tidy : queue.Tidy)
    (found : queue.find? path = some entry)
    (runnable : entry.runnable = true) :
    (queue.reconcile report).find? path = some (entry.apply report) ∧
      (entry.apply report).runnable = true := by
  constructor
  · rw [tidy.find?_reconcile, if_pos lasting.about.symm, found, Option.bind_some,
      if_neg (Nat.not_le_of_lt lasting.below)]
  · simp only [Entry.apply, runnable, lasting.runnable, Bool.and_self]

/-- The reports that a queue has yet to hear of, which are about the upload of one engine. -/
inductive Queue.Awaits (queue : Queue) : Option Engine → List Report → Prop where
  /-- No engine is at work, and there is no report to hear of. -/
  | nothing : Awaits queue none []
  /-- The engine at work has not made its last report. -/
  | goes {engine : Engine} {entry : Entry} {reports : List Report}
      (found : queue.find? engine.path = some entry)
      (runnable : entry.runnable = true)
      (size : entry.size = engine.size)
      (lasts : ∀ report ∈ reports, report.Lasting engine.path entry.size) :
      Awaits queue (some engine) reports
  /-- An engine has made its last report. -/
  | ends {path : String} {entry : Entry} {reports : List Report} {last : Report}
      (found : queue.find? path = some entry)
      (runnable : entry.runnable = true)
      (lasts : ∀ report ∈ reports, report.Lasting path entry.size)
      (about : last.path = path) :
      Awaits queue none (reports ++ [last])

namespace Queue.Awaits

/-- As long as there is something to hear of, an entry may run. -/
theorem runnables_ne_zero
    (awaits : queue.Awaits slot reports)
    (more : slot ≠ none ∨ reports ≠ []) :
    queue.runnables ≠ 0 := by
  have counts {entry : Entry} {path : String} (found : queue.find? path = some entry)
      (runnable : entry.runnable = true) : queue.runnables ≠ 0 :=
    Nat.ne_of_gt (List.countP_pos_iff.mpr ⟨entry, mem_of_find? found, runnable⟩)
  cases awaits with
  | nothing => simp only [ne_eq, not_true_eq_false, or_self] at more
  | goes found runnable => exact counts found runnable
  | ends found runnable => exact counts found runnable

/-- The oldest report is about a path that is queued. -/
theorem isSome_find?
    (awaits : queue.Awaits slot (report :: rest)) :
    (queue.find? report.path).isSome = true := by
  generalize made : report :: rest = reports at awaits
  cases awaits with
  | nothing => cases made
  | goes found _ _ lasts =>
      have lasting := lasts report (made ▸ List.mem_cons_self)
      rw [lasting.about, found, Option.isSome_some]
  | @ends path entry reports last found _ lasts about =>
      cases reports with
      | nil =>
          cases made
          rw [about, found, Option.isSome_some]
      | cons first others =>
          cases made
          rw [(lasts report List.mem_cons_self).about, found, Option.isSome_some]

theorem reconcile
    (awaits : queue.Awaits slot (report :: rest))
    (tidy : queue.Tidy) :
    (queue.reconcile report).Awaits slot rest := by
  generalize made : report :: rest = reports at awaits
  cases awaits with
  | nothing => cases made
  | goes found runnable size lasts =>
      subst made
      obtain ⟨after, still⟩ :=
        (lasts report List.mem_cons_self).find?_reconcile tidy found runnable
      exact .goes after still size fun other member => lasts other (List.mem_cons_of_mem _ member)
  | @ends path entry reports last found runnable lasts about =>
      cases reports with
      | nil =>
          cases made
          exact .nothing
      | cons first others =>
          cases made
          obtain ⟨after, still⟩ :=
            (lasts report List.mem_cons_self).find?_reconcile tidy found runnable
          exact .ends after still (fun other member => lasts other (List.mem_cons_of_mem _ member))
            about

/-- While an engine is at work no report changes which path comes first. -/
theorem first?_reconcile (awaits : queue.Awaits (some engine) (report :: rest)) :
    (queue.reconcile report).snapshot.first?.map (·.path) =
      queue.snapshot.first?.map (·.path) := by
  cases awaits with
  | goes found _ _ lasts =>
      have lasting := lasts report List.mem_cons_self
      exact first?_of_lasting (lasting.about ▸ found) lasting.below lasting.runnable

/-- An engine makes further reports, the last of them when it ends. -/
theorem act
    {act : Engine.Act}
    (awaits : queue.Awaits (some engine) reports)
    (ordered : engine.Ordered)
    (step : Engine.Step engine act next) :
    queue.Awaits (if next.hasEnded then none else some next) (reports ++ act.report?.toList) := by
  cases awaits with
  | @goes _ entry _ found runnable size lasts =>
      cases ended : next.hasEnded with
      | true =>
          obtain ⟨report, rfl, about, _⟩ := step.ends ended
          exact .ends found runnable lasts about
      | false =>
          refine @goes _ next entry _ (step.path_eq ▸ found) runnable
            (size.trans step.size_eq.symm) ?_
          intro report member
          rw [step.path_eq]
          rcases List.mem_append.mp member with earlier | made
          · exact lasts report earlier
          · cases act with
            | report made =>
                obtain rfl := List.mem_singleton.mp made
                obtain ⟨told, rfl⟩ := step.report_made
                rcases ordered.report_cases told with ⟨lasting, _, below⟩ | ⟨_, rested, _⟩
                · exact ⟨(Engine.report?_eq_some told).1, lasting, size ▸ below⟩
                · cases ended.symm.trans rested
            | create | read | chunk | status | check | wait => cases made

end Queue.Awaits

/-! ## Snapshots in line -/

/-- Snapshots of a queue in the order in which they were taken, none of them in vain. -/
structure Queue.InLine (queue : Queue) (snapshots : List Snapshot) : Prop where
  ordered : snapshots.Pairwise fun earlier later => earlier.reportsSeen ≤ later.reportsSeen
  seen : ∀ snapshot ∈ snapshots, snapshot.reportsSeen ≤ queue.reportsSeen
  /-- A snapshot that has seen every report that the queue has is still right. -/
  right : ∀ snapshot ∈ snapshots,
    snapshot.reportsSeen = queue.reportsSeen → snapshot = queue.snapshot

namespace Queue.InLine

theorem nil (queue : Queue) : queue.InLine [] :=
  ⟨.nil, nofun, nofun⟩

theorem sublist
    {fewer : List Snapshot}
    (line : queue.InLine snapshots)
    (kept : fewer.Sublist snapshots) :
    queue.InLine fewer where
  ordered := line.ordered.sublist kept
  seen snapshot member := line.seen snapshot (kept.mem member)
  right snapshot member := line.right snapshot (kept.mem member)

/-- One more snapshot is taken. -/
theorem snoc (line : queue.InLine snapshots) : queue.InLine (snapshots ++ [queue.snapshot]) where
  ordered := by
    refine List.pairwise_append.mpr ⟨line.ordered, List.pairwise_singleton _ _, ?_⟩
    intro earlier member later last
    rw [List.mem_singleton.mp last]
    exact line.seen earlier member
  seen snapshot member := by
    rcases List.mem_append.mp member with earlier | last
    · exact line.seen snapshot earlier
    · rw [List.mem_singleton.mp last]
      exact Nat.le_refl _
  right snapshot member same := by
    rcases List.mem_append.mp member with earlier | last
    · exact line.right snapshot earlier same
    · exact List.mem_singleton.mp last

/-- Once the queue has heard of one more report, every snapshot is late. -/
theorem reconcile
    (line : queue.InLine snapshots)
    (report : Report) :
    (queue.reconcile report).InLine snapshots where
  ordered := line.ordered
  seen snapshot member := by
    rw [reportsSeen_reconcile]
    exact Nat.le_succ_of_le (line.seen snapshot member)
  right snapshot member same := by
    rw [reportsSeen_reconcile] at same
    exact absurd same (Nat.ne_of_lt (Nat.lt_succ_of_le (line.seen snapshot member)))

/-- If the first snapshot in line is right, all of them are. -/
theorem eq_of_head
    {behind : List Snapshot}
    (line : queue.InLine (snapshot :: behind))
    (current : queue.reportsSeen ≤ snapshot.reportsSeen) :
    ∀ other ∈ snapshot :: behind, other = queue.snapshot := by
  intro other member
  refine line.right other member (Nat.le_antisymm (line.seen other member) ?_)
  rcases List.mem_cons.mp member with rfl | later
  · exact current
  · exact Nat.le_trans current ((List.pairwise_cons.mp line.ordered).1 other later)

end Queue.InLine

end ResumableUpload
