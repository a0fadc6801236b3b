import ResumableUpload.Executor
import ResumableUpload.Proofs.Queue.Entries

/-!
# Runnable entries

Nothing but adding a file makes an entry runnable, so a path that is paused or not queued stays so
under every other operation (`Queue.Paused`).  And whatever is runnable has a file and something left
to send (`Entry.Ready`), which every operation keeps.  The first entry that may be given the transfer
slot is therefore the first runnable one (`Snapshot.next?_eq_first?`), and the last report of its
engine leaves one runnable entry fewer (`Queue.runnables_of_last`).
-/

namespace ResumableUpload

/-- There is something left to send, and a runnable entry has its file. -/
structure Entry.Ready (entry : Entry) : Prop where
  below : entry.uploaded < entry.size
  held : entry.runnable = true → entry.file.isSome = true

theorem Entry.Ready.isEligible_eq
    {entry : Entry}
    (ready : entry.Ready) :
    entry.isEligible = entry.runnable := by
  unfold isEligible
  cases runnable : entry.runnable with
  | false => rfl
  | true => simp [ready.below, ready.held runnable]

/-- The first runnable entry. -/
def Snapshot.first? (snapshot : Snapshot) : Option Entry :=
  snapshot.entries.find? (·.runnable)

/-- If all entries are ready, the first runnable entry is the one that may be given the slot. -/
theorem Snapshot.next?_eq_first?
    {snapshot : Snapshot}
    (ready : ∀ entry ∈ snapshot.entries, entry.Ready) :
    snapshot.next?.map (·.1) = snapshot.first? := by
  unfold next? first?
  generalize snapshot.entries = entries at ready
  induction entries with
  | nil => rfl
  | cons head rest same =>
      have here := ready head List.mem_cons_self
      rw [List.findSome?_cons, List.find?_cons, here.isEligible_eq]
      cases runnable : head.runnable with
      | false => exact same fun entry member => ready entry (List.mem_cons_of_mem _ member)
      | true =>
          obtain ⟨file, held⟩ := Option.isSome_iff_exists.mp (here.held runnable)
          simp [held]

/-- An entry behind a runnable one is not the first runnable one, nor is any of its path. -/
theorem Snapshot.first?_ne
    {snapshot : Snapshot}
    {front back : List Entry}
    {entry : Entry}
    (tidy : Queue.Tidy ⟨snapshot.entries, snapshot.reportsSeen⟩)
    (entries : snapshot.entries = front ++ entry :: back)
    (runnable : ∃ earlier ∈ front, earlier.runnable = true) :
    snapshot.first?.map (·.path) ≠ some entry.path := by
  intro same
  obtain ⟨earlier, member, wanted⟩ := runnable
  have distinct := tidy.distinct
  simp only [entries, List.map_append, List.map_cons, List.nodup_append, List.nodup_cons] at distinct
  unfold first? at same
  cases found : front.find? (·.runnable) with
  | none => exact absurd wanted (List.find?_eq_none.mp found earlier member)
  | some first =>
      rw [entries, List.find?_append, found, Option.some_or, Option.map_some] at same
      have here := List.mem_map_of_mem (f := (·.path)) (List.mem_of_find?_eq_some found)
      exact distinct.2.2 _ here _ List.mem_cons_self (Option.some.inj same)

namespace Queue

variable {queue next : Queue} {path other : String} {file : FileHandle} {limit : Nat}
variable {report : Report} {infos : List PartialInfo}

/-! ## Only adding a file resumes -/

/-- The path is not queued, or its entry is paused. -/
def Paused (queue : Queue) (path : String) : Prop :=
  ∀ entry, queue.find? path = some entry → entry.runnable = false

theorem paused_of_none (missing : queue.find? path = none) : queue.Paused path := by
  intro entry found
  rw [missing] at found
  cases found

/-- No entry of a paused path is runnable. -/
theorem Paused.not_runnable
    {entry : Entry}
    (paused : queue.Paused path)
    (tidy : queue.Tidy)
    (member : entry ∈ queue.entries)
    (here : entry.path = path) :
    entry.runnable = false := by
  subst here
  exact paused entry (tidy.find?_of_mem member)

theorem Paused.snapshot
    (paused : queue.Paused path)
    (tidy : queue.Tidy) :
    queue.snapshot.wants path = false := by
  rw [Bool.eq_false_iff]
  intro wants
  obtain ⟨entry, member, chosen⟩ := List.any_eq_true.mp wants
  rw [Bool.and_eq_true, beq_iff_eq] at chosen
  obtain ⟨here, runnable⟩ := chosen
  rw [paused.not_runnable tidy member here] at runnable
  cases runnable

theorem Paused.add
    (paused : queue.Paused path)
    (added : queue.add limit file other = .ok next)
    (elsewhere : path ≠ other) :
    next.Paused path := by
  intro entry found
  rw [find?_add_of_ne added elsewhere] at found
  exact paused entry found

theorem Paused.stop
    (paused : queue.Paused path)
    (stopped : queue.stop? other = some next) :
    next.Paused path := by
  intro entry found
  rw [find?_stop stopped] at found
  split at found
  · obtain ⟨before, _, rfl⟩ := Option.map_eq_some_iff.mp found
    rfl
  · exact paused entry found

theorem paused_stop (stopped : queue.stop? path = some next) : next.Paused path := by
  intro entry found
  rw [find?_stop stopped, if_pos rfl] at found
  obtain ⟨before, _, rfl⟩ := Option.map_eq_some_iff.mp found
  rfl

theorem Paused.delete
    (paused : queue.Paused path)
    (tidy : queue.Tidy)
    (deleted : queue.delete? other = some next) :
    next.Paused path := by
  intro entry found
  rw [tidy.find?_delete deleted] at found
  split at found
  · cases found
  · exact paused entry found

theorem paused_delete
    (tidy : queue.Tidy)
    (deleted : queue.delete? path = some next) :
    next.Paused path := by
  apply paused_of_none
  rw [tidy.find?_delete deleted, if_pos rfl]

theorem Paused.restore (paused : queue.Paused path) : (queue.restore limit infos).1.Paused path := by
  intro entry found
  cases before : queue.find? path with
  | none => exact (find?_restore_of_none before found).2
  | some queued =>
      cases (find?_restore_of_some before).symm.trans found
      exact paused entry before

theorem Paused.reconcile
    (paused : queue.Paused path)
    (tidy : queue.Tidy)
    (report : Report) :
    (queue.reconcile report).Paused path := by
  intro entry found
  rw [tidy.find?_reconcile] at found
  split at found
  · obtain ⟨before, queued, kept⟩ := Option.bind_eq_some_iff.mp found
    split at kept
    · cases kept
    · cases kept
      simp only [Entry.apply, paused before queued, Bool.false_and]
  · exact paused entry found

/-- The last report about a transfer pauses its entry, or removes it. -/
theorem paused_reconcile
    (tidy : queue.Tidy)
    (about : report.path = path)
    (last : report.runnable = false) :
    (queue.reconcile report).Paused path := by
  intro entry found
  rw [tidy.find?_reconcile, if_pos about.symm] at found
  obtain ⟨before, _, kept⟩ := Option.bind_eq_some_iff.mp found
  split at kept
  · cases kept
  · cases kept
    simp only [Entry.apply, last, Bool.and_false]

/-! ## Runnable entries are eligible -/

/-- Every entry is ready. -/
def Ready (queue : Queue) : Prop :=
  ∀ entry ∈ queue.entries, entry.Ready

theorem Ready.modify
    {change : Entry → Entry}
    {seen : Nat}
    (ready : queue.Ready)
    (tidy : queue.Tidy)
    (kept :
      ∀ {entry : Entry}, queue.find? path = some entry → entry.Ready → (change entry).Ready) :
    Ready ⟨Queue.modify path change queue.entries, seen⟩ := by
  intro entry member
  rcases mem_modify member with earlier | ⟨before, found, rfl, rfl⟩
  · exact ready entry earlier
  · exact kept (tidy.find?_of_mem found) (ready before found)

theorem Ready.append
    {added : Entry}
    {seen : Nat}
    (ready : queue.Ready)
    (last : added.Ready) :
    Ready ⟨queue.entries ++ [added], seen⟩ := by
  intro entry member
  rcases List.mem_append.mp member with earlier | single
  · exact ready entry earlier
  · rw [List.mem_singleton.mp single]
    exact last

theorem Ready.add
    (ready : queue.Ready)
    (tidy : queue.Tidy)
    (added : queue.add limit file path = .ok next) :
    next.Ready := by
  obtain ⟨nonempty, ⟨_, _, _, rfl⟩ | ⟨_, rfl⟩⟩ := add_cases added
  · exact ready.modify tidy fun _ was => ⟨was.below, fun _ => rfl⟩
  · exact ready.append ⟨nonempty, fun _ => rfl⟩

theorem Ready.stop
    (ready : queue.Ready)
    (tidy : queue.Tidy)
    (stopped : queue.stop? path = some next) :
    next.Ready := by
  obtain ⟨_, rfl⟩ := stop?_eq_some stopped
  exact ready.modify tidy fun _ was => ⟨was.below, by rintro ⟨⟩⟩

theorem Ready.delete
    (ready : queue.Ready)
    (deleted : queue.delete? path = some next) :
    next.Ready := by
  rw [delete?_eq_some deleted]
  exact fun entry member => ready entry (List.mem_of_mem_eraseP member)

theorem ready_ofInfo
    {info : PartialInfo}
    (restorable : queue.isRestorable info = true) :
    (Entry.ofInfo info).Ready := by
  simp only [isRestorable, Bool.and_eq_true, bne_iff_ne, Bool.not_eq_true', PartialInfo.isComplete,
    decide_eq_false_iff_not, Nat.not_le] at restorable
  obtain ⟨⟨_, incomplete⟩, _⟩ := restorable
  constructor
  · simp only [Entry.ofInfo]
    omega
  · rintro ⟨⟩

theorem Ready.restore (ready : queue.Ready) : (queue.restore limit infos).1.Ready := by
  induction infos generalizing queue with
  | nil => exact ready
  | cons info rest kept =>
      unfold Queue.restore
      split
      case isTrue restorable =>
          split
          case isTrue => exact ready
          case isFalse => exact kept (ready.append (ready_ofInfo restorable))
      case isFalse => exact kept ready

theorem Ready.reconcile
    (ready : queue.Ready)
    (tidy : queue.Tidy)
    (report : Report) :
    (queue.reconcile report).Ready := by
  unfold Queue.reconcile
  split
  case h_1 => exact ready
  case h_2 entry found =>
      split
      case isTrue => exact fun entry member => ready entry (List.mem_of_mem_eraseP member)
      case isFalse lacking =>
          refine ready.modify tidy ?_
          intro other here was
          cases found.symm.trans here
          refine ⟨Nat.lt_of_not_le lacking, ?_⟩
          intro runnable
          simp only [Entry.apply, Bool.and_eq_true] at runnable
          exact was.held runnable.1

/-! ## How many are runnable -/

/-- The number of runnable entries. -/
def runnables (queue : Queue) : Nat :=
  queue.entries.countP (·.runnable)

theorem countP_modify
    {entry : Entry}
    {entries : List Entry}
    (change : Entry → Entry)
    (found : entries.find? (·.path == path) = some entry) :
    (modify path change entries).countP (·.runnable) + entry.runnable.toNat =
      entries.countP (·.runnable) + (change entry).runnable.toNat := by
  induction entries with
  | nil => cases found
  | cons head rest counted =>
      unfold modify
      rw [List.find?_cons] at found
      split at found
      case h_1 here =>
          cases found
          rw [if_pos here, List.countP_cons, List.countP_cons]
          cases entry.runnable <;> cases (change entry).runnable <;> simp
      case h_2 elsewhere =>
          have same := counted found
          rw [if_neg (Bool.eq_false_iff.mp elsewhere), List.countP_cons, List.countP_cons]
          omega

theorem countP_eraseP
    {entry : Entry}
    {entries : List Entry}
    (found : entries.find? (·.path == path) = some entry) :
    (entries.eraseP (·.path == path)).countP (·.runnable) + entry.runnable.toNat =
      entries.countP (·.runnable) := by
  induction entries with
  | nil => cases found
  | cons head rest counted =>
      rw [List.find?_cons] at found
      split at found
      case h_1 here =>
          cases found
          rw [List.eraseP_cons_of_pos (by exact here), List.countP_cons]
          cases entry.runnable <;> simp
      case h_2 elsewhere =>
          have same := counted found
          rw [List.eraseP_cons_of_neg (by exact Bool.eq_false_iff.mp elsewhere),
            List.countP_cons, List.countP_cons]
          omega

/-- A report that lets its entry run on changes no count. -/
theorem runnables_of_lasting
    {entry : Entry}
    (found : queue.find? report.path = some entry)
    (lacking : report.uploaded < entry.size)
    (lasting : report.runnable = true) :
    (queue.reconcile report).runnables = queue.runnables := by
  have counted := countP_modify (·.apply report) found
  have same : (entry.apply report).runnable = entry.runnable := by
    simp only [Entry.apply, lasting, Bool.and_true]
  simp only [reconcile, found, Nat.not_le_of_lt lacking, ↓reduceIte]
  rw [same] at counted
  exact Nat.add_right_cancel counted

theorem path_find?_modify
    {entries : List Entry}
    {change : Entry → Entry}
    (kept :
      ∀ entry : Entry, (change entry).path = entry.path ∧
        (change entry).runnable = entry.runnable) :
    ((modify path change entries).find? (·.runnable)).map (·.path) =
      (entries.find? (·.runnable)).map (·.path) := by
  induction entries with
  | nil => rfl
  | cons head rest same =>
      unfold modify
      split
      · rw [List.find?_cons, List.find?_cons, (kept head).2]
        cases head.runnable with
        | true => exact congrArg some (kept head).1
        | false => rfl
      · rw [List.find?_cons, List.find?_cons]
        cases head.runnable with
        | true => rfl
        | false => exact same

/-- A report that lets its entry run on does not change which path comes first. -/
theorem first?_of_lasting
    {entry : Entry}
    (found : queue.find? report.path = some entry)
    (lacking : report.uploaded < entry.size)
    (lasting : report.runnable = true) :
    (queue.reconcile report).snapshot.first?.map (·.path) =
      queue.snapshot.first?.map (·.path) := by
  simp only [reconcile, found, Nat.not_le_of_lt lacking, ↓reduceIte]
  refine path_find?_modify fun entry => ⟨rfl, ?_⟩
  simp only [Entry.apply, lasting, Bool.and_true]

/-- A report that pauses a runnable entry, or has it leave the queue, leaves one fewer. -/
theorem runnables_of_last
    {entry : Entry}
    (found : queue.find? report.path = some entry)
    (runnable : entry.runnable = true)
    (last : report.runnable = false) :
    (queue.reconcile report).runnables < queue.runnables := by
  unfold reconcile
  rw [found]
  dsimp only
  split
  case isTrue =>
      have counted := countP_eraseP found
      rw [runnable] at counted
      exact Nat.lt_of_succ_le (Nat.le_of_eq counted)
  case isFalse =>
      have counted := countP_modify (·.apply report) found
      have paused : (entry.apply report).runnable = false := by
        simp only [Entry.apply, last, Bool.and_false]
      rw [runnable, paused] at counted
      exact Nat.lt_of_succ_le (Nat.le_of_eq counted)

end Queue

end ResumableUpload
