import ResumableUpload.Proofs.Queue.Calls

/-!
# Paused until it is added again

A path is paused by its client, by being discarded, or by the last report about it.  From then on
progress may still be reported, by whatever transfer, and the path may be listed and taken up again:
none of that makes its entry runnable (`Paused.after`).  Only a file that is added under the path
does.
-/

namespace ResumableUpload.Queue

variable {queue : Queue} {path : String} {limit : Nat} {call : Call} {calls : List Call}

/-- Whether a call adds a file under a path and is not refused. -/
def Call.resumes (limit : Nat) (path : String) (queue : Queue) : Call → Bool
  | .add file added => added == path && (queue.add limit file added).isOk
  | _ => false

/-- Whether a call pauses or discards a path, or is the last report about it. -/
def Call.pauses (path : String) : Call → Bool
  | .stop paused => paused == path
  | .delete discarded => discarded == path
  | .reconcile report => report.path == path && !report.runnable
  | _ => false

/-- Whether one of these calls, made one after the other, resumes a path. -/
def resumed (limit : Nat) (path : String) : Queue → List Call → Bool
  | _, [] => false
  | queue, call :: rest =>
    call.resumes limit path queue || resumed limit path (queue.after limit call) rest

@[simp]
theorem entries_snapshot (queue : Queue) : queue.snapshot.entries = queue.entries := rfl

/-- A path that is paused stays so with every call that does not add a file under it. -/
theorem Paused.after
    (paused : queue.Paused path)
    (tidy : queue.Tidy)
    (unresumed : call.resumes limit path queue = false) :
    (queue.after limit call).Paused path := by
  cases call with
  | add file added =>
      simp only [Queue.after]
      split
      case h_1 next accepted =>
          refine paused.add accepted ?_
          rintro rfl
          simp [Call.resumes, accepted, Except.isOk, Except.toBool] at unresumed
      case h_2 => exact paused
  | stop other =>
      simp only [Queue.after]
      cases stopped : queue.stop? other with
      | none => exact paused
      | some next => exact paused.stop stopped
  | delete other =>
      simp only [Queue.after]
      cases deleted : queue.delete? other with
      | none => exact paused
      | some next => exact paused.delete tidy deleted
  | restore infos => exact paused.restore
  | reconcile report => exact paused.reconcile tidy report
  | tick => exact paused

/-- A path is paused once it was stopped or discarded, queued or not, or its last report applied. -/
theorem paused_of_pauses
    (tidy : queue.Tidy)
    (pauses : call.pauses path = true) :
    (queue.after limit call).Paused path := by
  cases call with
  | stop other =>
      obtain rfl := beq_iff_eq.mp pauses
      simp only [after]
      cases stopped : queue.stop? other with
      | none => exact paused_of_none (stop?_eq_none_iff.mp stopped)
      | some next => exact paused_stop stopped
  | delete other =>
      obtain rfl := beq_iff_eq.mp pauses
      simp only [after]
      cases deleted : queue.delete? other with
      | none => exact paused_of_none (delete?_eq_none_iff.mp deleted)
      | some next => exact paused_delete tidy deleted
  | reconcile report =>
      simp only [Call.pauses, Bool.and_eq_true, beq_iff_eq, Bool.not_eq_true'] at pauses
      exact paused_reconcile tidy pauses.1 pauses.2
  | add | restore | tick => cases pauses

/-- As long as no call resumes a path, it is paused in every state that is reached. -/
theorem Paused.scanl
    (paused : queue.Paused path)
    (sound : Sound limit queue)
    (unresumed : resumed limit path queue calls = false) :
    ∀ reached ∈ calls.scanl (Queue.after limit) queue, Sound limit reached ∧ reached.Paused path := by
  induction calls generalizing queue with
  | nil =>
      intro reached member
      rw [List.scanl_nil, List.mem_singleton] at member
      rw [member]
      exact ⟨sound, paused⟩
  | cons call rest later =>
      rw [resumed, Bool.or_eq_false_iff] at unresumed
      rw [List.scanl_cons, List.forall_mem_cons]
      have kept := paused.after sound.tidy unresumed.1
      exact ⟨⟨sound, paused⟩, later kept (sound.after call) unresumed.2⟩

/--
After any calls of a queue that was empty, once a path was paused or discarded, or a report of it said
that it is the last, and until a file is added under the path and not refused: whatever is called, no
entry of the path is runnable in any state that is reached, and none may be given the transfer slot in
a snapshot that is taken there.
-/
theorem paused_until_added
    {earlier later : List Call}
    (pauses : call.pauses path = true)
    (unresumed :
      resumed limit path ((earlier.foldl (after limit) {}).after limit call) later = false) :
    ∀ reached ∈ later.scanl (after limit) ((earlier.foldl (after limit) {}).after limit call),
      (∀ entry ∈ reached.entries, entry.path = path → entry.runnable = false) ∧
        ∀ entry ∈ reached.snapshot.entries, entry.path = path → entry.isEligible = false := by
  have sound := sound_of_calls limit earlier
  have paused : ((earlier.foldl (after limit) {}).after limit call).Paused path :=
    paused_of_pauses sound.tidy pauses
  intro reached member
  obtain ⟨here, still⟩ := paused.scanl (sound.after call) unresumed reached member
  have idle : ∀ entry ∈ reached.entries, entry.path = path → entry.runnable = false :=
    fun entry queued => still.not_runnable here.tidy queued
  refine ⟨idle, ?_⟩
  intro entry listed same
  rw [entries_snapshot] at listed
  rw [Entry.isEligible, idle entry listed same, Bool.false_and, Bool.false_and]

/--
While it is paused, a file that was sent in part has its transfer report late; then it is discarded and
taken up from a listing, another report comes, and a file of another size is refused under its path.
-/
def pausedAndListed : List Call :=
  [ .tick, .reconcile ⟨"a", 1, true, ""⟩, .delete "a", .add ⟨1, .ofBytes [4]⟩ "b",
    .restore [⟨"a", 3, 1⟩], .reconcile ⟨"a", 2, true, ""⟩, .add ⟨2, .ofBytes [5]⟩ "a", .tick ]

theorem listed_file_stays_paused :
    let earlier := [Call.add ⟨0, .ofBytes [1, 2, 3]⟩ "a"]
    let start := (earlier.foldl (after 10) {}).after 10 (.stop "a")
    let final := pausedAndListed.foldl (after 10) start
    resumed 10 "a" start pausedAndListed = false ∧
      ∃ entry ∈ final.entries, entry.path = "a" ∧ entry.uploaded = 2 ∧
        entry.runnable = false ∧ entry.isEligible = false := by
  intro earlier start final
  have stops : (Call.stop "a").pauses "a" = true := by decide
  have unresumed : resumed 10 "a" start pausedAndListed = false := by decide
  have reached : final ∈ pausedAndListed.scanl (after 10) start := by
    have nonempty : pausedAndListed.scanl (after 10) start ≠ [] := List.scanl_ne_nil
    have last := List.getLast_mem nonempty
    rw [List.getLast_scanl] at last
    exact last
  obtain ⟨idle, unlisted⟩ :=
    @paused_until_added "a" 10 (.stop "a") earlier pausedAndListed stops unresumed final reached
  have queued : ∃ entry ∈ final.entries, entry.path = "a" ∧ entry.uploaded = 2 := by decide
  obtain ⟨entry, member, here, sent⟩ := queued
  have listed : entry ∈ final.snapshot.entries := by
    rw [entries_snapshot]
    exact member
  exact ⟨unresumed, entry, member, here, sent, idle entry member here, unlisted entry listed here⟩

end ResumableUpload.Queue
