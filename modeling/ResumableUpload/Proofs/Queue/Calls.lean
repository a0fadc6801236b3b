import ResumableUpload.Proofs.Queue.Runnable
import ResumableUpload.Proofs.RemotePath

/-!
# What the queue always keeps

A `Queue.Call` is one use of a queue by its client, by a listing or by a transfer, with whatever
arguments; a call that is refused leaves the queue as it is.  `Queue.Sound` is what holds after any
number of calls: the parts are kept one by one by every change of the entries, be it in place, at the
end or by removal, and all calls are made of these.
-/

namespace ResumableUpload

namespace Queue

variable {queue next : Queue} {path : String} {file : FileHandle} {limit : Nat}

/-- A use of a queue. -/
inductive Call where
  | add (file : FileHandle) (path : String)
  | stop (path : String)
  | delete (path : String)
  | restore (infos : List PartialInfo)
  | reconcile (report : Report)
  /-- A snapshot is taken. -/
  | tick

/-- The queue after a call; one that is refused leaves it as it was. -/
def after (limit : Nat) (queue : Queue) : Call → Queue
  | .add file path =>
    match queue.add limit file path with
    | .ok next => next
    | .error _ => queue
  | .stop path => (queue.stop? path).getD queue
  | .delete path => (queue.delete? path).getD queue
  | .restore infos => (queue.restore limit infos).1
  | .reconcile report => queue.reconcile report
  | .tick => queue

/-! ## Which entries are queued, and how many -/

/-- Every entry is queued under a path that is accepted, and there are no more than the limit. -/
structure Admitted (limit : Nat) (queue : Queue) : Prop where
  accepted : ∀ entry ∈ queue.entries, RemotePath.check entry.path = .ok ()
  bounded : queue.entries.length ≤ limit

/-- A file is only added under a path that is accepted, and a new entry only where there is room. -/
theorem admitted_of_add (added : queue.add limit file path = .ok next) :
    RemotePath.fault? path = none ∧
      (queue.find? path = none → queue.entries.length < limit) := by
  unfold add at added
  split at added
  case h_1 => cases added
  case h_2 accepted =>
      refine ⟨accepted, ?_⟩
      intro missing
      split at added
      case isTrue => cases added
      case isFalse =>
          rw [missing] at added
          by_cases full : limit ≤ queue.entries.length
          · rw [if_pos full] at added
            cases added
          · exact Nat.lt_of_not_le full

/--
What it takes to add a file: its path is accepted, it is not empty, and it has the size of the entry
that is queued under the path, or there is room for a new entry.
-/
structure Accepts (limit : Nat) (queue : Queue) (file : FileHandle) (path : String) : Prop where
  valid : RemotePath.fault? path = none
  nonempty : 0 < file.size
  fits : ∀ entry, queue.find? path = some entry → entry.size = file.size
  room : queue.find? path = none → queue.entries.length < limit

theorem exists_add_iff :
    (∃ next, queue.add limit file path = .ok next) ↔ Accepts limit queue file path := by
  constructor
  · rintro ⟨next, added⟩
    obtain ⟨valid, room⟩ := admitted_of_add added
    obtain ⟨nonempty, ⟨entry, found, size, _⟩ | ⟨missing, _⟩⟩ := add_cases added
    · refine ⟨valid, nonempty, ?_, room⟩
      intro other here
      cases found.symm.trans here
      exact size
    · refine ⟨valid, nonempty, ?_, room⟩
      intro other here
      cases missing.symm.trans here
  · rintro ⟨valid, nonempty, fits, room⟩
    exact exists_add valid nonempty (fits _) room

namespace Admitted

theorem modify
    {change : Entry → Entry}
    {seen : Nat}
    (admitted : Admitted limit queue)
    (kept : ∀ entry : Entry, (change entry).path = entry.path) :
    Admitted limit ⟨Queue.modify path change queue.entries, seen⟩ where
  accepted entry member := by
    rcases mem_modify member with earlier | ⟨before, found, _, rfl⟩
    · exact admitted.accepted entry earlier
    · rw [kept]
      exact admitted.accepted before found
  bounded := by
    have same :
        ((Queue.modify path change queue.entries).map (·.path)).length =
          (queue.entries.map (·.path)).length :=
      congrArg List.length (map_path_modify kept queue.entries)
    simp only [List.length_map] at same
    exact same ▸ admitted.bounded

theorem erase
    (admitted : Admitted limit queue)
    (path : String) :
    Admitted limit (queue.erase path) where
  accepted entry member := admitted.accepted entry (List.mem_of_mem_eraseP member)
  bounded := Nat.le_trans List.length_eraseP_le admitted.bounded

theorem append
    {added : Entry}
    (admitted : Admitted limit queue)
    (accepted : RemotePath.fault? added.path = none)
    (room : queue.entries.length < limit) :
    Admitted limit { queue with entries := queue.entries ++ [added] } where
  accepted entry member := by
    rcases List.mem_append.mp member with earlier | last
    · exact admitted.accepted entry earlier
    · rw [List.mem_singleton.mp last]
      exact RemotePath.check_eq_ok.mpr accepted
  bounded := by
    rw [List.length_append, List.length_singleton]
    exact room

theorem add
    (admitted : Admitted limit queue)
    (added : queue.add limit file path = .ok next) :
    Admitted limit next := by
  obtain ⟨accepted, room⟩ := admitted_of_add added
  obtain ⟨_, ⟨_, _, _, rfl⟩ | ⟨missing, rfl⟩⟩ := add_cases added
  · exact admitted.modify fun _ => rfl
  · exact admitted.append accepted (room missing)

theorem restore
    {infos : List PartialInfo}
    (admitted : Admitted limit queue) :
    Admitted limit (queue.restore limit infos).1 := by
  induction infos generalizing queue with
  | nil => exact admitted
  | cons info rest kept =>
      unfold Queue.restore
      split
      case isTrue restorable =>
          split
          case isTrue => exact admitted
          case isFalse room =>
              simp only [isRestorable, Bool.and_eq_true, Option.isNone_iff_eq_none] at restorable
              exact kept (admitted.append restorable.2 (Nat.lt_of_not_le room))
      case isFalse => exact kept admitted

theorem reconcile
    (admitted : Admitted limit queue)
    (report : Report) :
    Admitted limit (queue.reconcile report) := by
  have counted : Admitted limit { queue with reportsSeen := queue.reportsSeen + 1 } :=
    ⟨admitted.accepted, admitted.bounded⟩
  unfold Queue.reconcile
  split
  case h_1 => exact counted
  case h_2 =>
      split
      case isTrue => exact counted.erase report.path
      case isFalse => exact admitted.modify fun _ => rfl

end Admitted

/-! ## All of it -/

/--
Paths are accepted and queued once, there are no more entries than the limit, every entry has bytes
left to send, its file has its size, and an entry without a file is not runnable.
-/
structure Sound (limit : Nat) (queue : Queue) : Prop where
  tidy : queue.Tidy
  ready : queue.Ready
  admitted : Admitted limit queue

theorem sound_empty (limit : Nat) : Sound limit {} where
  tidy := ⟨List.nodup_nil, by rintro _ _ ⟨⟩⟩
  ready := by rintro _ ⟨⟩
  admitted := ⟨by rintro _ ⟨⟩, Nat.zero_le limit⟩

/-- Every call keeps the queue sound. -/
theorem Sound.after
    (sound : Sound limit queue)
    (call : Call) :
    Sound limit (queue.after limit call) := by
  obtain ⟨tidy, ready, admitted⟩ := sound
  cases call with
  | add file path =>
      simp only [Queue.after]
      split
      case h_1 next added =>
          exact ⟨tidy.add added, ready.add tidy added, admitted.add added⟩
      case h_2 => exact ⟨tidy, ready, admitted⟩
  | stop path =>
      simp only [Queue.after]
      cases stopped : queue.stop? path with
      | none => exact ⟨tidy, ready, admitted⟩
      | some next =>
          refine ⟨tidy.stop stopped, ready.stop tidy stopped, ?_⟩
          obtain ⟨_, rfl⟩ := stop?_eq_some stopped
          exact admitted.modify fun _ => rfl
  | delete path =>
      simp only [Queue.after]
      cases deleted : queue.delete? path with
      | none => exact ⟨tidy, ready, admitted⟩
      | some next =>
          refine ⟨tidy.delete deleted, ready.delete deleted, ?_⟩
          rw [delete?_eq_some deleted]
          exact admitted.erase path
  | restore infos => exact ⟨tidy.restore, ready.restore, admitted.restore⟩
  | reconcile report =>
      exact ⟨tidy.reconcile report, ready.reconcile tidy report, admitted.reconcile report⟩
  | tick => exact ⟨tidy, ready, admitted⟩

theorem sound_of_calls
    (limit : Nat)
    (calls : List Call) :
    Sound limit (calls.foldl (after limit) {}) := by
  suffices kept : ∀ queue, Sound limit queue → Sound limit (calls.foldl (after limit) queue) from
    kept {} (sound_empty limit)
  induction calls with
  | nil => exact fun _ sound => sound
  | cons call rest later => exact fun queue sound => later _ (sound.after call)

/--
After any calls of a queue that was empty, whatever their arguments, each path is queued once and is
one that is accepted, every entry has been sent in part only, the limit is not passed, the file of an
entry has the size of the entry, and an entry without a file is not runnable.  So the entries that may
be given the transfer slot are the runnable ones.
-/
theorem entries_after_calls
    (limit : Nat)
    (calls : List Call) :
    let queue := calls.foldl (after limit) {}
    (queue.entries.map (·.path)).Nodup ∧
      queue.entries.length ≤ limit ∧
      ∀ entry ∈ queue.entries,
        RemotePath.check entry.path = .ok () ∧
          entry.uploaded < entry.size ∧
          (∀ file, entry.file = some file → file.size = entry.size) ∧
          (entry.file = none → entry.runnable = false) ∧
          entry.isEligible = entry.runnable := by
  intro queue
  obtain ⟨tidy, ready, admitted⟩ := sound_of_calls limit calls
  refine ⟨tidy.distinct, admitted.bounded, ?_⟩
  intro entry member
  have here := ready entry member
  refine ⟨admitted.accepted entry member, here.below, ?_, ?_, here.isEligible_eq⟩
  · intro file held
    exact tidy.fits member held
  · intro missing
    rw [Bool.eq_false_iff]
    intro runnable
    have held := here.held runnable
    rw [missing] at held
    cases held

end Queue

end ResumableUpload
