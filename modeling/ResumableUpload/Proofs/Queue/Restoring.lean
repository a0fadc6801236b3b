import ResumableUpload.Proofs.Queue.Entries

/-!
# What is taken up from a listing

Taking up a listing goes through it with the queue in hand: an upload is passed over if its path is
queued by then, and the first one for which there is no room ends it.  What comes of that can be told
from the queue as it was: of the uploads that it could take up (`Queue.isRestorable`) the first of each
path (`firstOfEach`), as many as there is room for.
-/

namespace ResumableUpload

/-- The first upload of each path. -/
def firstOfEach : List PartialInfo → List PartialInfo
  | [] => []
  | info :: rest => info :: (firstOfEach rest).filter (·.path != info.path)

theorem firstOfEach_filter
    (keep : String → Bool)
    (infos : List PartialInfo) :
    firstOfEach (infos.filter (keep ·.path)) = (firstOfEach infos).filter (keep ·.path) := by
  induction infos with
  | nil => rfl
  | cons info rest same =>
      rw [firstOfEach, List.filter_cons, List.filter_cons, List.filter_comm, ← same]
      by_cases kept : keep info.path = true
      · rw [if_pos kept, if_pos kept, firstOfEach]
      · rw [if_neg kept, if_neg kept]
        -- The uploads that are left out with the first one are not kept either.
        rw [eq_comm, List.filter_eq_self]
        intro other member
        rw [same, List.mem_filter] at member
        refine bne_iff_ne.mpr ?_
        intro here
        rw [here] at member
        exact kept member.2

theorem map_path_firstOfEach
    (infos : List PartialInfo)
    (path : String) :
    path ∈ (firstOfEach infos).map (·.path) ↔ path ∈ infos.map (·.path) := by
  induction infos with
  | nil => rfl
  | cons info rest same =>
      rw [firstOfEach, List.map_cons, List.map_cons, List.mem_cons, List.mem_cons, ← same]
      simp only [List.mem_map, List.mem_filter, bne_iff_ne]
      grind

/-- They come in the order of the listing. -/
theorem firstOfEach_sublist
    (infos : List PartialInfo) :
    (firstOfEach infos).Sublist infos := by
  induction infos with
  | nil => exact .slnil
  | cons info rest earlier => exact (List.filter_sublist.trans earlier).cons_cons info

theorem firstOfEach_of_nodup
    {infos : List PartialInfo}
    (distinct : (infos.map (·.path)).Nodup) :
    firstOfEach infos = infos := by
  induction infos with
  | nil => rfl
  | cons info rest same =>
      rw [List.map_cons, List.nodup_cons] at distinct
      rw [firstOfEach, same distinct.2, List.filter_eq_self.mpr]
      intro other member
      refine bne_iff_ne.mpr ?_
      intro here
      exact distinct.1 (here ▸ List.mem_map_of_mem member)

namespace Queue

variable {queue : Queue} {limit : Nat} {infos : List PartialInfo} {info : PartialInfo}

theorem isRestorable_iff :
    queue.isRestorable info = true ↔
      queue.find? info.path = none ∧ 0 < info.size ∧ info.uploaded < info.size ∧
        RemotePath.fault? info.path = none := by
  simp only [isRestorable, PartialInfo.isComplete, Bool.and_eq_true, Option.isNone_iff_eq_none,
    bne_iff_ne, Bool.not_eq_true', decide_eq_false_iff_not, Nat.pos_iff_ne_zero, Nat.not_le,
    and_assoc]

/-- Once an upload is queued, no other one of its path is taken up. -/
theorem isRestorable_append
    (queue : Queue)
    (info other : PartialInfo) :
    isRestorable { queue with entries := queue.entries ++ [Entry.ofInfo info] } other =
      ((other.path != info.path) && queue.isRestorable other) := by
  have appended := find?_append queue.entries (Entry.ofInfo info) other.path
  have found :
      find? { queue with entries := queue.entries ++ [Entry.ofInfo info] } other.path =
        (queue.find? other.path).or
          (if info.path = other.path then some (Entry.ofInfo info) else none) :=
    appended
  simp only [isRestorable, found]
  by_cases here : info.path = other.path
  · simp [here]
  · simp [here, Ne.symm here]

/--
Taking up a listing appends a paused entry for the first upload of each path, out of those that the
queue could take up, in the order of the listing and as far as there is room.
-/
theorem restore_eq_append
    (limit : Nat)
    (queue : Queue)
    (infos : List PartialInfo) :
    queue.restore limit infos =
      let taken :=
        (firstOfEach (infos.filter queue.isRestorable)).take (limit - queue.entries.length)
      ({ queue with entries := queue.entries ++ taken.map Entry.ofInfo }, taken.length) := by
  induction infos generalizing queue with
  | nil => simp [restore, firstOfEach]
  | cons info rest later =>
      unfold restore
      by_cases restorable : queue.isRestorable info = true
      · rw [if_pos restorable, List.filter_cons_of_pos restorable, firstOfEach]
        by_cases full : limit ≤ queue.entries.length
        · rw [if_pos full, Nat.sub_eq_zero_of_le full]
          simp
        · have remaining :
              rest.filter
                  (isRestorable { queue with entries := queue.entries ++ [Entry.ofInfo info] }) =
                (rest.filter queue.isRestorable).filter (·.path != info.path) := by
            rw [List.filter_filter]
            exact List.filter_congr fun other _ => isRestorable_append queue info other
          have room :
              limit - queue.entries.length = limit - (queue.entries.length + 1) + 1 := by
            omega
          rw [if_neg full]
          dsimp only
          rw [later]
          dsimp only
          rw [remaining, firstOfEach_filter (· != info.path), List.length_append,
            List.length_singleton, room, List.take_succ_cons, List.map_cons, List.length_cons,
            List.append_assoc]
          rfl
      · rw [if_neg restorable, List.filter_cons_of_neg restorable, later]

/-- What could be taken up with more entries queued could be taken up with fewer. -/
theorem isRestorable_of_append
    {further : List Entry}
    (restorable :
      isRestorable { queue with entries := queue.entries ++ further } info = true) :
    queue.isRestorable info = true := by
  rw [isRestorable_iff] at restorable ⊢
  obtain ⟨missing, sendable⟩ := restorable
  rw [find?_eq_none_iff, List.map_append, List.mem_append, not_or] at missing
  exact ⟨find?_eq_none_iff.mpr missing.1, sendable⟩

/-- Once a listing was taken up nothing of it is left to take up, or the queue is full. -/
theorem restore_restore
    (limit : Nat)
    (queue : Queue)
    (infos : List PartialInfo) :
    (queue.restore limit infos).1.restore limit infos = ((queue.restore limit infos).1, 0) := by
  let remaining := firstOfEach (infos.filter queue.isRestorable)
  let taken := remaining.take (limit - queue.entries.length)
  let restored : Queue := { queue with entries := queue.entries ++ taken.map Entry.ofInfo }
  have once : (queue.restore limit infos).1 = restored :=
    congrArg Prod.fst (restore_eq_append limit queue infos)
  have nothing :
      (firstOfEach (infos.filter restored.isRestorable)).take
        (limit - restored.entries.length) = [] := by
    by_cases all : remaining.length ≤ limit - queue.entries.length
    · -- There was room for every upload that remained, so the path of each is queued by now.
      have whole : taken = remaining := List.take_of_length_le all
      have none : infos.filter restored.isRestorable = [] := by
        rw [List.filter_eq_nil_iff]
        intro info listed again
        have before := isRestorable_of_append again
        have first : info.path ∈ remaining.map (·.path) :=
          (map_path_firstOfEach _ _).mpr
            (List.mem_map_of_mem (List.mem_filter.mpr ⟨listed, before⟩))
        have missing := find?_eq_none_iff.mp (isRestorable_iff.mp again).1
        apply missing
        rw [List.map_append, List.map_map, List.mem_append, whole]
        exact .inr first
      rw [none, firstOfEach, List.take_nil]
    · have full : limit - restored.entries.length = 0 := by
        simp only [restored, taken, List.length_append, List.length_map, List.length_take]
        omega
      rw [full, List.take_zero]
  rw [once, restore_eq_append]
  dsimp only
  rw [nothing, List.map_nil, List.append_nil, List.length_nil]

/--
Taking up a listing leaves what is queued as it was.  It drops the uploads that are empty or whole,
those at an invalid path and those whose path is queued, keeps the first of each path, and appends as
many of them as there is room for, in the order of the listing, as paused entries without a file; it
tells how many these are.  The same listing taken up once more adds nothing.
-/
theorem restore_takes_first
    (limit : Nat)
    (queue : Queue)
    (infos : List PartialInfo) :
    let remaining :=
      firstOfEach <| infos.filter fun info =>
        info.path ∉ queue.entries.map (·.path) ∧ 0 < info.size ∧ info.uploaded < info.size ∧
          RemotePath.fault? info.path = none
    let taken := remaining.take (limit - queue.entries.length)
    queue.restore limit infos =
        ({ queue with
            entries :=
              queue.entries ++
                taken.map fun info => ⟨none, info.path, info.size, info.uploaded, false, ""⟩ },
          taken.length) ∧
      (queue.restore limit infos).1.restore limit infos =
        ((queue.restore limit infos).1, 0) := by
  intro remaining taken
  have same :
      infos.filter queue.isRestorable =
        infos.filter fun info =>
          info.path ∉ queue.entries.map (·.path) ∧ 0 < info.size ∧ info.uploaded < info.size ∧
            RemotePath.fault? info.path = none := by
    refine List.filter_congr fun info _ => ?_
    rw [Bool.eq_iff_iff, isRestorable_iff, decide_eq_true_iff, find?_eq_none_iff]
  have entry : ∀ info ∈ taken,
      Entry.ofInfo info = ⟨none, info.path, info.size, info.uploaded, false, ""⟩ := by
    intro info member
    have listed := (firstOfEach_sublist _).subset (List.mem_of_mem_take member)
    rw [List.mem_filter, decide_eq_true_iff] at listed
    obtain ⟨_, _, _, lacking, _⟩ := listed
    rw [Entry.ofInfo, Nat.min_eq_left (Nat.le_of_lt lacking)]
  refine ⟨?_, restore_restore limit queue infos⟩
  rw [restore_eq_append, same, ← List.map_congr_left entry]

end Queue

end ResumableUpload
