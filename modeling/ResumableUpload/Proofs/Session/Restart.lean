import ResumableUpload.Proofs.Session.Filled
import ResumableUpload.Proofs.Session.Listing
import ResumableUpload.Proofs.Session.Ticks
import Mathlib.Data.List.Perm.Subperm

/-!
# What is sent after a restart

A client that starts again asks the endpoint what it still holds, adds its files, and transfers one
after another.  What the endpoint holds of a file is confirmed in the entry that is taken up from the
listing, and adding the file keeps that, so its engine begins where the stored bytes end.  Each file
then arrives, and of each only the bytes leave that the endpoint lacked
(`Session.restart_sends_what_is_missing`).
-/

namespace ResumableUpload

/-- A file that is to be brought to a path. -/
structure Job where
  path : String
  file : FileHandle
  bytes : Bytes
  valid : RemotePath.fault? path = none
  nonempty : bytes ≠ []
  holds : file.Holds bytes

namespace Job

variable {jobs : List Job} {job : Job} {path : String} {bytes : Bytes}

/-- What the files bring to a path. -/
def brought? (jobs : List Job) (path : String) : Option Bytes :=
  (jobs.find? (·.path == path)).map (·.bytes)

theorem brought?_cons (job : Job) (jobs : List Job) :
    brought? (job :: jobs) = fun path =>
      (if job.path = path then some job.bytes else none).or (brought? jobs path) := by
  funext path
  by_cases here : job.path = path <;> simp [brought?, here]

theorem exists_of_brought? (brought : brought? jobs path = some bytes) :
    ∃ job ∈ jobs, job.path = path ∧ job.bytes = bytes := by
  obtain ⟨job, found, same⟩ := Option.map_eq_some_iff.mp brought
  have here := List.find?_some found
  exact ⟨job, List.mem_of_find?_eq_some found, beq_iff_eq.mp here, same⟩

theorem brought?_of_mem
    (distinct : (jobs.map (·.path)).Nodup)
    (member : job ∈ jobs) :
    brought? jobs job.path = some job.bytes := by
  have found : (jobs.find? (·.path == job.path)).isSome :=
    List.find?_isSome.mpr ⟨job, member, beq_self_eq_true _⟩
  obtain ⟨other, found⟩ := Option.isSome_iff_exists.mp found
  have here := List.find?_some found
  have same : other = job :=
    List.inj_on_of_nodup_map distinct (List.mem_of_find?_eq_some found) member
      (beq_iff_eq.mp here)
  rw [brought?, found, same, Option.map_some]

theorem brought?_reverse
    (distinct : (jobs.map (·.path)).Nodup)
    (member : job ∈ jobs) :
    brought? jobs.reverse job.path = some job.bytes := by
  apply brought?_of_mem
  · rw [List.map_reverse]
    exact List.nodup_reverse.mpr distinct
  · exact List.mem_reverse.mpr member

end Job

/-! ## What the endpoint has begun with -/

/-- The endpoint holds proper prefixes of some of the files, and no other partial upload. -/
structure Endpoint.Begun (jobs : List Job) (endpoint : Endpoint) : Prop where
  distinct : (endpoint.pending.map (·.path)).Nodup
  proper :
    ∀ upload ∈ endpoint.pending, ∃ job ∈ jobs,
      job.path = upload.path ∧ upload.size = job.bytes.length ∧ upload.data <+: job.bytes ∧
        upload.data.length < job.bytes.length

namespace Endpoint.Begun

variable {jobs : List Job} {endpoint : Endpoint} {job : Job}

theorem partway
    (begun : endpoint.Begun jobs)
    (distinct : (jobs.map (·.path)).Nodup)
    (member : job ∈ jobs) :
    endpoint.Partway job.path job.bytes := by
  intro upload found
  obtain ⟨stored, here⟩ := List.mem_filter.mp found
  obtain ⟨other, listed, same, proper⟩ := begun.proper upload stored
  obtain rfl : other = job :=
    List.inj_on_of_nodup_map distinct listed member (same.trans (beq_iff_eq.mp here))
  exact proper

/-- There are no more partial uploads than files. -/
theorem length_le (begun : endpoint.Begun jobs) : endpoint.pending.length ≤ jobs.length := by
  have among : endpoint.pending.map (·.path) ⊆ jobs.map (·.path) := by
    intro path listed
    obtain ⟨upload, stored, rfl⟩ := List.mem_map.mp listed
    obtain ⟨job, member, same, _⟩ := begun.proper upload stored
    exact same ▸ List.mem_map_of_mem member
  simpa using (List.subperm_of_subset begun.distinct among).length_le

end Endpoint.Begun

/-! ## Taking up what the endpoint holds -/

/-- The queue that is taken up from what the endpoint lists. -/
def Endpoint.resumed (endpoint : Endpoint) : Queue where
  entries := endpoint.pending.map fun upload => .ofInfo upload.info

theorem Endpoint.find?_resumed
    (endpoint : Endpoint)
    (path : String) :
    endpoint.resumed.find? path =
      (endpoint.partial? path).map fun upload => .ofInfo upload.info := by
  rw [Queue.find?, resumed, List.find?_map]
  rfl

namespace Endpoint.Begun

variable {jobs : List Job} {endpoint : Endpoint} {config : Config} {limit : Nat}

/-- With room for all files, all that the endpoint lists is taken up. -/
theorem takenUp_eq
    (begun : endpoint.Begun jobs)
    (room : jobs.length ≤ limit) :
    endpoint.takenUp limit = endpoint.listing := by
  have restorable : endpoint.listing.filter ({} : Queue).isRestorable = endpoint.listing := by
    refine List.filter_eq_self.mpr fun info listed => Queue.isRestorable_iff.mpr ?_
    obtain ⟨upload, stored, rfl⟩ := List.mem_map.mp listed
    obtain ⟨job, _, same, size, _, below⟩ := begun.proper upload stored
    rw [← size] at below
    exact ⟨rfl, Nat.zero_lt_of_lt below, below,
      (congrArg RemotePath.fault? same).symm.trans job.valid⟩
  have distinct : (endpoint.listing.map (·.path)).Nodup := by
    rw [listing, List.map_map]
    exact begun.distinct
  rw [takenUp, resumable, restorable, firstOfEach_of_nodup distinct, List.take_of_length_le]
  rw [listing, List.length_map]
  exact Nat.le_trans begun.length_le room

theorem restore_session_eq
    (begun : endpoint.Begun jobs)
    (room : jobs.length ≤ config.maxQueued) :
    (Session.new config .inline endpoint).restore =
      ({ Session.new config .inline (endpoint.note .list) with queue := endpoint.resumed },
        .ok endpoint.pending.length) := by
  rw [Session.restore_new, begun.takenUp_eq room, listing, List.map_map, List.length_map]
  rfl

/-- What the endpoint stores of a path is confirmed in the entry that is taken up. -/
theorem confirmed_resumed
    (begun : endpoint.Begun jobs)
    (path : String) :
    endpoint.resumed.confirmed path = endpoint.stored path := by
  rw [Queue.confirmed, find?_resumed, Option.map_map]
  cases found : endpoint.partial? path with
  | none => rw [stored_of_missing found, Option.map_none, Option.getD_none]
  | some upload =>
      obtain ⟨_, _, _, size, _, below⟩ := begun.proper upload (List.mem_of_find?_eq_some found)
      rw [stored_of_pending (pendingLength?_of_partial? found), Option.map_some, Option.getD_some]
      rw [← size] at below
      exact Nat.min_eq_left (Nat.le_of_lt below)

end Endpoint.Begun

/-! ## Adding the files -/

namespace Queue

variable {jobs added : List Job} {job : Job} {endpoint : Endpoint} {queue : Queue} {limit : Nat}

/-- The queue has entries for files only, and confirms of them what the endpoint holds. -/
structure Gathered (jobs added : List Job) (endpoint : Endpoint) (queue : Queue) : Prop where
  filled : queue.Filled (Job.brought? added)
  known :
    ∀ entry ∈ queue.entries, ∃ job ∈ jobs,
      job.path = entry.path ∧ job.bytes.length = entry.size
  level : ∀ path, queue.confirmed path = endpoint.stored path

/-- Before a file is added, the queue is what was taken up. -/
theorem gathered_resumed (begun : endpoint.Begun jobs) :
    Gathered jobs [] endpoint endpoint.resumed := by
  refine ⟨?_, ?_, begun.confirmed_resumed⟩
  · have filled := filled_restore jobs.length endpoint.listing
    rw [endpoint.restore_listing, begun.takenUp_eq (Nat.le_refl _), Endpoint.listing,
      List.map_map] at filled
    exact filled
  · intro entry queued
    obtain ⟨upload, stored, rfl⟩ := List.mem_map.mp queued
    obtain ⟨job, member, same, size, _⟩ := begun.proper upload stored
    exact ⟨job, member, same, size.symm⟩

namespace Gathered

theorem map_path_subset (gathered : Gathered jobs added endpoint queue) :
    queue.entries.map (·.path) ⊆ jobs.map (·.path) := by
  intro path listed
  obtain ⟨entry, queued, rfl⟩ := List.mem_map.mp listed
  obtain ⟨job, known, same, _⟩ := gathered.known entry queued
  exact same ▸ List.mem_map_of_mem known

/-- As long as a file has no entry, there are fewer entries than files. -/
theorem length_lt
    (gathered : Gathered jobs added endpoint queue)
    (member : job ∈ jobs)
    (missing : queue.find? job.path = none) :
    queue.entries.length < jobs.length := by
  have distinct : (job.path :: queue.entries.map (·.path)).Nodup :=
    List.nodup_cons.mpr ⟨find?_eq_none_iff.mp missing, gathered.filled.tidy.distinct⟩
  have among : job.path :: queue.entries.map (·.path) ⊆ jobs.map (·.path) :=
    List.cons_subset.mpr ⟨List.mem_map_of_mem member, gathered.map_path_subset⟩
  have fewer := (List.subperm_of_subset distinct among).length_le
  rw [List.length_cons, List.length_map, List.length_map] at fewer
  exact fewer

/-- A file is added, and goes on where the endpoint's bytes of it end. -/
theorem add
    (gathered : Gathered jobs added endpoint queue)
    (distinct : (jobs.map (·.path)).Nodup)
    (room : jobs.length ≤ limit)
    (member : job ∈ jobs) :
    ∃ next,
      queue.add limit job.file job.path = .ok next ∧
        Gathered jobs (job :: added) endpoint next := by
  have nonempty : 0 < job.file.size := by
    rw [job.holds.size]
    exact List.length_pos_iff.mpr job.nonempty
  -- An entry that is queued under the path is that of this file, as no other file goes there.
  have fits :
      ∀ {entry : Entry}, queue.find? job.path = some entry → entry.size = job.file.size := by
    intro entry found
    obtain ⟨other, listed, same, size⟩ := gathered.known entry (mem_of_find? found)
    rw [List.inj_on_of_nodup_map distinct listed member (same.trans (path_of_find? found))] at size
    exact size.symm.trans job.holds.size.symm
  obtain ⟨next, accepted⟩ := exists_add job.valid nonempty fits fun missing =>
    Nat.lt_of_lt_of_le (gathered.length_lt member missing) room
  refine ⟨next, accepted, ?_, ?_, ?_⟩
  · rw [Job.brought?_cons]
    exact gathered.filled.add job.holds accepted
  · intro entry queued
    have found := (gathered.filled.tidy.add accepted).find?_of_mem queued
    by_cases here : entry.path = job.path
    · obtain ⟨_, known, _, size, _⟩ := find?_add accepted
      rw [here, known] at found
      cases found
      exact ⟨job, member, here.symm, job.holds.size.symm.trans size.symm⟩
    · rw [find?_add_of_ne accepted here] at found
      exact gathered.known entry (mem_of_find? found)
  · intro path
    rw [confirmed_add accepted, gathered.level]

theorem exists_entry
    (gathered : Gathered jobs jobs.reverse endpoint queue)
    (distinct : (jobs.map (·.path)).Nodup)
    (member : job ∈ jobs) :
    ∃ entry ∈ queue.entries, entry.path = job.path ∧ entry.runnable = true := by
  obtain ⟨entry, found, runnable⟩ := gathered.filled.queued (Job.brought?_reverse distinct member)
  exact ⟨entry, mem_of_find? found, path_of_find? found, runnable⟩

/-- Once every file is added, there are as many entries as files. -/
theorem length_eq
    (gathered : Gathered jobs jobs.reverse endpoint queue)
    (distinct : (jobs.map (·.path)).Nodup) :
    queue.entries.length = jobs.length := by
  have all : jobs.map (·.path) ⊆ queue.entries.map (·.path) := by
    intro path listed
    obtain ⟨job, member, rfl⟩ := List.mem_map.mp listed
    obtain ⟨entry, queued, same, _⟩ := gathered.exists_entry distinct member
    exact same ▸ List.mem_map_of_mem queued
  have most :=
    (List.subperm_of_subset gathered.filled.tidy.distinct gathered.map_path_subset).length_le
  have least := (List.subperm_of_subset distinct all).length_le
  rw [List.length_map, List.length_map] at most least
  exact Nat.le_antisymm most least

/-- Once every file is added, every entry may run from where the endpoint's bytes of it end. -/
theorem lined
    {config : Config}
    (gathered : Gathered jobs jobs.reverse endpoint queue)
    (checked : config.check = .ok ())
    (unscripted : endpoint.Unscripted)
    (begun : endpoint.Begun jobs)
    (distinct : (jobs.map (·.path)).Nodup) :
    Session.Lined (Job.brought? jobs.reverse)
      { Session.new config .inline endpoint with queue := queue } where
  loaded := by
    refine Session.loaded_of_filled [] checked unscripted.onlyFails gathered.filled ?_
    intro path bytes brought
    obtain ⟨job, member, rfl, rfl⟩ := Job.exists_of_brought? brought
    exact begun.partway distinct (List.mem_reverse.mp member)
  unscripted := unscripted
  runnable entry queued := by
    obtain ⟨job, member, here, _⟩ := gathered.known entry queued
    obtain ⟨other, listed, same, runnable⟩ := gathered.exists_entry distinct member
    have tidy := gathered.filled.tidy
    have found := tidy.find?_of_mem listed
    rw [same, here, tidy.find?_of_mem queued] at found
    cases found
    exact runnable
  level entry queued := by
    have confirmed := gathered.level entry.path
    rw [Queue.confirmed, gathered.filled.tidy.find?_of_mem queued] at confirmed
    exact confirmed

end Gathered

end Queue

namespace Session

variable {jobs added rest : List Job} {endpoint : Endpoint} {session : Session}

/-- Adds files one after another, until one of them is refused. -/
def addAll (session : Session) : List Job → Session × Except UploadError Unit
  | [] => (session, .ok ())
  | job :: rest =>
    match session.add job.file job.path with
    | (session, .ok ()) => session.addAll rest
    | (session, .error refusal) => (session, .error refusal)

/-- All files are added, and those that had no entry are put at the end, in the order of adding. -/
theorem addAll_gathered
    (gathered : Queue.Gathered jobs added endpoint session.queue)
    (distinct : (jobs.map (·.path)).Nodup)
    (room : jobs.length ≤ session.config.maxQueued)
    (among : rest ⊆ jobs)
    (once : (rest.map (·.path)).Nodup) :
    ∃ queue,
      session.addAll rest = ({ session with queue := queue }, .ok ()) ∧
        Queue.Gathered jobs (rest.reverse ++ added) endpoint queue ∧
        queue.entries.map (·.path) =
          session.queue.entries.map (·.path) ++
            (rest.map (·.path)).filter fun path => (session.queue.find? path).isNone := by
  induction rest generalizing session added with
  | nil => exact ⟨session.queue, rfl, gathered, (List.append_nil _).symm⟩
  | cons job rest later =>
      obtain ⟨member, among⟩ := List.cons_subset.mp among
      rw [List.map_cons, List.nodup_cons] at once
      obtain ⟨next, accepted, kept⟩ := gathered.add distinct room member
      obtain ⟨queue, adds, all, order⟩ :=
        @later _ { session with queue := next } kept room among once.2
      refine ⟨queue, ?_, ?_, ?_⟩
      · simp only [addAll, add, accepted, adds]
      · rwa [List.reverse_cons, List.append_assoc, List.singleton_append]
      · have same :
            (rest.map (·.path)).filter (fun path => (next.find? path).isNone) =
              (rest.map (·.path)).filter fun path => (session.queue.find? path).isNone := by
          refine List.filter_congr fun path listed => ?_
          rw [Queue.find?_add_of_ne accepted]
          rintro rfl
          exact once.1 listed
        rw [order, same, Queue.map_path_add accepted, List.append_assoc, List.map_cons,
          List.filter_cons]
        cases session.queue.find? job.path <;> rfl

/-! ## The whole restart -/

/-- In as many ticks as there are files, all of them are transferred, in the order of the queue. -/
theorem transfers_of_gathered
    {config : Config}
    {queue : Queue}
    (gathered : Queue.Gathered jobs jobs.reverse endpoint queue)
    (checked : config.check = .ok ())
    (unscripted : endpoint.Unscripted)
    (begun : endpoint.Begun jobs)
    (distinct : (jobs.map (·.path)).Nodup) :
    let queued := { Session.new config .inline endpoint with queue := queue }
    let order := queue.entries.map (·.path)
    let sent := queued.sentInTicks jobs.length
    let final := tick^[jobs.length] queued
    (∀ ticks ≤ jobs.length,
        (tick^[ticks] queued).queue.entries.map (·.path) = order.drop ticks) ∧
      final.queue.entries = [] ∧
      sent = order.flatMap (fun path => sent.filter (·.path == path)) ∧
      final.endpoint.chunkOffsets = endpoint.chunkOffsets ++ sent.map SentChunk.place ∧
      ∀ job ∈ jobs,
        final.endpoint.completed? job.path = some job.bytes ∧
          Tiles job.path job.bytes (endpoint.stored job.path)
            (sent.filter (·.path == job.path)) := by
  intro queued order sent final
  have lined : Lined _ queued := gathered.lined checked unscripted begun distinct
  have length : queued.queue.entries.length = jobs.length := gathered.length_eq distinct
  obtain ⟨seen, sorted, pieces⟩ := lined.sentInTicks rfl
  rw [length] at seen sorted pieces
  obtain ⟨emptied, left⟩ := lined.iterate (Nat.le_of_eq length.symm)
  rw [List.drop_eq_nil_of_le (Nat.le_of_eq length)] at left
  refine ⟨?_, left, ?_, seen, ?_⟩
  · intro ticks enough
    rw [(lined.iterate (length ▸ enough)).2, List.map_drop]
  · rw [List.flatMap_map]
    exact sorted
  · intro job member
    have brought := Job.brought?_reverse distinct member
    obtain ⟨entry, listed, same, _⟩ := gathered.exists_entry distinct member
    obtain ⟨bytes, wanted, tiles⟩ := pieces entry listed
    rw [same] at wanted tiles
    cases brought.symm.trans wanted
    exact ⟨emptied.completed left brought, tiles⟩

/--
A client that starts again with files for distinct paths, of some of which the endpoint holds a proper
prefix and of no other, takes up what the endpoint holds, and is given the files in any order.  In as
many ticks as there are files all of them are transferred, one after another in the order of the queue:
those that were taken up as they are listed, and then the others as they were added.  Each arrives, and
its chunks are the rest of the file from where the endpoint's bytes of it ended: no byte is sent twice,
and none that the endpoint had.
-/
theorem restart_sends_what_is_missing
    {config : Config}
    {endpoint : Endpoint}
    {jobs : List Job}
    (checked : config.check = .ok ())
    (room : jobs.length ≤ config.maxQueued)
    (distinct : (jobs.map (·.path)).Nodup)
    (unscripted : endpoint.Unscripted)
    (begun : endpoint.Begun jobs) :
    let restored := (Session.new config .inline endpoint).restore
    let queued := restored.1.addAll jobs
    let order :=
      endpoint.pending.map (·.path) ++
        (jobs.map (·.path)).filter fun path => (endpoint.partial? path).isNone
    let sent := queued.1.sentInTicks jobs.length
    let final := tick^[jobs.length] queued.1
    restored.2 = .ok endpoint.pending.length ∧ queued.2 = .ok () ∧
      (∀ ticks ≤ jobs.length,
        (tick^[ticks] queued.1).queue.entries.map (·.path) = order.drop ticks) ∧
      final.queue.entries = [] ∧
      sent = order.flatMap (fun path => sent.filter (·.path == path)) ∧
      final.endpoint.chunkOffsets = endpoint.chunkOffsets ++ sent.map SentChunk.place ∧
      ∀ job ∈ jobs,
        let chunks := sent.filter (·.path == job.path)
        final.endpoint.completed? job.path = some job.bytes ∧
          Tiles job.path job.bytes (endpoint.stored job.path) chunks ∧
          SentChunk.joined? chunks = some (job.bytes.drop (endpoint.stored job.path)) := by
  -- Being asked for its list leaves a note at the endpoint, and changes nothing that it holds.
  have listed : (endpoint.note .list).Begun jobs := ⟨begun.distinct, begun.proper⟩
  have still : (endpoint.note .list).Unscripted :=
    ⟨unscripted.create, unscripted.chunk, unscripted.status⟩
  have unseen : (endpoint.note .list).chunkOffsets = endpoint.chunkOffsets := by
    simp [Endpoint.chunkOffsets, Endpoint.note]
  obtain ⟨queue, adds, gathered, placed⟩ :=
    @addAll_gathered jobs [] jobs (endpoint.note .list)
      { Session.new config .inline (endpoint.note .list) with queue := endpoint.resumed }
      (Queue.gathered_resumed listed) distinct room (List.Subset.refl jobs) distinct
  rw [List.append_nil] at gathered
  obtain ⟨served, empty, sorted, seen, arrived⟩ :=
    transfers_of_gathered gathered checked still listed distinct
  have order :
      queue.entries.map (·.path) =
        endpoint.pending.map (·.path) ++
          (jobs.map (·.path)).filter fun path => (endpoint.partial? path).isNone := by
    simp only [Endpoint.find?_resumed, Option.isNone_map] at placed
    rw [placed, Endpoint.resumed, List.map_map]
    rfl
  intro restored queued
  have resumed : restored = _ := begun.restore_session_eq room
  have added :
      queued = ({ Session.new config .inline (endpoint.note .list) with queue := queue }, .ok ()) := by
    simp only [queued, resumed, adds]
  rw [added]
  rw [order] at served sorted
  rw [unseen] at seen
  refine ⟨?_, rfl, served, empty, sorted, seen, ?_⟩
  · rw [resumed]
  · intro job member chunks
    obtain ⟨completed, tiles⟩ := arrived job member
    exact ⟨completed, tiles, tiles.joined?_eq⟩

/-- Of three files the endpoint has begun with two; the first one is sent from its second byte on. -/
theorem restart_of_three_files :
    let first : Job :=
      ⟨"a", ⟨0, .ofBytes [1, 2, 3]⟩, [1, 2, 3], rfl, by decide, FileHandle.holds_ofBytes 0 _⟩
    let jobs : List Job :=
      [first, ⟨"b", ⟨1, .ofBytes [4, 5]⟩, [4, 5], rfl, by decide, FileHandle.holds_ofBytes 1 _⟩,
        ⟨"c", ⟨2, .ofBytes [6, 7]⟩, [6, 7], rfl, by decide, FileHandle.holds_ofBytes 2 _⟩]
    let config : Config := { chunkLength := 1 }
    let endpoint : Endpoint := { pending := [⟨"c", 2, [6]⟩, ⟨"a", 3, [1]⟩] }
    let queued := (Session.new config .inline endpoint).restore.1.addAll jobs
    let chunks := (queued.1.sentInTicks 3).filter (·.path == "a")
    config.check = .ok () ∧ jobs.length ≤ config.maxQueued ∧ (jobs.map (·.path)).Nodup ∧
      endpoint.Unscripted ∧ endpoint.Begun jobs ∧
      queued.1.queue.entries.map (·.path) = ["c", "a", "b"] ∧
      (tick^[3] queued.1).endpoint.completed? "a" = some [1, 2, 3] ∧
      SentChunk.joined? chunks = some [2, 3] := by
  intro first jobs config endpoint queued chunks
  have checked : config.check = .ok () := by decide
  have unscripted : endpoint.Unscripted := ⟨rfl, rfl, rfl⟩
  have begun : endpoint.Begun jobs := ⟨by decide, by decide⟩
  obtain ⟨_, _, order, _, _, _, arrived⟩ :=
    restart_sends_what_is_missing checked (by decide) (by decide) unscripted begun
  obtain ⟨completed, _, joined⟩ := arrived first List.mem_cons_self
  exact ⟨checked, by decide, by decide, unscripted, begun, order 0 (Nat.zero_le _), completed, joined⟩

end Session

end ResumableUpload
