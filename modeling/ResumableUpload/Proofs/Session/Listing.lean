import ResumableUpload.Proofs.Endpoint.Store
import ResumableUpload.Proofs.Queue.Restoring
import ResumableUpload.Session

/-!
# What a session takes up from the listing of its endpoint

A session that has nothing queued takes up the uploads of the listing that can be resumed
(`Endpoint.resumable`), as many as its queue has room for (`Endpoint.takenUp`).  So what is listed is
not always taken up: an upload that is whole, empty or at an invalid path is not, and neither is one
that comes behind as many others as the queue may have entries.
-/

namespace ResumableUpload

namespace Endpoint

variable {endpoint : Endpoint} {limit : Nat} {path : String}

/-- What the endpoint lists. -/
def listing (endpoint : Endpoint) : List PartialInfo :=
  endpoint.pending.map PartialUpload.info

/-- The listed uploads that can be resumed: the first of each path. -/
def resumable (endpoint : Endpoint) : List PartialInfo :=
  firstOfEach (endpoint.listing.filter ({} : Queue).isRestorable)

/-- The listed uploads that a queue with room for so many takes up. -/
def takenUp (limit : Nat) (endpoint : Endpoint) : List PartialInfo :=
  endpoint.resumable.take limit

theorem restore_listing
    (endpoint : Endpoint)
    (limit : Nat) :
    Queue.restore limit {} endpoint.listing =
      ({ entries := (endpoint.takenUp limit).map Entry.ofInfo },
        (endpoint.takenUp limit).length) :=
  Queue.restore_eq_append limit {} endpoint.listing

theorem mem_path_resumable :
    path ∈ endpoint.resumable.map (·.path) ↔
      ∃ upload ∈ endpoint.pending,
        upload.path = path ∧ upload.data.length < upload.size ∧ RemotePath.fault? path = none := by
  rw [resumable, map_path_firstOfEach]
  simp only [List.mem_map, List.mem_filter, Queue.isRestorable_iff, listing]
  constructor
  · rintro ⟨_, ⟨⟨upload, stored, rfl⟩, _, _, lacking, valid⟩, rfl⟩
    exact ⟨upload, stored, rfl, lacking, valid⟩
  · rintro ⟨upload, stored, rfl, lacking, valid⟩
    exact ⟨upload.info, ⟨⟨upload, stored, rfl⟩, rfl, Nat.zero_lt_of_lt lacking, lacking, valid⟩, rfl⟩

theorem exists_of_takenUp (taken : path ∈ (endpoint.takenUp limit).map (·.path)) :
    ∃ upload ∈ endpoint.pending, upload.path = path := by
  rw [takenUp, List.map_take] at taken
  obtain ⟨upload, stored, here, _⟩ := mem_path_resumable.mp (List.mem_of_mem_take taken)
  exact ⟨upload, stored, here⟩

end Endpoint

namespace Session

variable {config : Config} {hosting : Hosting} {endpoint : Endpoint}

theorem restore_new
    (config : Config)
    (hosting : Hosting)
    (endpoint : Endpoint) :
    (Session.new config hosting endpoint).restore =
      ({ Session.new config hosting (endpoint.note .list) with
          queue := { entries := (endpoint.takenUp config.maxQueued).map Entry.ofInfo } },
        .ok (endpoint.takenUp config.maxQueued).length) := by
  have listed :
      (Session.new config hosting endpoint).callList =
        (Session.new config hosting (endpoint.note .list),
          .ok (Response.success ⟨endpoint.listing⟩)) :=
    rfl
  have queued :
      (Session.new config hosting (endpoint.note .list)).restoreFrom endpoint.listing =
        ({ Session.new config hosting (endpoint.note .list) with
            queue := { entries := (endpoint.takenUp config.maxQueued).map Entry.ofInfo } },
          (endpoint.takenUp config.maxQueued).length) := by
    simp only [restoreFrom, new, endpoint.restore_listing]
  simp only [restore, listed, Response.success, ↓reduceIte, Option.getD_some, queued]

end Session

end ResumableUpload
