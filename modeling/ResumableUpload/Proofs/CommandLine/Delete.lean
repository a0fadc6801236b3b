import ResumableUpload.CommandLine.Commands
import ResumableUpload.Proofs.Pace
import ResumableUpload.Proofs.Session.Listing

/-!
# What a delete command discards

The command takes up the listing of the endpoint first, and then discards the upload by way of its
queue.  So it can only discard what its queue has taken up (`Endpoint.takenUp`): an upload that is
listed behind as many others as the queue may have entries is not found.
-/

namespace ResumableUpload

namespace Endpoint

variable {endpoint : Endpoint} {path : String}

/-- An upload that the endpoint holds is discarded, with all others of its path. -/
theorem delete_eq_of_mem
    {upload : PartialUpload}
    (stored : upload ∈ endpoint.pending)
    (here : upload.path = path) :
    endpoint.delete path =
      ({ endpoint.note (.delete path) with
          pending := endpoint.pending.filter (·.path != path) },
        .ok (Response.success ())) := by
  have fewer :
      (endpoint.pending.filter (·.path != path)).length ≠ endpoint.pending.length := by
    intro same
    have kept := List.length_filter_eq_length_iff.mp same upload stored
    exact bne_iff_ne.mp kept here
  exact if_neg fewer

end Endpoint

namespace CommandLine

variable {config : Config} {hosting : Hosting} {endpoint : Endpoint} {path : String}

/-- An upload that was taken up is found in the queue, and no other one. -/
theorem isSome_find?_takenUp
    (infos : List PartialInfo)
    (path : String) :
    (Queue.find? { entries := infos.map Entry.ofInfo } path).isSome ↔
      path ∈ infos.map (·.path) := by
  rw [Queue.find?, List.find?_isSome]
  simp only [List.mem_map, beq_iff_eq, exists_exists_and_eq_and]
  rfl

/-- A session discards what is queued, and the endpoint what it holds of that. -/
theorem delete_session_eq_ok
    {session : Session}
    {upload : PartialUpload}
    (unscripted : session.deleteScript = [])
    (online : session.cutOff = none)
    (queued : (session.queue.find? path).isSome)
    (stored : upload ∈ session.endpoint.pending)
    (here : upload.path = path) :
    ∃ final,
      session.delete path = (final, .ok ()) ∧
        final.endpoint.pending = session.endpoint.pending.filter (·.path != path) ∧
        final.endpoint.completed = session.endpoint.completed := by
  obtain ⟨entry, found⟩ := Option.isSome_iff_exists.mp queued
  have discarded := Endpoint.delete_eq_of_mem stored here
  simp only [Session.delete, Session.discard, Queue.delete?, found, Session.callDelete, unscripted,
    Session.call, online, discarded, Response.success, ↓reduceIte]
  exact ⟨_, rfl, rfl, rfl⟩

theorem delete_session_eq_error
    {session : Session}
    (missing : session.queue.find? path = none) :
    session.delete path = (session, .error (.notFound path)) := by
  simp only [Session.delete, Session.discard, Queue.delete?, missing]

/--
The command discards the uploads of a path if the queue has taken up one of them, and leaves all others
alone; otherwise it fails, and nothing is discarded.
-/
theorem delete_discards_taken_up
    (hosting : Hosting)
    (endpoint : Endpoint)
    (path : String)
    (checked : config.check = .ok ()) :
    (path ∈ (endpoint.takenUp config.maxQueued).map (·.path) →
      ∃ final,
        delete (Session.new config hosting endpoint) path =
            (final, .ok ("deleted " ++ path ++ "\n")) ∧
          final.endpoint.pending = endpoint.pending.filter (·.path != path) ∧
          final.endpoint.completed = endpoint.completed) ∧
    (path ∉ (endpoint.takenUp config.maxQueued).map (·.path) →
      ∃ final,
        delete (Session.new config hosting endpoint) path =
            (final, .error ⟨"deleting " ++ path, ["upload not found: " ++ path]⟩) ∧
          final.endpoint.pending = endpoint.pending ∧
          final.endpoint.completed = endpoint.completed) := by
  have valid : checkConfig (Session.new config hosting endpoint).config = .ok () := by
    simp only [checkConfig, Session.new, checked]
  have restored := Session.restore_new config hosting endpoint
  have found := isSome_find?_takenUp (endpoint.takenUp config.maxQueued) path
  generalize queueing :
    ({ entries := (endpoint.takenUp config.maxQueued).map Entry.ofInfo } : Queue) = queue
      at restored found
  constructor
  · intro taken
    obtain ⟨upload, stored, here⟩ := Endpoint.exists_of_takenUp taken
    obtain ⟨final, deleted, kept⟩ :=
      @delete_session_eq_ok path
        { Session.new config hosting (endpoint.note .list) with queue := queue }
        upload rfl rfl (found.mpr taken) stored here
    refine ⟨final, ?_, kept⟩
    simp only [delete, valid, restored, deleted]
  · intro missing
    have absent : queue.find? path = none :=
      Option.not_isSome_iff_eq_none.mp fun queued => missing (found.mp queued)
    have refused :=
      @delete_session_eq_error path
        { Session.new config hosting (endpoint.note .list) with queue := queue } absent
    refine ⟨{ Session.new config hosting (endpoint.note .list) with queue := queue }, ?_, rfl, rfl⟩
    simp only [delete, valid, restored, refused]
    rfl

/-- Of three uploads at two paths those of the second path are discarded. -/
theorem second_path_is_discarded :
    let config : Config := { maxQueued := 2 }
    let endpoint : Endpoint := { pending := [⟨"a", 2, [1]⟩, ⟨"", 2, []⟩, ⟨"b", 3, [1, 2]⟩] }
    ∃ final,
      config.check = .ok () ∧ "b" ∈ (endpoint.takenUp config.maxQueued).map (·.path) ∧
        delete (Session.new config .background endpoint) "b" = (final, .ok "deleted b\n") ∧
        final.endpoint.pending = [⟨"a", 2, [1]⟩, ⟨"", 2, []⟩] := by
  intro config endpoint
  have checked : config.check = .ok () := Config.check_eq_ok_iff.mpr (by decide)
  have taken : "b" ∈ (endpoint.takenUp config.maxQueued).map (·.path) := by decide
  obtain ⟨final, deleted, pending, _⟩ :=
    (delete_discards_taken_up .background endpoint "b" checked).1 taken
  exact ⟨final, checked, taken, deleted, pending⟩

/-- The endpoint lists two uploads, but the queue has room for one: the other one is not found. -/
theorem listed_upload_is_not_found :
    let config : Config := { maxQueued := 1 }
    let endpoint : Endpoint := { pending := [⟨"a", 2, [1]⟩, ⟨"b", 2, [1]⟩] }
    ∃ final,
      config.check = .ok () ∧ endpoint.Unscripted ∧
        (list (Session.new config .background endpoint)).2 =
          .ok "a\t1/2 bytes\nb\t1/2 bytes\n" ∧
        delete (Session.new config .background endpoint) "b" =
          (final, .error ⟨"deleting b", ["upload not found: b"]⟩) ∧
        final.endpoint.pending = endpoint.pending := by
  intro config endpoint
  have checked : config.check = .ok () := Config.check_eq_ok_iff.mpr (by decide)
  refine ⟨_, checked, ⟨rfl, rfl, rfl⟩, by decide, Prod.ext rfl (by decide), ?_⟩
  decide

end CommandLine

end ResumableUpload
