import ResumableUpload.Proofs.CommandLine.Destination
import ResumableUpload.Proofs.CommandLine.Upload
import ResumableUpload.Proofs.Session.Listing
import ResumableUpload.Proofs.Session.Primed

/-!
# When an upload command succeeds

The uploads of others that the command takes up from the listing stay in its queue, where they wait for
files that nobody adds.  They take up room: the files of the command are all queued only if there is
room for them behind what was taken up.  Then they all arrive; otherwise the command fails before it
has sent anything.
-/

namespace ResumableUpload

namespace CommandLine

variable {place : Place} {directory path file : String} {bytes : Bytes} {files rest : List String}
variable {config : Config} {endpoint : Endpoint} {session : Session} {handle : FileHandle}

/-- What is asked of the files of an upload: names of their own, and something to read. -/
structure Sendable (place : Place) (directory : String) (endpoint : Endpoint)
    (files : List String) : Prop where
  some_ : files ≠ []
  /-- No segment of the directory leads up. -/
  rooted : ['.', '.'] ∉ Text.segments directory.toList
  clean : '\x00' ∉ directory.toList
  printable : ∀ file ∈ files, '\x00' ∉ file.toList
  named : ∀ file ∈ files, (LocalPath.fileName? file).isSome
  distinct : (files.map LocalPath.fileName?).Nodup
  readable : ∀ file ∈ files, ∃ bytes, place.content file = .ok bytes ∧ bytes ≠ []
  /-- Nothing is begun where the files go. -/
  fresh :
    ∀ file ∈ files, ∀ {path : String}, remotePathOf directory file = .ok path →
      endpoint.partial? path = none

/-! ## Queueing files -/

/-- A file of which the content can be told can be opened. -/
theorem Place.openFile_of_content
    (contains : place.content file = .ok bytes)
    (identity : Nat) :
    ∃ handle, place.openFile identity file = .ok handle ∧ handle.Holds bytes := by
  have opens : ∃ handle, place.openFile identity file = .ok handle := by
    unfold Place.openFile
    rw [LocalFile.openPath_eq_ok_iff.mpr ⟨bytes, contains, rfl⟩]
    exact ⟨_, rfl⟩
  obtain ⟨handle, opened⟩ := opens
  obtain ⟨content, same, holds⟩ := Place.holds_of_openFile opened
  cases contains.symm.trans same
  exact ⟨handle, opened, holds⟩

/-- A file that can be queued where it goes. -/
structure Queueable (place : Place) (directory file path : String) (bytes : Bytes) : Prop where
  goes : remotePathOf directory file = .ok path
  valid : RemotePath.fault? path = none
  contains : place.content file = .ok bytes
  nonempty : bytes ≠ []

theorem Queueable.exists_handle
    (queueable : Queueable place directory file path bytes)
    (identity : Nat) :
    ∃ handle, place.openFile identity file = .ok handle ∧ handle.size ≠ 0 := by
  obtain ⟨handle, opened, holds⟩ := Place.openFile_of_content queueable.contains identity
  refine ⟨handle, opened, ?_⟩
  rw [holds.size]
  exact fun empty => queueable.nonempty (List.eq_nil_of_length_eq_zero empty)

theorem Sendable.queueable
    (sendable : Sendable place directory endpoint files)
    (member : file ∈ files) :
    ∃ path bytes, Queueable place directory file path bytes := by
  obtain ⟨name, named⟩ := Option.isSome_iff_exists.mp (sendable.named file member)
  obtain ⟨bytes, contains, nonempty⟩ := sendable.readable file member
  refine ⟨remotePath directory name, bytes, ?_, ?_, contains, nonempty⟩
  · simp only [remotePathOf, named]
  · refine (fault?_remotePath_eq_none_iff named).mpr ⟨sendable.rooted, sendable.clean, ?_⟩
    have among := (LocalPath.name_of_fileName? named).among
    exact fun nul => sendable.printable file member (among _ nul)

theorem fileName?_of_remotePathOf (goes : remotePathOf directory file = .ok path) :
    ∃ name, LocalPath.fileName? file = some name ∧ remotePath directory name = path := by
  unfold remotePathOf at goes
  split at goes
  case h_1 name named =>
      cases goes
      exact ⟨name, named, rfl⟩
  case h_2 => cases goes

/-- Files with different names go to different paths. -/
theorem fileName?_eq_of_path
    {other : String}
    (goes : remotePathOf directory file = .ok path)
    (same : remotePathOf directory other = .ok path) :
    LocalPath.fileName? file = LocalPath.fileName? other := by
  obtain ⟨name, named, here⟩ := fileName?_of_remotePathOf goes
  obtain ⟨second, known, there⟩ := fileName?_of_remotePathOf same
  rw [named, known, remotePath_inj (here.trans there.symm)]

/-- A session with further entries at the end of its queue. -/
def queueing (session : Session) (added : List Entry) : Session :=
  { session with queue := { session.queue with entries := session.queue.entries ++ added } }

theorem queueing_nil (session : Session) : queueing session [] = session := by
  rw [queueing, List.append_nil]

theorem queueing_queueing
    (session : Session)
    (added further : List Entry) :
    queueing (queueing session added) further = queueing session (added ++ further) := by
  simp only [queueing, List.append_assoc]

/-- The text with which a file is refused for which the queue has no room. -/
def noRoom (limit : Nat) (file : String) : Failure :=
  ⟨"queueing " ++ file,
    ["invalid upload: upload queue is full (" ++ toString limit ++ " entries)"]⟩

/-- A file is refused if there is no room for it. -/
theorem queueFiles_of_full
    (queueable : Queueable place directory file path bytes)
    (missing : session.queue.find? path = none)
    (full : session.queue.entries.length = session.config.maxQueued) :
    queueFiles place directory session (file :: rest) =
      (session, .error (noRoom session.config.maxQueued file)) := by
  obtain ⟨handle, opened, nonempty⟩ := queueable.exists_handle rest.length
  rw [queueFiles]
  simp only [queueable.goes, opened, Session.add, Queue.add, queueable.valid, nonempty, missing,
    full, Nat.le_refl, ↓reduceIte]
  rfl

/-- With room for it, a file whose path is not queued is queued last. -/
theorem queueFiles_of_room
    (queueable : Queueable place directory file path bytes)
    (missing : session.queue.find? path = none)
    (room : session.queue.entries.length < session.config.maxQueued) :
    ∃ handle, ∀ {final : Session} {result : Except Failure (List String)},
      queueFiles place directory (queueing session [Entry.ofFile handle path]) rest =
          (final, result) →
        queueFiles place directory session (file :: rest) = (final, result.map (path :: ·)) := by
  obtain ⟨handle, opened, nonempty⟩ := queueable.exists_handle rest.length
  refine ⟨handle, ?_⟩
  intro final result later
  unfold queueing at later
  rw [queueFiles]
  simp only [queueable.goes, opened, Session.add, Queue.add, queueable.valid, nonempty, missing,
    Nat.not_le_of_lt room, ↓reduceIte, later]
  cases result <;> rfl

/-- The files whose paths are not queued, after one of them was. -/
theorem missing_of_queued
    (goes : remotePathOf directory file = .ok path)
    (distinct : ((file :: rest).map LocalPath.fileName?).Nodup)
    (missing :
      ∀ other ∈ rest, ∀ {path : String}, remotePathOf directory other = .ok path →
        session.queue.find? path = none)
    (handle : FileHandle) :
    ∀ other ∈ rest, ∀ {later : String}, remotePathOf directory other = .ok later →
      (queueing session [Entry.ofFile handle path]).queue.find? later = none := by
  intro other member later there
  rw [List.map_cons, List.nodup_cons] at distinct
  have differs : (Entry.ofFile handle path).path ≠ later := by
    rintro rfl
    exact distinct.1 (fileName?_eq_of_path goes there ▸ List.mem_map_of_mem member)
  have appended := Queue.find?_append session.queue.entries (Entry.ofFile handle path) later
  rw [if_neg differs, Option.or_none] at appended
  exact appended.trans (missing other member there)

/-- With room for all of them, all files are queued behind what is queued already. -/
theorem queueFiles_of_fits
    (queueable : ∀ file ∈ files, ∃ path bytes, Queueable place directory file path bytes)
    (distinct : (files.map LocalPath.fileName?).Nodup)
    (missing :
      ∀ file ∈ files, ∀ {path : String}, remotePathOf directory file = .ok path →
        session.queue.find? path = none)
    (fits : session.queue.entries.length + files.length ≤ session.config.maxQueued) :
    ∃ added paths,
      queueFiles place directory session files = (queueing session added, .ok paths) ∧
        ∀ entry ∈ added, entry.uploaded = 0 ∧ entry.message = "" ∧
          ∃ file ∈ files, remotePathOf directory file = .ok entry.path := by
  induction files generalizing session with
  | nil =>
      refine ⟨[], [], ?_, nofun⟩
      rw [queueing_nil]
      rfl
  | cons file rest later =>
      obtain ⟨path, bytes, here⟩ := queueable file List.mem_cons_self
      rw [List.length_cons] at fits
      obtain ⟨handle, queues⟩ :=
        queueFiles_of_room here (missing file List.mem_cons_self here.goes) (by omega)
      obtain ⟨added, paths, queued, fresh⟩ :=
        @later (queueing session [Entry.ofFile handle path])
          (fun other member => queueable other (List.mem_cons_of_mem _ member))
          (List.nodup_cons.mp distinct).2
          (missing_of_queued here.goes distinct
            (fun other member => missing other (List.mem_cons_of_mem _ member)) handle)
          (by simp only [queueing, List.length_append, List.length_singleton]; omega)
      refine ⟨Entry.ofFile handle path :: added, path :: paths, ?_, ?_⟩
      · rw [queues queued, queueing_queueing]
        rfl
      · refine List.forall_mem_cons.mpr ⟨⟨rfl, rfl, file, List.mem_cons_self, here.goes⟩, ?_⟩
        intro entry member
        obtain ⟨unsent, quiet, other, listed, goes⟩ := fresh entry member
        exact ⟨unsent, quiet, other, List.mem_cons_of_mem _ listed, goes⟩

/-- With less room one of the files is refused. -/
theorem queueFiles_of_excess
    (queueable : ∀ file ∈ files, ∃ path bytes, Queueable place directory file path bytes)
    (distinct : (files.map LocalPath.fileName?).Nodup)
    (missing :
      ∀ file ∈ files, ∀ {path : String}, remotePathOf directory file = .ok path →
        session.queue.find? path = none)
    (held : session.queue.entries.length ≤ session.config.maxQueued)
    (excess : session.config.maxQueued < session.queue.entries.length + files.length) :
    ∃ queue, ∃ file ∈ files,
      queueFiles place directory session files =
        ({ session with queue := queue }, .error (noRoom session.config.maxQueued file)) := by
  induction files generalizing session with
  | nil => exact absurd excess (Nat.not_lt_of_le held)
  | cons file rest later =>
      obtain ⟨path, bytes, here⟩ := queueable file List.mem_cons_self
      have absent := missing file List.mem_cons_self here.goes
      rw [List.length_cons] at excess
      by_cases full : session.queue.entries.length = session.config.maxQueued
      · exact ⟨session.queue, file, List.mem_cons_self, queueFiles_of_full here absent full⟩
      · obtain ⟨handle, queues⟩ := @queueFiles_of_room _ _ _ _ _ rest _ here absent (by omega)
        obtain ⟨queue, refused, listed, failed⟩ :=
          @later (queueing session [Entry.ofFile handle path])
            (fun other member => queueable other (List.mem_cons_of_mem _ member))
            (List.nodup_cons.mp distinct).2
            (missing_of_queued here.goes distinct
              (fun other member => missing other (List.mem_cons_of_mem _ member)) handle)
            (by simp only [queueing, List.length_append, List.length_singleton]; omega)
            (by simp only [queueing, List.length_append, List.length_singleton]; omega)
        exact ⟨queue, refused, List.mem_cons_of_mem _ listed, queues failed⟩

/-! ## The whole command -/

/-- The session in which the files of a command are queued. -/
def restored (config : Config) (endpoint : Endpoint) : Session :=
  { Session.new config .inline (endpoint.note .list) with
    queue := { entries := (endpoint.takenUp config.maxQueued).map Entry.ofInfo } }

theorem prepare_new (checked : config.check = .ok ()) :
    prepare place (Session.new config .inline endpoint) files directory =
      queueFiles place directory (restored config endpoint) files := by
  have valid : checkConfig (Session.new config .inline endpoint).config = .ok () := by
    simp only [checkConfig, Session.new, checked]
  rw [prepare, valid, Session.restore_new]
  rfl

/-- Where nothing is begun, nothing is taken up either. -/
theorem missing_restored
    (fresh : endpoint.partial? path = none) :
    (restored config endpoint).queue.find? path = none := by
  rw [Queue.find?_eq_none_iff]
  intro listed
  rw [restored, List.map_map] at listed
  obtain ⟨upload, stored, here⟩ := Endpoint.exists_of_takenUp listed
  exact List.find?_eq_none.mp fresh upload stored (beq_iff_eq.mpr here)

theorem Sendable.missing_restored
    (sendable : Sendable place directory endpoint files)
    (file : String)
    (member : file ∈ files)
    {path : String}
    (goes : remotePathOf directory file = .ok path) :
    (restored config endpoint).queue.find? path = none :=
  CommandLine.missing_restored (sendable.fresh file member goes)

/-- The files of a command bring their contents to their paths. -/
theorem Sendable.wanted
    (sendable : Sendable place directory endpoint files)
    (member : file ∈ files)
    (goes : remotePathOf directory file = .ok path)
    (contains : place.content file = .ok bytes) :
    place.wanted directory files path = some bytes := by
  obtain ⟨before, after, rfl⟩ := List.append_of_mem member
  refine Place.wanted_of_alike goes contains ?_
  intro later follows same
  have distinct := sendable.distinct
  rw [List.map_append, List.map_cons] at distinct
  have apart := (List.nodup_cons.mp (List.nodup_append.mp distinct).2.1).1
  exact absurd (fileName?_eq_of_path goes same ▸ List.mem_map_of_mem follows) apart

/-- The endpoint holds nothing but a proper prefix of a file, since it holds nothing of it. -/
theorem Sendable.partway
    (sendable : Sendable place directory endpoint files)
    (file : String)
    (member : file ∈ files)
    {path : String}
    {bytes : Bytes}
    (goes : remotePathOf directory file = .ok path)
    (_ : place.content file = .ok bytes) :
    endpoint.Partway path bytes := by
  have fresh := sendable.fresh file member goes
  rw [Endpoint.partial?_eq_head?, List.head?_eq_none_iff] at fresh
  intro upload begun
  exact absurd begun (List.eq_nil_iff_forall_not_mem.mp fresh upload)

/-- Once all its files are queued, the session of a command is ready to bring them to their paths. -/
theorem Sendable.primed
    {added : List Entry}
    {paths : List String}
    (sendable : Sendable place directory endpoint files)
    (unscripted : endpoint.Unscripted)
    (prepared :
      prepare place (Session.new config .inline endpoint) files directory =
        (queueing (restored config endpoint) added, .ok paths))
    (unsent :
      ∀ entry ∈ added, entry.uploaded = 0 ∧ entry.message = "" ∧
        ∃ file ∈ files, remotePathOf directory file = .ok entry.path) :
    Session.Primed (place.wanted directory files)
      (queueing (restored config endpoint) added) := by
  have still : (endpoint.note .list).Unscripted :=
    ⟨unscripted.create, unscripted.chunk, unscripted.status⟩
  obtain ⟨loaded, _⟩ := loaded_of_prepare unscripted.onlyFails sendable.partway prepared
  refine ⟨loaded, still, ?_, ?_⟩
  · intro entry member runnable
    rcases List.mem_append.mp member with taken | fresh
    · obtain ⟨info, _, rfl⟩ := List.mem_map.mp taken
      cases runnable
    · obtain ⟨nothing, _, file, listed, goes⟩ := unsent entry fresh
      have missing : (endpoint.note .list).partial? entry.path = none :=
        sendable.fresh file listed goes
      exact nothing.trans (Endpoint.stored_of_missing missing).symm
  · intro entry member
    rcases List.mem_append.mp member with taken | fresh
    · obtain ⟨info, _, rfl⟩ := List.mem_map.mp taken
      rfl
    · exact (unsent entry fresh).2.1

/-- What the queue of a command has room for, it is made ready to bring to its paths. -/
theorem Sendable.prepared_of_room
    (checked : config.check = .ok ())
    (unscripted : endpoint.Unscripted)
    (sendable : Sendable place directory endpoint files)
    (room : (endpoint.takenUp config.maxQueued).length + files.length ≤ config.maxQueued) :
    ∃ ready paths,
      prepare place (Session.new config .inline endpoint) files directory = (ready, .ok paths) ∧
        Session.Primed (place.wanted directory files) ready := by
  have held : (restored config endpoint).queue.entries.length =
      (endpoint.takenUp config.maxQueued).length :=
    List.length_map _
  obtain ⟨added, paths, queued, unsent⟩ :=
    queueFiles_of_fits (fun file => sendable.queueable) sendable.distinct
      sendable.missing_restored (held.symm ▸ room)
  rw [← prepare_new checked] at queued
  exact ⟨_, paths, queued, sendable.primed unscripted queued unsent⟩

/-- If there is no room for all of them, a file is refused before anything was sent. -/
theorem Sendable.prepared_of_excess
    (checked : config.check = .ok ())
    (sendable : Sendable place directory endpoint files)
    (excess : config.maxQueued < (endpoint.takenUp config.maxQueued).length + files.length) :
    ∃ queue, ∃ file ∈ files,
      prepare place (Session.new config .inline endpoint) files directory =
        ({ restored config endpoint with queue := queue },
          .error (noRoom config.maxQueued file)) := by
  have held : (restored config endpoint).queue.entries.length =
      (endpoint.takenUp config.maxQueued).length :=
    List.length_map _
  have fewer : (endpoint.takenUp config.maxQueued).length ≤ config.maxQueued :=
    List.length_take_le _ _
  obtain ⟨queue, file, listed, refused⟩ :=
    queueFiles_of_excess (fun file => sendable.queueable) sendable.distinct
      sendable.missing_restored (held.symm ▸ fewer) (held.symm ▸ excess)
  refine ⟨queue, file, listed, ?_⟩
  rw [prepare_new checked, refused]
  rfl

/--
If there is room in the queue for the files of a command behind the uploads of others that it takes up,
the command succeeds and every file arrives, whatever else the endpoint holds.  If there is not, the
command fails, and nothing has been sent.
-/
theorem upload_succeeds_with_room
    (checked : config.check = .ok ())
    (unscripted : endpoint.Unscripted)
    (sendable : Sendable place directory endpoint files) :
    let occupied := (endpoint.takenUp config.maxQueued).length
    (occupied + files.length ≤ config.maxQueued →
      Ends place (Session.new config .background endpoint) files directory fun outcome final =>
        outcome = .ok "" ∧
          ∀ file ∈ files, ∃ path bytes,
            remotePathOf directory file = .ok path ∧ place.content file = .ok bytes ∧
              final.completed? path = some bytes) ∧
    (config.maxQueued < occupied + files.length →
      Ends place (Session.new config .background endpoint) files directory fun outcome final =>
        (∃ file ∈ files, outcome = .error (noRoom config.maxQueued file)) ∧
          final.pending = endpoint.pending ∧ final.completed = endpoint.completed) := by
  intro occupied
  constructor
  · intro room
    obtain ⟨ready, paths, prepared, primed⟩ := sendable.prepared_of_room checked unscripted room
    obtain ⟨quiet, arrives⟩ := primed.drain
    have succeeds : verdict ready.drain.queue.entries paths = .ok "" := by
      have unfailed : failedEntries ready.drain.queue.entries paths = [] := by
        refine List.filter_eq_nil_iff.mpr fun entry member => ?_
        simp only [quiet entry member, bne_self_eq_false, Bool.and_false, Bool.false_eq_true,
          not_false_eq_true]
      simp only [verdict, unfailed, List.length_nil, ↓reduceIte]
    have ends := @ends_as_upload place directory files (Session.new config .inline endpoint) _
      fun readied => by
        obtain ⟨loaded, unreported, some_, _⟩ :=
          loaded_of_prepare unscripted.onlyFails sendable.partway readied
        exact ⟨loaded, unreported, some_ sendable.some_⟩
    refine ends.imp fun {outcome endpoint} done => ?_
    obtain ⟨final, uploaded, rfl⟩ := done
    simp only [upload, prepared, succeeds, Prod.mk.injEq] at uploaded
    obtain ⟨rfl, rfl⟩ := uploaded
    refine ⟨rfl, fun file member => ?_⟩
    obtain ⟨path, bytes, queueable⟩ := sendable.queueable member
    have wanted := sendable.wanted member queueable.goes queueable.contains
    exact ⟨path, bytes, queueable.goes, queueable.contains, arrives wanted⟩
  · intro excess
    obtain ⟨queue, file, listed, refused⟩ := sendable.prepared_of_excess checked excess
    have failed := prepare_inBackground place (Session.new config .inline endpoint) files directory
    rw [refused] at failed
    exact .of_failed failed ⟨⟨file, listed, rfl⟩, rfl, rfl⟩

/-- Two files arrive beside the upload of another, which stays in the queue. -/
theorem two_files_arrive_beside_another :
    let place : Place := { disk := ⟨[(["a"], .file [1, 2, 3]), (["b"], .file [4])]⟩ }
    let config : Config := { maxQueued := 3 }
    let endpoint : Endpoint := { pending := [⟨"other", 3, [1]⟩, ⟨"", 1, []⟩] }
    ∃ final,
      config.check = .ok () ∧ endpoint.Unscripted ∧
        Sendable place "/in" endpoint ["a", "./b"] ∧
        (endpoint.takenUp config.maxQueued).length + 2 ≤ config.maxQueued ∧
        Returns place (Session.new config .background endpoint) ["a", "./b"] "/in" (.ok "") final ∧
        final.completed? "in/b" = some [4] := by
  intro place config endpoint
  have checked : config.check = .ok () := Config.check_eq_ok_iff.mpr (by decide)
  have unscripted : endpoint.Unscripted := ⟨rfl, rfl, rfl⟩
  have room : (endpoint.takenUp config.maxQueued).length + 2 ≤ config.maxQueued := by decide
  have sendable : Sendable place "/in" endpoint ["a", "./b"] :=
    { some_ := List.cons_ne_nil _ _
      rooted := by decide
      clean := by decide
      printable := by decide
      named := by decide
      distinct := by decide
      readable := by
        refine List.forall_mem_cons.mpr ⟨⟨[1, 2, 3], by decide⟩, ?_⟩
        exact List.forall_mem_singleton.mpr ⟨[4], by decide⟩
      fresh := by
        refine List.forall_mem_cons.mpr ⟨?_, List.forall_mem_singleton.mpr ?_⟩ <;>
          · rintro path ⟨⟩
            decide }
  have replayed :
      (replay? place (Session.new config .background endpoint) ["a", "./b"] "/in"
        (Watch.Cue.transfer 0 6 1 ++ Watch.Cue.transfer 1 6 1)).isSome = true := by
    decide +kernel
  obtain ⟨⟨_, final⟩, replayed⟩ := Option.isSome_iff_exists.mp replayed
  have returns := returns_of_replay? replayed
  obtain ⟨rfl, arrived⟩ :=
    ((upload_succeeds_with_room checked unscripted sendable).1 room).of_returns returns
  obtain ⟨path, bytes, goes, contains, completed⟩ := arrived "./b" (by decide)
  cases goes
  cases contains
  exact ⟨final, checked, unscripted, sendable, room, returns, completed⟩

/-- The upload of another takes the only place in the queue, and the file of the command has none. -/
theorem upload_of_another_takes_room :
    let place : Place := { disk := ⟨[(["x"], .file [1])]⟩ }
    let config : Config := { maxQueued := 1 }
    let endpoint : Endpoint := { pending := [⟨"a", 2, [1]⟩] }
    config.check = .ok () ∧ endpoint.Unscripted ∧ Sendable place "" endpoint ["x"] ∧
      ["x"].length ≤ config.maxQueued ∧
      Ends place (Session.new config .background endpoint) ["x"] "" fun outcome final =>
        outcome =
            .error ⟨"queueing x", ["invalid upload: upload queue is full (1 entries)"]⟩ ∧
          final.completed? "x" = none := by
  intro place config endpoint
  have sendable : Sendable place "" endpoint ["x"] :=
    { some_ := List.cons_ne_nil _ _
      rooted := by decide
      clean := by decide
      printable := by decide
      named := by decide
      distinct := by decide
      readable := List.forall_mem_singleton.mpr ⟨[1], by decide⟩
      fresh := by
        refine List.forall_mem_singleton.mpr ?_
        rintro path ⟨⟩
        decide }
  have refused :
      prepare place (Session.new config .background endpoint) ["x"] "" =
        (_, .error ⟨"queueing x", ["invalid upload: upload queue is full (1 entries)"]⟩) :=
    Prod.ext rfl (by decide +kernel)
  have missing :
      (prepare place (Session.new config .background endpoint) ["x"] "").1.endpoint.completed? "x" =
        none := by
    decide +kernel
  exact ⟨Config.check_eq_ok_iff.mpr (by decide), ⟨rfl, rfl, rfl⟩, sendable, by decide,
    .of_failed refused ⟨rfl, missing⟩⟩

end CommandLine

end ResumableUpload
