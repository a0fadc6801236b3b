import ResumableUpload.Proofs.CommandLine.Returning
import ResumableUpload.Proofs.LocalFile
import ResumableUpload.Proofs.Session.Filled

/-!
# What an upload command leaves at the endpoint

The command queues its files one after the other, and a file that goes to the remote path of an
earlier one takes the place of that file.  So what it wants a path to have is what the last file for
that path contains (`Place.wanted`).  Once the files are queued, the queue is about to bring that to the
paths (`Queue.Filled`); draining it does so, or leaves a message with which the command fails.

In the background the command comes to the same as if it drained its queue on its own time
(`ends_as_upload`), so what the drain brings is what it leaves at the endpoint.
-/

namespace ResumableUpload

namespace CommandLine

variable {place : Place} {directory path file output : String} {bytes : Bytes}
variable {files paths before after : List String} {config : Config} {endpoint : Endpoint}
variable {session final : Session}

/-! ## Local files -/

/-- What a local file contains. -/
def Place.content (place : Place) (file : String) : Except Disk.Fault Bytes :=
  place.disk.fileContent place.workingDirectory file

/-- A local file that was opened reads as what it contains. -/
theorem Place.holds_of_openFile
    {identity : Nat}
    {handle : FileHandle}
    (opened : place.openFile identity file = .ok handle) :
    ∃ bytes, place.content file = .ok bytes ∧ handle.Holds bytes := by
  unfold Place.openFile at opened
  split at opened
  case h_1 found =>
      cases opened
      obtain ⟨bytes, contains, rfl⟩ := LocalFile.openPath_eq_ok_iff.mp found
      refine ⟨bytes, contains, rfl, ?_⟩
      intro first last ordered within
      simp only [LocalFile.source, contains]
      exact (LocalFile.read_eq_ok_iff ordered within).mpr
        (Bytes.isRange_iff.mpr ⟨fun _ => within, rfl⟩)
  case h_2 => cases opened

/-- What a local file brings to a remote path, if it goes there. -/
def Place.brings? (place : Place) (directory path file : String) : Option Bytes :=
  match remotePathOf directory file, place.content file with
  | .ok remote, .ok bytes => if remote = path then some bytes else none
  | _, _ => none

theorem Place.brings?_eq_some_iff :
    place.brings? directory path file = some bytes ↔
      remotePathOf directory file = .ok path ∧ place.content file = .ok bytes := by
  unfold Place.brings?
  cases remotePathOf directory file <;> cases place.content file <;> simp

/-- What the last of the files that go to a remote path contains. -/
def Place.wanted (place : Place) (directory : String) (files : List String) (path : String) :
    Option Bytes :=
  files.reverse.findSome? (place.brings? directory path)

theorem Place.wanted_cons
    (place : Place)
    (directory file : String)
    (rest : List String)
    (path : String) :
    place.wanted directory (file :: rest) path =
      (place.wanted directory rest path).or (place.brings? directory path file) := by
  rw [wanted, List.reverse_cons, List.findSome?_append, List.findSome?_singleton, wanted]

theorem Place.exists_of_wanted (wanted : place.wanted directory files path = some bytes) :
    ∃ file ∈ files,
      remotePathOf directory file = .ok path ∧ place.content file = .ok bytes := by
  obtain ⟨file, member, brought⟩ := List.exists_of_findSome?_eq_some wanted
  exact ⟨file, List.mem_reverse.mp member, brings?_eq_some_iff.mp brought⟩

/-- A file is wanted if every file after it that goes to the same path contains the same. -/
theorem Place.wanted_of_alike
    (goes : remotePathOf directory file = .ok path)
    (contains : place.content file = .ok bytes)
    (alike :
      ∀ later ∈ after, remotePathOf directory later = .ok path →
        place.content later = .ok bytes) :
    place.wanted directory (before ++ file :: after) path = some bytes := by
  have here : place.brings? directory path file = some bytes :=
    brings?_eq_some_iff.mpr ⟨goes, contains⟩
  have split :
      place.wanted directory (before ++ file :: after) path =
        (place.wanted directory after path).or
          ((place.brings? directory path file).or (place.wanted directory before path)) := by
    simp only [wanted, List.reverse_append, List.reverse_cons, List.findSome?_append,
      List.findSome?_singleton, Option.or_assoc]
  rw [split, here, Option.some_or]
  cases last : place.wanted directory after path with
  | none => rw [Option.none_or]
  | some content =>
      obtain ⟨later, member, same, contained⟩ := exists_of_wanted last
      cases (alike later member same).symm.trans contained
      rw [Option.some_or]

/-! ## The steps of the command -/

/-- Asking what the endpoint holds leaves no more than a note there. -/
theorem callList_eq (online : session.cutOff = none) :
    ∃ endpoint listScript,
      session.callList.1 = { session with endpoint := endpoint, listScript := listScript } ∧
        (∀ path, Endpoint.AgreesOn path session.endpoint endpoint) ∧
        (session.endpoint.OnlyFails → endpoint.OnlyFails) := by
  unfold Session.callList
  split
  case h_1 answer rest _ => exact ⟨session.endpoint, rest, rfl, fun _ => .refl _ _, id⟩
  case h_2 none_ =>
      simp only [Session.call, online]
      exact ⟨session.endpoint.note .list, session.listScript, rfl,
        fun path => .note path _ .list, fun fails => fails.note .list⟩

/-- Taking up what the endpoint holds brings paused entries only. -/
theorem restore_eq
    (online : session.cutOff = none)
    (empty : session.queue = {}) :
    ∃ queue endpoint listScript,
      session.restore.1 =
          { session with queue := queue, endpoint := endpoint, listScript := listScript } ∧
        queue.Filled (fun _ => none) ∧
        (∀ path, Endpoint.AgreesOn path session.endpoint endpoint) ∧
        (session.endpoint.OnlyFails → endpoint.OnlyFails) := by
  obtain ⟨endpoint, listScript, called, kept⟩ := callList_eq online
  have unfilled : session.queue.Filled (fun _ => none) := by
    rw [empty]
    exact Queue.filled_restore 0 []
  unfold Session.restore
  split
  case h_1 answer error failed =>
      rw [failed] at called
      exact ⟨session.queue, endpoint, listScript, called, unfilled, kept⟩
  case h_2 answer response answered =>
      rw [answered] at called
      dsimp only at called
      subst called
      split
      case isTrue =>
          simp only [Session.restoreFrom, empty]
          exact ⟨_, endpoint, listScript, rfl, Queue.filled_restore _ _, kept⟩
      case isFalse => exact ⟨session.queue, endpoint, listScript, rfl, unfilled, kept⟩

/-- A file that was queued has a remote path, was opened, and was accepted by the queue. -/
theorem queueFiles_cons_eq_ok
    {rest : List String}
    (done : queueFiles place directory session (file :: rest) = (final, .ok paths)) :
    ∃ path handle queue more,
      remotePathOf directory file = .ok path ∧
        place.openFile rest.length file = .ok handle ∧
        session.queue.add session.config.maxQueued handle path = .ok queue ∧
        queueFiles place directory { session with queue := queue } rest = (final, .ok more) ∧
        paths = path :: more := by
  unfold queueFiles at done
  cases goes : remotePathOf directory file with
  | error => simp only [goes, Prod.mk.injEq, reduceCtorEq, and_false] at done
  | ok path =>
      cases opened : place.openFile rest.length file with
      | error => simp only [goes, opened, Prod.mk.injEq, reduceCtorEq, and_false] at done
      | ok handle =>
          unfold Session.add at done
          cases added : session.queue.add session.config.maxQueued handle path with
          | error => simp only [goes, opened, added, Prod.mk.injEq, reduceCtorEq, and_false] at done
          | ok queue =>
              simp only [goes, opened, added] at done
              split at done
              case h_1 last more following =>
                  cases done
                  exact ⟨path, handle, queue, more, rfl, rfl, added, following, rfl⟩
              case h_2 => cases done

/-- Queueing files asks for what the last file of each path contains. -/
theorem queueFiles_filled
    {target : String → Option Bytes}
    (filled : session.queue.Filled target)
    (done : queueFiles place directory session files = (final, .ok paths)) :
    (∃ queue, final = { session with queue := queue } ∧
        queue.Filled fun path => (place.wanted directory files path).or (target path)) ∧
      ∀ file ∈ files, ∃ path ∈ paths, ∃ bytes,
        remotePathOf directory file = .ok path ∧ place.content file = .ok bytes := by
  -- What the rest of the files brings to a path goes before what this one brings there.
  induction files generalizing session target paths with
  | nil =>
      cases done
      exact ⟨⟨_, rfl, filled⟩, nofun⟩
  | cons file rest later =>
      obtain ⟨path, handle, queue, more, goes, opened, added, following, rfl⟩ :=
        queueFiles_cons_eq_ok done
      obtain ⟨bytes, contains, holds⟩ := Place.holds_of_openFile opened
      obtain ⟨⟨last, rfl, full⟩, told⟩ := later (filled.add holds added) following
      refine ⟨⟨last, rfl, ?_⟩, ?_⟩
      · have brings : ∀ other, place.brings? directory other file =
            if path = other then some bytes else none := by
          intro other
          simp only [Place.brings?, goes, contains]
        simpa only [Place.wanted_cons, brings, Option.or_assoc] using full
      · intro queued member
        rcases List.mem_cons.mp member with rfl | earlier
        · exact ⟨path, List.mem_cons_self, bytes, goes, contains⟩
        · obtain ⟨other, listed, content, known⟩ := told queued earlier
          exact ⟨other, List.mem_cons_of_mem _ listed, content, known⟩

/-! ## In the background -/

theorem callList_inBackground (session : Session) :
    session.inBackground.callList = (session.callList.1.inBackground, session.callList.2) := by
  unfold Session.callList Session.call Session.inBackground
  dsimp only
  split
  case h_1 => rfl
  case h_2 => split <;> rfl

theorem restore_inBackground (session : Session) :
    session.inBackground.restore.1 = session.restore.1.inBackground := by
  unfold Session.restore
  rw [callList_inBackground]
  cases session.callList with
  | mk next answer =>
      cases answer with
      | error => rfl
      | ok response =>
          dsimp only
          split <;> rfl

theorem add_inBackground
    (session : Session)
    (handle : FileHandle)
    (path : String) :
    session.inBackground.add handle path =
      ((session.add handle path).1.inBackground, (session.add handle path).2) := by
  have same : session.inBackground.queue.add session.inBackground.config.maxQueued handle path =
      session.queue.add session.config.maxQueued handle path :=
    rfl
  unfold Session.add
  rw [same]
  split <;> rfl

theorem queueFiles_inBackground
    (session : Session)
    (files : List String) :
    queueFiles place directory session.inBackground files =
      ((queueFiles place directory session files).1.inBackground,
        (queueFiles place directory session files).2) := by
  induction files generalizing session with
  | nil => rfl
  | cons file rest later =>
      unfold queueFiles
      cases remotePathOf directory file with
      | error => rfl
      | ok path =>
          cases place.openFile rest.length file with
          | error => rfl
          | ok handle =>
              dsimp only
              rw [add_inBackground]
              cases session.add handle path with
              | mk next result =>
                  cases result with
                  | error => rfl
                  | ok =>
                      dsimp only
                      rw [later]
                      cases queueFiles place directory next rest with
                      | mk _ result => cases result <;> rfl

/-- A command makes itself ready in the same way for the background. -/
theorem prepare_inBackground
    (place : Place)
    (session : Session)
    (files : List String)
    (directory : String) :
    prepare place session.inBackground files directory =
      ((prepare place session files directory).1.inBackground,
        (prepare place session files directory).2) := by
  have same : session.inBackground.config = session.config := rfl
  unfold prepare
  rw [same, restore_inBackground, queueFiles_inBackground]
  split <;> rfl

/--
In the background a command returns, and what it returns and the endpoint are as if it transferred its
queue on its own time.
-/
theorem ends_as_upload
    {target : String → Option Bytes}
    (loaded :
      ∀ {ready : Session} {paths : List String},
        prepare place session files directory = (ready, .ok paths) →
          Session.Loaded target ready ∧ ready.queue.reportsSeen = 0 ∧ ready.queue.runnables ≠ 0) :
    Ends place session.inBackground files directory fun outcome endpoint =>
      ∃ final,
        upload place session files directory = (final, outcome) ∧ final.endpoint = endpoint := by
  unfold Ends upload
  rw [prepare_inBackground]
  cases prepared : prepare place session files directory with
  | mk ready result =>
      cases result with
      | error failure => exact ⟨ready, rfl, rfl⟩
      | ok paths =>
          obtain ⟨loaded, unreported, some_⟩ := loaded prepared
          intro run
          obtain ⟨time, entries, returned⟩ := Watch.exists_result loaded unreported some_ run
          obtain ⟨labels, past⟩ := run.trace time
          obtain ⟨rfl, endpoint⟩ := Watch.drained_of_result loaded unreported past returned
          exact ⟨time, _, returned, ready.drain, rfl, endpoint.symm⟩

/-! ## What success tells -/

theorem prepare_eq_ok
    {ready : Session}
    (prepared : prepare place session files directory = (ready, .ok paths)) :
    session.config.check = .ok () ∧
      queueFiles place directory session.restore.1 files = (ready, .ok paths) := by
  unfold prepare checkConfig at prepared
  cases checked : session.config.check with
  | error =>
      rw [checked] at prepared
      cases prepared
  | ok =>
      rw [checked] at prepared
      exact ⟨rfl, prepared⟩

theorem verdict_eq_ok {entries : List Entry} (succeeds : verdict entries paths = .ok output) :
    failedEntries entries paths = [] := by
  unfold verdict at succeeds
  dsimp only at succeeds
  split at succeeds
  case isTrue none_ => exact List.eq_nil_of_length_eq_zero none_
  case isFalse => cases succeeds

/-- A command that succeeds was made ready, and no entry of its files has a message. -/
theorem upload_eq_ok (done : upload place session files directory = (final, .ok output)) :
    ∃ ready paths,
      prepare place session files directory = (ready, .ok paths) ∧ final = ready.drain ∧
        failedEntries final.queue.entries paths = [] := by
  unfold upload at done
  split at done
  case h_1 => cases done
  case h_2 ready paths prepared =>
      obtain ⟨rfl, succeeds⟩ := Prod.mk.inj done
      exact ⟨ready, paths, prepared, rfl, verdict_eq_ok succeeds⟩

theorem message_of_failedEntries
    {queue : Queue}
    {entry : Entry}
    (unfailed : failedEntries queue.entries paths = [])
    (member : path ∈ paths)
    (found : queue.find? path = some entry) :
    entry.message = "" := by
  have passed := List.filter_eq_nil_iff.mp unfailed entry (Queue.mem_of_find? found)
  rw [Queue.path_of_find? found, List.contains_iff_mem.mpr member, Bool.true_and,
    bne_iff_ne] at passed
  exact Decidable.not_not.mp passed

/-! ## The whole command -/

/-- A path to which a file goes is wanted to have a content. -/
theorem Place.exists_wanted
    (some_ : files ≠ [])
    (known :
      ∀ file ∈ files, ∃ path ∈ paths, ∃ bytes,
        remotePathOf directory file = .ok path ∧ place.content file = .ok bytes) :
    ∃ path bytes, place.wanted directory files path = some bytes := by
  obtain ⟨earlier, last, rfl⟩ := (List.eq_nil_or_concat' files).resolve_left some_
  obtain ⟨path, _, bytes, goes, contains⟩ := known last (List.mem_append_right _ List.mem_cons_self)
  exact ⟨path, bytes, wanted_of_alike goes contains nofun⟩

/-- Once all files of a command are queued, its session is about to bring them to their paths. -/
theorem loaded_of_prepare
    {ready : Session}
    {listScript : List (Answer ListReply)}
    (fails : endpoint.OnlyFails)
    (begun :
      ∀ file ∈ files, ∀ {path : String} {bytes : Bytes},
        remotePathOf directory file = .ok path → place.content file = .ok bytes →
          endpoint.Partway path bytes)
    (prepared :
      prepare place { Session.new config .inline endpoint with listScript := listScript } files
        directory = (ready, .ok paths)) :
    Session.Loaded (place.wanted directory files) ready ∧ ready.queue.reportsSeen = 0 ∧
      (files ≠ [] → ready.queue.runnables ≠ 0) ∧
      ∀ file ∈ files, ∃ path ∈ paths, ∃ bytes,
        remotePathOf directory file = .ok path ∧ place.content file = .ok bytes := by
  obtain ⟨checked, queueing⟩ := prepare_eq_ok prepared
  obtain ⟨restored, reached, lists, resumed, unfilled, agrees, keeps⟩ :=
    @restore_eq { Session.new config .inline endpoint with listScript := listScript } rfl rfl
  rw [resumed] at queueing
  obtain ⟨⟨queue, rfl, filled⟩, known⟩ := queueFiles_filled unfilled queueing
  simp only [Option.or_none] at filled
  have loaded := Session.loaded_of_filled lists checked (keeps fails) filled fun wanted => by
    obtain ⟨other, member, goes, contains⟩ := Place.exists_of_wanted wanted
    exact (agrees _).partway (begun other member goes contains)
  refine ⟨loaded, filled.unreported, fun some_ => ?_, known⟩
  obtain ⟨path, bytes, wanted⟩ := Place.exists_wanted some_ known
  obtain ⟨entry, found, runnable⟩ := filled.queued wanted
  exact Nat.ne_of_gt (List.countP_pos_iff.mpr ⟨entry, Queue.mem_of_find? found, runnable⟩)

/--
If the command succeeds, what a file contains is completed at its remote path, unless a file after it
goes to the same path with another content.  Before the command the endpoint holds no more than a
proper prefix of each file, and the canned answers with which it begins are failures.
-/
theorem upload_completes
    {reached : Endpoint}
    {listScript : List (Answer ListReply)}
    (fails : endpoint.OnlyFails)
    (begun :
      ∀ file ∈ files, ∀ {path : String} {bytes : Bytes},
        remotePathOf directory file = .ok path → place.content file = .ok bytes →
          endpoint.Partway path bytes)
    (returns :
      Returns place { Session.new config .background endpoint with listScript := listScript } files
        directory (.ok output) reached)
    (listed : files = before ++ file :: after)
    (alike :
      ∀ later ∈ after, remotePathOf directory later = remotePathOf directory file →
        place.content later = place.content file) :
    ∃ path bytes,
      remotePathOf directory file = .ok path ∧ place.content file = .ok bytes ∧
        reached.completed? path = some bytes := by
  have member : file ∈ files := by
    rw [listed]
    exact List.mem_append_right _ List.mem_cons_self
  let session := { Session.new config .inline endpoint with listScript := listScript }
  have ends := @ends_as_upload place directory files session _ fun prepared => by
    obtain ⟨loaded, unreported, some_, _⟩ := loaded_of_prepare fails begun prepared
    exact ⟨loaded, unreported, some_ (List.ne_nil_of_mem member)⟩
  obtain ⟨final, done, rfl⟩ := ends.of_returns returns
  obtain ⟨ready, paths, prepared, rfl, unfailed⟩ := upload_eq_ok done
  obtain ⟨loaded, _, _, known⟩ := loaded_of_prepare fails begun prepared
  obtain ⟨path, queued, bytes, goes, contains⟩ := known file member
  have wanted : place.wanted directory files path = some bytes := by
    rw [listed]
    refine Place.wanted_of_alike goes contains ?_
    intro later follows same
    exact (alike later follows (same.trans goes.symm)).trans contains
  refine ⟨path, bytes, goes, contains, ?_⟩
  cases loaded.drain wanted with
  | arrived _ completed => exact completed
  | failed found _ told => exact absurd (message_of_failedEntries unfailed queued found) told

/-- Two files arrive: the endpoint has begun with one, and the first chunk call fails. -/
theorem two_files_complete :
    let place : Place := { disk := ⟨[(["a"], .file [1, 2, 3]), (["b"], .file [4])]⟩ }
    let endpoint : Endpoint :=
      { pending := [⟨"in/a", 3, [1]⟩], chunkScript := [.fail (.io "reset")] }
    ∃ reached,
      endpoint.OnlyFails ∧ endpoint.Partway "in/a" [1, 2, 3] ∧ endpoint.Partway "in/b" [4] ∧
        Returns place { Session.new {} .background endpoint with listScript := [.ok ⟨500, none⟩] }
          ["a", "b"] "in" (.ok "") reached ∧
        reached.completed? "in/a" = some [1, 2, 3] := by
  intro place endpoint
  have fails : endpoint.OnlyFails := ⟨by decide, by decide, by decide⟩
  have first : endpoint.Partway "in/a" [1, 2, 3] := by
    unfold Endpoint.Partway
    decide
  have second : endpoint.Partway "in/b" [4] := by
    unfold Endpoint.Partway
    decide
  have replayed :
      (replay? place
        { Session.new {} .background endpoint with listScript := [.ok ⟨500, none⟩] } ["a", "b"] "in"
        (Watch.Cue.transfer 0 12 2 ++ Watch.Cue.transfer 1 6 1)).map (·.1) = some (.ok "") := by
    decide +kernel
  obtain ⟨⟨_, reached⟩, replayed, ⟨⟩⟩ := Option.map_eq_some_iff.mp replayed
  have returns := returns_of_replay? replayed
  have begun :
      ∀ file ∈ ["a", "b"], ∀ {path : String} {bytes : Bytes},
        remotePathOf "in" file = .ok path → place.content file = .ok bytes →
          endpoint.Partway path bytes := by
    intro file member path bytes goes contains
    simp only [List.mem_cons, List.not_mem_nil, or_false] at member
    rcases member with rfl | rfl
    · cases (rfl : remotePathOf "in" "a" = .ok "in/a").symm.trans goes
      cases (rfl : place.content "a" = .ok [1, 2, 3]).symm.trans contains
      exact first
    · cases (rfl : remotePathOf "in" "b" = .ok "in/b").symm.trans goes
      cases (rfl : place.content "b" = .ok [4]).symm.trans contains
      exact second
  have apart :
      ∀ later ∈ ["b"], remotePathOf "in" later = remotePathOf "in" "a" →
        place.content later = place.content "a" := by
    decide
  obtain ⟨path, bytes, goes, contains, completed⟩ :=
    upload_completes fails begun returns (List.nil_append _).symm apart
  cases (rfl : remotePathOf "in" "a" = .ok "in/a").symm.trans goes
  cases (rfl : place.content "a" = .ok [1, 2, 3]).symm.trans contains
  exact ⟨reached, fails, first, second, returns, completed⟩

/-- Two directories have a file of one name and size. -/
def namesakes : Place where
  disk := ⟨[(["a", "x"], .file [1]), (["b", "x"], .file [2])]⟩

/-- The command succeeds with two files of one name, but only the second of them arrives. -/
theorem namesake_is_lost :
    Config.check {} = .ok () ∧ Endpoint.OnlyFails {} ∧
      (∀ path bytes, Endpoint.Partway {} path bytes) ∧
      remotePathOf "" "a/x" = .ok "x" ∧ namesakes.content "a/x" = .ok [1] ∧
      ∃ reached,
        Returns namesakes (Session.new {} .background {}) ["a/x", "b/x"] "" (.ok "") reached ∧
          reached.completed? "x" = some [2] := by
  refine ⟨rfl, ⟨nofun, nofun, nofun⟩, fun _ _ _ => nofun, rfl, rfl, ?_⟩
  have replayed :
      (replay? namesakes (Session.new {} .background {}) ["a/x", "b/x"] ""
        (Watch.Cue.transfer 0 6 1)).map (fun (outcome, reached) =>
          (outcome, reached.completed? "x")) = some (.ok "", some [2]) := by
    decide +kernel
  obtain ⟨⟨_, reached⟩, replayed, same⟩ := Option.map_eq_some_iff.mp replayed
  obtain ⟨rfl, arrived⟩ := Prod.mk.inj same
  exact ⟨reached, returns_of_replay? replayed, arrived⟩

end CommandLine

end ResumableUpload
