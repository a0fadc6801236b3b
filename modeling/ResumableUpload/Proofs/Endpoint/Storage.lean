import Mathlib.Data.List.Nodup
import Mathlib.Data.Nat.PSub
import ResumableUpload.Proofs.Endpoint.Retransmission
import ResumableUpload.Proofs.Endpoint.Scripted

/-!
# What is stored stays in order

An endpoint may be sent anything: chunks of any text at any offset, uploads that are opened again,
discarded or completed in any order, and canned answers in between.  All that a call can do to what is
stored is said once (`Endpoint.Writes`): it opens an upload where none is begun, has the one that is
begun grow, discards it, or stores nothing.  So there is at most one upload of a path, none beside a
completed one, and none with more bytes than it expects (`Endpoint.Sound`).  An upload that was opened
by a call, and not put in beforehand, leaves as soon as it is whole (`Endpoint.Lacks`).
-/

namespace ResumableUpload

namespace Endpoint

variable {endpoint next : Endpoint} {path other content : String} {offset size : Nat}
variable {upload : PartialUpload}

/-- Two states of an endpoint store the same. -/
structure StoresSame (endpoint next : Endpoint) : Prop where
  pending : next.pending = endpoint.pending
  completed : next.completed = endpoint.completed

/-- What a call on a path can do to what is stored. -/
inductive Writes (path : String) (endpoint next : Endpoint) : Prop where
  | nothing (same : StoresSame endpoint next)
  /-- An upload is opened, and a completed one is given up. -/
  | opens (missing : endpoint.partial? path = none) (size : Nat)
      (same : StoresSame ((endpoint.forgetCompleted path).seed path size []) next)
  /-- The upload takes what is new of a chunk. -/
  | grows {upload : PartialUpload} (found : endpoint.partial? path = some upload)
      (chunk : Bytes) (offset : Nat)
      (same : StoresSame (endpoint.store path (extend upload chunk offset)) next)
  | discards
      (same :
        StoresSame { endpoint with pending := endpoint.pending.filter (·.path != path) } next)

theorem writes_create
    (endpoint : Endpoint)
    (path : String)
    (size : Nat) :
    Writes path endpoint (endpoint.create path size).1 := by
  unfold create
  dsimp only
  split
  case h_1 => exact .nothing ⟨rfl, rfl⟩
  case h_2 =>
      unfold openUpload
      split
      case h_1 => split <;> exact .nothing ⟨rfl, rfl⟩
      case h_2 missing => exact .opens missing size ⟨rfl, rfl⟩

theorem writes_append
    (endpoint : Endpoint)
    (path content : String)
    (offset : Nat) :
    Writes path endpoint (endpoint.append path content offset).1 := by
  unfold append
  split
  case h_1 => exact .nothing ⟨rfl, rfl⟩
  case h_2 upload found =>
      split
      case h_1 => exact .nothing ⟨rfl, rfl⟩
      case h_2 chunk _ =>
          split
          case isTrue => exact .nothing ⟨rfl, rfl⟩
          case isFalse => exact .grows found chunk offset ⟨rfl, rfl⟩

theorem writes_answerChunk
    (endpoint : Endpoint)
    (call : ChunkCall) :
    Writes call.path endpoint (endpoint.answerChunk call).1 := by
  unfold answerChunk
  split
  case h_1 => exact .nothing ⟨rfl, rfl⟩
  case h_2 => exact writes_append endpoint call.path call.content call.offset

theorem writes_delete
    (endpoint : Endpoint)
    (path : String) :
    Writes path endpoint (endpoint.delete path).1 := by
  unfold delete
  dsimp only
  split
  case isTrue => exact .nothing ⟨rfl, rfl⟩
  case isFalse => exact .discards ⟨rfl, rfl⟩

theorem storesSame_receiveChunk
    (endpoint : Endpoint)
    (path content : String)
    (offset : Nat) :
    StoresSame endpoint (endpoint.receiveChunk path content offset).1 := by
  unfold receiveChunk
  dsimp only
  split <;> exact ⟨rfl, rfl⟩

theorem storesSame_status
    (endpoint : Endpoint)
    (path : String) :
    StoresSame endpoint (endpoint.status path).1 := by
  unfold status
  dsimp only
  split
  case h_1 => exact ⟨rfl, rfl⟩
  case h_2 => split <;> exact ⟨rfl, rfl⟩

/-! ## One upload a path, and no more bytes than it expects -/

/--
Paths are begun once, a path that is begun is not completed, and no upload has more bytes than it
expects.
-/
structure Sound (endpoint : Endpoint) : Prop where
  distinct : (endpoint.pending.map (·.path)).Nodup
  apart : ∀ upload ∈ endpoint.pending, endpoint.completed? upload.path = none
  within : ∀ upload ∈ endpoint.pending, upload.data.length ≤ upload.size

theorem StoresSame.sound
    (same : StoresSame endpoint next)
    (sound : endpoint.Sound) :
    next.Sound where
  distinct := by
    rw [same.pending]
    exact sound.distinct
  apart := by
    rw [same.pending]
    intro upload member
    rw [completed?, same.completed]
    exact sound.apart upload member
  within := by
    rw [same.pending]
    exact sound.within

theorem map_path_replaceFirst
    {changed : PartialUpload}
    (kept : changed.path = path)
    (pending : List PartialUpload) :
    (replaceFirst path changed pending).map (·.path) = pending.map (·.path) := by
  induction pending with
  | nil => rfl
  | cons head rest same =>
      unfold replaceFirst
      split
      case isTrue here => rw [List.map_cons, List.map_cons, kept, beq_iff_eq.mp here]
      case isFalse => rw [List.map_cons, List.map_cons, same]

theorem path_extend
    (found : endpoint.partial? path = some upload)
    (chunk : Bytes)
    (offset : Nat) :
    (extend upload chunk offset).path = path := by
  have here : upload.path = path := path_of_partial? found
  exact here

namespace Sound

theorem single
    (sound : endpoint.Sound)
    (path : String) :
    endpoint.Single path := by
  have once := List.nodup_iff_count_le_one.mp sound.distinct path
  rw [List.count_eq_countP, List.countP_map, List.countP_eq_length_filter] at once
  exact once

theorem partial?_of_mem
    (sound : endpoint.Sound)
    (member : upload ∈ endpoint.pending) :
    endpoint.partial? upload.path = some upload := by
  have listed : upload ∈ endpoint.uploads upload.path :=
    List.mem_filter.mpr ⟨member, beq_self_eq_true _⟩
  have behind := (sound.single upload.path).tail_eq
  rw [partial?_eq_head?]
  cases uploads : endpoint.uploads upload.path with
  | nil =>
      rw [uploads] at listed
      cases listed
  | cons first rest =>
      rw [uploads, List.tail_cons] at behind
      rw [uploads, behind, List.mem_singleton] at listed
      rw [listed, List.head?_cons]

theorem opens
    (sound : endpoint.Sound)
    (missing : endpoint.partial? path = none)
    (size : Nat) :
    ((endpoint.forgetCompleted path).seed path size []).Sound where
  distinct := by
    have absent : path ∉ endpoint.pending.map (·.path) := by
      simpa [partial?] using missing
    simp only [seed, forgetCompleted, List.map_append, List.map_singleton]
    rw [← List.concat_eq_append]
    exact List.Nodup.concat absent sound.distinct
  apart := by
    intro upload member
    have forgotten := completed?_forgetCompleted endpoint path upload.path
    by_cases here : upload.path = path
    · exact forgotten.trans (if_pos here)
    · rcases List.mem_append.mp member with earlier | last
      · exact (forgotten.trans (if_neg here)).trans (sound.apart upload earlier)
      · rw [List.mem_singleton.mp last] at here
        exact absurd rfl here
  within := by
    intro upload member
    rcases List.mem_append.mp member with earlier | last
    · exact sound.within upload earlier
    · rw [List.mem_singleton.mp last]
      exact Nat.zero_le size

theorem store
    {grown : PartialUpload}
    (sound : endpoint.Sound)
    (found : endpoint.partial? path = some upload)
    (kept : grown.path = path)
    (within : grown.data.length ≤ grown.size) :
    (endpoint.store path grown).Sound := by
  unfold Endpoint.store
  split
  case isTrue =>
      refine ⟨sound.distinct.sublist (List.eraseP_sublist.map _), ?_, ?_⟩
      · intro other member
        have differs : other.path ≠ path := by
          rintro rfl
          -- What is left of the path would be behind its only upload.
          have behind : other ∈ (endpoint.uploads other.path).tail := by
            rw [uploads, ← filter_eraseP_self, List.mem_filter]
            exact ⟨member, beq_self_eq_true _⟩
          rw [(sound.single other.path).tail_eq] at behind
          cases behind
        have forgotten := completed?_forgetCompleted endpoint path other.path
        have elsewhere : (other.path == path) = false := beq_eq_false_iff_ne.mpr differs
        rw [if_neg differs, sound.apart other (List.mem_of_mem_eraseP member)] at forgotten
        simp only [completed?, List.lookup_cons, elsewhere]
        exact forgotten
      · intro other member
        exact sound.within other (List.mem_of_mem_eraseP member)
  case isFalse =>
      refine ⟨?_, ?_, ?_⟩
      · rw [map_path_replaceFirst kept]
        exact sound.distinct
      · intro other member
        rcases mem_replaceFirst member with rfl | earlier
        · have alone := sound.apart upload (List.mem_of_find?_eq_some found)
          rw [path_of_partial? found, ← kept] at alone
          exact alone
        · exact sound.apart other earlier
      · intro other member
        rcases mem_replaceFirst member with rfl | earlier
        · exact within
        · exact sound.within other earlier

/-- An upload never takes more of a chunk than it has room for. -/
theorem length_extend_le
    (sound : endpoint.Sound)
    (found : endpoint.partial? path = some upload)
    (chunk : Bytes)
    (offset : Nat) :
    (extend upload chunk offset).data.length ≤ upload.size := by
  have within := sound.within upload (List.mem_of_find?_eq_some found)
  rw [length_extend]
  omega

/-- Whatever a call does, what is stored stays in order. -/
theorem writes
    (sound : endpoint.Sound)
    (writes : Writes path endpoint next) :
    next.Sound := by
  cases writes with
  | nothing same => exact same.sound sound
  | opens missing size same => exact same.sound (sound.opens missing size)
  | grows found chunk offset same =>
      have within := sound.length_extend_le found chunk offset
      exact same.sound (sound.store found (path_extend found chunk offset) within)
  | discards same =>
      refine same.sound ⟨sound.distinct.sublist (List.filter_sublist.map _), ?_, ?_⟩
      · intro upload member
        exact sound.apart upload (List.mem_of_mem_filter member)
      · intro upload member
        exact sound.within upload (List.mem_of_mem_filter member)

end Sound

/-! ## No difference falls below zero -/

/-- Appends a chunk with differences that are undefined where they would be below zero. -/
def append? (endpoint : Endpoint) (path content : String) (offset : Nat) :
    Option (Endpoint × Answer StatusReply) :=
  match endpoint.partial? path with
  | none => some (endpoint, .ok ⟨404, none⟩)
  | some upload =>
    match Base64.decode? content with
    | none => some (endpoint, .ok ⟨400, none⟩)
    | some chunk =>
      if upload.data.length < offset then some (endpoint, .ok ⟨416, none⟩)
      else do
        let known ← upload.data.length.psub offset
        let room ← upload.size.psub upload.data.length
        let data := upload.data ++ (chunk.drop known).take room
        return (endpoint.store path { upload with data := data },
          .ok (Response.success ⟨path, data.length, upload.size⟩))

theorem Sound.append?_eq
    (sound : endpoint.Sound)
    (path content : String)
    (offset : Nat) :
    endpoint.append? path content offset = some (endpoint.append path content offset) := by
  unfold append? append
  cases found : endpoint.partial? path with
  | none => rfl
  | some upload =>
      cases Base64.decode? content with
      | none => rfl
      | some chunk =>
          have within := sound.within upload (List.mem_of_find?_eq_some found)
          by_cases beyond : upload.data.length < offset
          · simp only [if_pos beyond]
          · simp only [if_neg beyond, Nat.psub_eq_sub (Nat.le_of_not_lt beyond),
              Nat.psub_eq_sub within]
            rfl

/-! ## An upload that was opened by a call -/

/-- An upload of this size is begun at a path, and bytes of it are missing. -/
def Lacks (endpoint : Endpoint) (path : String) (size : Nat) : Prop :=
  ∃ upload, endpoint.partial? path = some upload ∧ upload.size = size ∧ upload.data.length < size

theorem AgreesOn.lacks
    (agrees : AgreesOn path endpoint next)
    (lacks : endpoint.Lacks path size) :
    next.Lacks path size := by
  unfold Lacks
  rw [agrees.partial?_eq]
  exact lacks

theorem StoresSame.agreesOn
    (same : StoresSame endpoint next)
    (path : String) :
    AgreesOn path endpoint next where
  uploads := by rw [uploads, same.pending, uploads]
  completed := by rw [completed?, same.completed, completed?]

/-- A create call that opens an upload, and is not given a canned answer, begins it with nothing. -/
theorem lacks_create
    (missing : endpoint.partial? path = none)
    (begun : (endpoint.create path size).1.partial? path ≠ none)
    (nonempty : 0 < size) :
    (endpoint.create path size).1.Lacks path size := by
  cases scripted : endpoint.createScript with
  | nil =>
      have noted : (endpoint.note (.create path size)).partial? path = none := missing
      rw [create_of_nil scripted]
      simp only [openUpload, noted]
      refine ⟨⟨path, size, []⟩, ?_, rfl, nonempty⟩
      rw [partial?_eq_head?, uploads_seed noted, List.head?_cons]
  | cons first rest =>
      rw [create_of_cons scripted] at begun
      exact absurd missing begun

/-- What a call on one path does leaves every other path alone. -/
theorem Writes.agreesOn
    (writes : Writes path endpoint next)
    (differs : other ≠ path) :
    AgreesOn other endpoint next := by
  cases writes with
  | nothing same => exact same.agreesOn other
  | opens missing size same =>
      have opened := openUpload_agreesOn differs endpoint size
      simp only [openUpload, missing] at opened
      exact opened.trans (same.agreesOn other)
  | grows found chunk offset same =>
      have stored := store_agreesOn _ (path_extend found chunk offset) differs endpoint
      exact stored.trans (same.agreesOn other)
  | discards same =>
      let kept := { endpoint with pending := endpoint.pending.filter (·.path != path) }
      suffices discarded : AgreesOn other endpoint kept from discarded.trans (same.agreesOn other)
      exact ⟨filter_filter_path differs endpoint.pending, rfl⟩

/-- An upload that is not whole is not so after a call, either, unless it has left. -/
theorem Lacks.writes
    (lacks : endpoint.Lacks path size)
    (sound : endpoint.Sound)
    (writes : Writes path endpoint next)
    (begun : next.partial? path ≠ none) :
    next.Lacks path size := by
  obtain ⟨upload, found, expected, lacking⟩ := lacks
  cases writes with
  | nothing same => exact (same.agreesOn path).lacks ⟨upload, found, expected, lacking⟩
  | opens missing => cases missing.symm.trans found
  | grows other chunk offset same =>
      cases other.symm.trans found
      have agrees := same.agreesOn path
      have within := sound.length_extend_le found chunk offset
      have left := uploads_store found (path_extend found chunk offset)
      rw [(sound.single path).tail_eq] at left
      by_cases whole : (extend upload chunk offset).data.length = (extend upload chunk offset).size
      · rw [agrees.partial?_eq, partial?_eq_head?, left, if_pos whole] at begun
        exact absurd rfl begun
      · refine agrees.lacks ⟨extend upload chunk offset, ?_, expected, ?_⟩
        · rw [partial?_eq_head?, left, if_neg whole, List.head?_cons]
        · exact expected ▸ Nat.lt_of_le_of_ne within whole
  | discards same =>
      have gone : (endpoint.pending.filter (·.path != path)).find? (·.path == path) = none := by
        rw [List.find?_eq_none]
        intro upload member
        simpa using (List.mem_filter.mp member).2
      exact absurd ((same.agreesOn path).partial?_eq.trans gone) begun

end Endpoint

/-! ## Whatever happens -/

namespace Exchange

open Endpoint

/-- What happens to an endpoint: a client moves, or a canned answer is put behind those that wait. -/
inductive Event where
  | move (move : Move)
  | cannedCreate (answer : CannedAnswer)
  | cannedChunk (answer : CannedAnswer)
  | cannedStatus (answer : CannedAnswer)

/-- The exchange after an event. -/
def next (exchange : Exchange) : Event → Exchange
  | .move move => exchange.after move
  | .cannedCreate answer =>
    { exchange with endpoint.createScript := exchange.endpoint.createScript ++ [answer] }
  | .cannedChunk answer =>
    { exchange with endpoint.chunkScript := exchange.endpoint.chunkScript ++ [answer] }
  | .cannedStatus answer =>
    { exchange with endpoint.statusScript := exchange.endpoint.statusScript ++ [answer] }

/-- The path that an event is about; that of an answer is the path of the chunk call. -/
def Event.path? (exchange : Exchange) : Event → Option String
  | .move (.create path _) | .move (.receive path _ _) => some path
  | .move (.answer position) => (exchange.waiting[position]?).map (·.path)
  | .move (.status path) | .move (.delete path) => some path
  | .move .list | .cannedCreate _ | .cannedChunk _ | .cannedStatus _ => none

/-- Whether a canned answer is put in place, or given to a call. -/
def Event.isCanned (exchange : Exchange) : Event → Bool
  | .move (.create _ _) => !exchange.endpoint.createScript.isEmpty
  | .move (.answer position) => (exchange.waiting[position]?).any (·.canned.isSome)
  | .move (.status _) => !exchange.endpoint.statusScript.isEmpty
  | .move (.receive _ _ _) | .move (.delete _) | .move .list => false
  | .cannedCreate _ | .cannedChunk _ | .cannedStatus _ => true

variable {exchange : Exchange} {path : String} {size : Nat} {event : Event} {events : List Event}

theorem writes_next (about : event.path? exchange = some path) :
    Writes path exchange.endpoint (exchange.next event).endpoint := by
  cases event with
  | move move =>
      cases move with
      | create opened size =>
          cases about
          exact writes_create exchange.endpoint path size
      | receive sent content offset =>
          cases about
          exact .nothing (storesSame_receiveChunk exchange.endpoint path content offset)
      | answer position =>
          obtain ⟨call, found, rfl⟩ := Option.map_eq_some_iff.mp about
          simp only [next, after, found]
          exact writes_answerChunk exchange.endpoint call
      | status asked =>
          cases about
          exact .nothing (storesSame_status exchange.endpoint path)
      | delete given =>
          cases about
          exact writes_delete exchange.endpoint path
      | list => cases about
  | cannedCreate | cannedChunk | cannedStatus => cases about

theorem storesSame_next (about : event.path? exchange = none) :
    StoresSame exchange.endpoint (exchange.next event).endpoint := by
  cases event with
  | move move =>
      cases move with
      | answer position =>
          have missing := Option.map_eq_none_iff.mp about
          simp only [next, after, missing]
          exact ⟨rfl, rfl⟩
      | list => exact ⟨rfl, rfl⟩
      | create | receive | status | delete => cases about
  | cannedCreate | cannedChunk | cannedStatus => exact ⟨rfl, rfl⟩

/-- An event about another path, or about none, changes nothing of a path. -/
theorem agreesOn_next (elsewhere : event.path? exchange ≠ some path) :
    AgreesOn path exchange.endpoint (exchange.next event).endpoint := by
  cases about : event.path? exchange with
  | none => exact (storesSame_next about).agreesOn path
  | some other =>
      refine (writes_next about).agreesOn ?_
      rintro rfl
      exact elsewhere about

/-- A canned answer stores nothing, when it is put in place and when it is given. -/
theorem storesSame_of_isCanned (canned : event.isCanned exchange = true) :
    StoresSame exchange.endpoint (exchange.next event).endpoint := by
  cases event with
  | move move =>
      cases move with
      | create path size =>
          cases scripted : exchange.endpoint.createScript with
          | nil => simp [Event.isCanned, scripted] at canned
          | cons first rest =>
              simp only [next, after, create_of_cons scripted]
              exact ⟨rfl, rfl⟩
      | answer position =>
          obtain ⟨call, found, given⟩ := (Option.any_eq_true _ _).mp canned
          obtain ⟨answer, set_aside⟩ := Option.isSome_iff_exists.mp given
          simp only [next, after, found, answerChunk, set_aside]
          exact ⟨rfl, rfl⟩
      | status path => exact storesSame_status exchange.endpoint path
      | receive | delete | list => cases canned
  | cannedCreate | cannedChunk | cannedStatus => exact ⟨rfl, rfl⟩

theorem sound_next
    (sound : exchange.endpoint.Sound)
    (event : Event) :
    (exchange.next event).endpoint.Sound := by
  cases about : event.path? exchange with
  | none => exact (storesSame_next about).sound sound
  | some path => exact sound.writes (writes_next about)

theorem sound_of_events
    (sound : exchange.endpoint.Sound)
    (events : List Event) :
    (events.foldl next exchange).endpoint.Sound := by
  induction events generalizing exchange with
  | nil => exact sound
  | cons event rest later => exact later (sound_next sound event)

/-! ## Who opened an upload -/

/--
A create call has opened an upload of a path where none was begun, and one has been begun there ever
since.
-/
def OpenedBy (path : String) (size : Nat) (start : Exchange) (events : List Event) : Prop :=
  ∃ earlier later,
    events = earlier ++ .move (.create path size) :: later ∧
      (earlier.foldl next start).endpoint.partial? path = none ∧
      ∀ reached ∈ later.scanl next ((earlier.foldl next start).next (.move (.create path size))),
        reached.endpoint.partial? path ≠ none

theorem lacks_next
    (lacks : exchange.endpoint.Lacks path size)
    (sound : exchange.endpoint.Sound)
    (begun : (exchange.next event).endpoint.partial? path ≠ none) :
    (exchange.next event).endpoint.Lacks path size := by
  by_cases about : event.path? exchange = some path
  · exact lacks.writes sound (writes_next about) begun
  · exact (agreesOn_next about).lacks lacks

theorem lacks_of_events
    (lacks : exchange.endpoint.Lacks path size)
    (sound : exchange.endpoint.Sound)
    (begun : ∀ reached ∈ events.scanl next exchange, reached.endpoint.partial? path ≠ none) :
    (events.foldl next exchange).endpoint.Lacks path size := by
  induction events generalizing exchange with
  | nil => exact lacks
  | cons event rest later =>
      rw [List.scanl_cons, List.forall_mem_cons] at begun
      have first := begun.2 _ (List.mem_of_head? List.head?_scanl)
      exact later (lacks_next lacks sound first) (sound_next sound event) begun.2

/-- An upload that a call has opened is not whole as long as it is begun. -/
theorem OpenedBy.lacks
    {start : Exchange}
    (opened : OpenedBy path size start events)
    (sound : start.endpoint.Sound)
    (nonempty : 0 < size) :
    (events.foldl next start).endpoint.Lacks path size := by
  obtain ⟨earlier, later, rfl, missing, begun⟩ := opened
  rw [List.foldl_append, List.foldl_cons]
  have before := sound_of_events sound earlier
  have first := begun _ (List.mem_of_head? List.head?_scanl)
  exact lacks_of_events (lacks_create missing first nonempty) (sound_next before _) begun

/-! ## From what was put in beforehand -/

/-- An endpoint in which these uploads were put before anything happens. -/
def seeded (seeds : List PartialUpload) : Exchange where
  endpoint := seeds.foldl (fun endpoint upload => endpoint.seed upload.path upload.size upload.data) {}

theorem endpoint_seeded
    (seeds : List PartialUpload) :
    (seeded seeds).endpoint = { pending := seeds } := by
  suffices put : ∀ endpoint : Endpoint,
      seeds.foldl (fun endpoint upload => endpoint.seed upload.path upload.size upload.data) endpoint =
        { endpoint with pending := endpoint.pending ++ seeds } from
    put {}
  induction seeds with
  | nil =>
      intro endpoint
      rw [List.foldl_nil, List.append_nil]
  | cons upload rest later =>
      intro endpoint
      rw [List.foldl_cons, later, seed, List.append_assoc]
      rfl

theorem sound_seeded
    {seeds : List PartialUpload}
    (distinct : (seeds.map (·.path)).Nodup)
    (within : ∀ upload ∈ seeds, upload.data.length ≤ upload.size) :
    (seeded seeds).endpoint.Sound := by
  rw [endpoint_seeded]
  exact ⟨distinct, fun _ _ => rfl, within⟩

/--
Whatever happens to an endpoint in which uploads of distinct paths were put, none with more bytes than
it expects: the uploads that are begun have distinct paths, none of which is completed, and none has
more bytes than it expects, and fewer if it was opened by a call that expects some.  No difference falls
below zero when a chunk is appended.  An event changes nothing of a path that it is not about, and a
canned answer changes nothing at all that is stored.
-/
theorem storage_of_events
    {seeds : List PartialUpload}
    (distinct : (seeds.map (·.path)).Nodup)
    (within : ∀ upload ∈ seeds, upload.data.length ≤ upload.size)
    (events : List Event) :
    let exchange := events.foldl next (seeded seeds)
    (exchange.endpoint.pending.map (·.path)).Nodup ∧
      (∀ upload ∈ exchange.endpoint.pending,
        exchange.endpoint.completed? upload.path = none ∧
          upload.data.length ≤ upload.size ∧
          ∀ size, 0 < size → OpenedBy upload.path size (seeded seeds) events →
            upload.data.length < upload.size) ∧
      (∀ path content offset,
        exchange.endpoint.append? path content offset =
          some (exchange.endpoint.append path content offset)) ∧
      ∀ event,
        (∀ path, event.path? exchange ≠ some path →
          AgreesOn path exchange.endpoint (exchange.next event).endpoint) ∧
        (event.isCanned exchange = true →
          StoresSame exchange.endpoint (exchange.next event).endpoint) := by
  intro exchange
  have start := sound_seeded distinct within
  have sound : exchange.endpoint.Sound := sound_of_events start events
  refine ⟨sound.distinct, ?_, sound.append?_eq, ?_⟩
  · intro upload member
    refine ⟨sound.apart upload member, sound.within upload member, ?_⟩
    intro size nonempty opened
    obtain ⟨begun, found, expected, lacking⟩ := opened.lacks start nonempty
    cases found.symm.trans (sound.partial?_of_mem member)
    exact expected ▸ lacking
  · intro event
    exact ⟨fun path elsewhere => agreesOn_next elsewhere, storesSame_of_isCanned⟩

/-- One upload is put in with a byte, another one whole. -/
def putInBefore : List PartialUpload :=
  [⟨"a", 2, [1]⟩, ⟨"c", 1, [9]⟩]

/--
The first is completed by a chunk that overlaps it, and is opened again; meanwhile a third one is opened,
and its first chunk is sent twice, since a canned answer is given to the chunk that came first.
-/
def openedAgain : List Event :=
  [ .move (.create "b" 2), .move (.receive "a" (Base64.encode [1, 2]) 0), .cannedChunk (.uploaded 7),
    .move (.receive "b" (Base64.encode [5]) 0), .move (.answer 1), .move (.answer 0),
    .move (.receive "b" (Base64.encode [5]) 0), .move (.answer 0), .move (.create "a" 2) ]

theorem opened_again_is_stored_once :
    let exchange := openedAgain.foldl next (seeded putInBefore)
    (putInBefore.map (·.path)).Nodup ∧
      (∀ upload ∈ putInBefore, upload.data.length ≤ upload.size) ∧
      exchange.endpoint.pending = [⟨"c", 1, [9]⟩, ⟨"b", 2, [5]⟩, ⟨"a", 2, []⟩] ∧
      (exchange.endpoint.pending.map (·.path)).Nodup ∧
      exchange.endpoint.completed? "a" = none ∧
      OpenedBy "b" 2 (seeded putInBefore) openedAgain ∧
      (∃ upload ∈ exchange.endpoint.pending,
        upload.path = "b" ∧ upload.data.length < upload.size) ∧
      exchange.endpoint.append? "b" (Base64.encode [6]) 1 =
        some (exchange.endpoint.append "b" (Base64.encode [6]) 1) ∧
      AgreesOn "a" exchange.endpoint (exchange.next (.move (.delete "b"))).endpoint := by
  intro exchange
  have distinct : (putInBefore.map (·.path)).Nodup := by decide
  have within : ∀ upload ∈ putInBefore, upload.data.length ≤ upload.size := by decide
  have pending :
      exchange.endpoint.pending = [⟨"c", 1, [9]⟩, ⟨"b", 2, [5]⟩, ⟨"a", 2, []⟩] := by decide
  have opened : OpenedBy "b" 2 (seeded putInBefore) openedAgain :=
    ⟨[], openedAgain.tail, rfl, by decide, by decide⟩
  obtain ⟨paths, uploads, differences, events⟩ := storage_of_events distinct within openedAgain
  have second : (⟨"b", 2, [5]⟩ : PartialUpload) ∈ exchange.endpoint.pending := by
    rw [pending]
    exact .tail _ (.head _)
  have third : (⟨"a", 2, []⟩ : PartialUpload) ∈ exchange.endpoint.pending := by
    rw [pending]
    exact .tail _ (.tail _ (.head _))
  have lacking := (uploads _ second).2.2 2 (by decide) opened
  exact ⟨distinct, within, pending, paths, (uploads _ third).1, opened, ⟨_, second, rfl, lacking⟩,
    differences "b" (Base64.encode [6]) 1, (events _).1 "a" (by decide)⟩

end Exchange

end ResumableUpload
