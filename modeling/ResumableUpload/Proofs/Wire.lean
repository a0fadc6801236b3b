import ResumableUpload.Proofs.Json.RoundTrip
import ResumableUpload.Wire

/-!
# Payloads on the wire

A payload of any kind is written as a record of its fields, in the order in which the kind declares
them and without blanks, and is read back from that text (`parse?_text`).  The reader also takes
other texts, such as records with further keys or arrays of fields; what it reads from them fits
into sixty-four bits, and so survives being written and read again.
-/

namespace ResumableUpload

open Json (Value largestWord)

section Options

variable {α β : Type} {read : α → Option β} {values : List α}

theorem mapM_eq_some_map
    {result : α → β}
    (each : ∀ value ∈ values, read value = some (result value)) :
    values.mapM read = some (values.map result) := by
  induction values with
  | nil => rfl
  | cons value others later =>
      obtain ⟨first, remaining⟩ := List.forall_mem_cons.mp each
      simp [List.mapM_cons, first, later remaining]

theorem exists_of_mapM_eq_some
    {results : List β}
    (all : values.mapM read = some results) :
    ∀ result ∈ results, ∃ value ∈ values, read value = some result := by
  induction values generalizing results with
  | nil =>
      cases all
      rintro result ⟨⟩
  | cons value others later =>
      simp only [List.mapM_cons, Option.bind_eq_bind, Option.pure_def, Option.bind_eq_some_iff,
        Option.some.injEq] at all
      obtain ⟨first, here, remaining, rest, rfl⟩ := all
      intro result member
      rcases List.mem_cons.mp member with rfl | further
      · exact ⟨value, List.mem_cons_self, here⟩
      · obtain ⟨other, inside, there⟩ := later rest result further
        exact ⟨other, List.mem_cons_of_mem _ inside, there⟩

end Options

/-! ## Fields of a record -/

namespace Json.Value

variable {members : List (String × Value)}

theorem unique?_of_mem
    {member : String × Value}
    (distinct : (members.map Prod.fst).Nodup)
    (inside : member ∈ members) :
    unique? member.1 members = some (some member.2) := by
  induction members with
  | nil => cases inside
  | cons first others later =>
      obtain ⟨fresh, remaining⟩ := List.nodup_cons.mp distinct
      rcases List.mem_cons.mp inside with rfl | further
      · -- No other member has the key of the first one.
        have alone : others.filter (fun other => other.1 == member.1) = [] := by
          refine List.filter_eq_nil_iff.mpr fun other among same => fresh ?_
          exact beq_iff_eq.mp same ▸ List.mem_map_of_mem among
        simp only [unique?, List.filter_cons, beq_self_eq_true, ↓reduceIte, alone]
      · have other : (first.1 == member.1) = false := by
          refine beq_eq_false_iff_ne.mpr fun same => fresh ?_
          exact same ▸ List.mem_map_of_mem further
        have found := later remaining further
        rw [unique?] at found ⊢
        rw [List.filter_cons, other]
        exact found

/-- Asked for its keys, a record gives the values that stand beside them. -/
theorem fields?_record (distinct : (members.map Prod.fst).Nodup) :
    (record members).fields? (members.map Prod.fst) =
      some (members.map fun member => some member.2) := by
  have named :
      (members.map fun member => (some member.1, member.2)).mapM
          (fun member : Option String × Value => member.1.map (·, member.2)) =
        some members := by
    rw [List.mapM_map]
    exact (mapM_eq_some_map fun _ _ => rfl).trans (congrArg some members.map_id)
  have found :
      (members.map Prod.fst).mapM (fun key => unique? key members) =
        some (members.map fun member => some member.2) := by
    rw [List.mapM_map]
    exact mapM_eq_some_map fun member inside => unique?_of_mem distinct inside
  simp only [record, fields?]
  exact Option.bind_eq_some_iff.mpr ⟨members, named, found⟩

theorem text?_ofText (text : String) : (ofText text).text? = some text :=
  rfl

theorem word?_ofNat
    {number : Nat}
    (fits : number ≤ largestWord) :
    (ofNat number).word? = some number :=
  Number.toNat?_ofNat fits

theorem le_of_word?
    {value : Value}
    {number : Nat}
    (read : value.word? = some number) :
    number ≤ largestWord := by
  cases value with
  | number written =>
      simp only [word?, nat?, Number.toNat?] at read
      split at read
      · cases read
      · split at read
        · rename_i within
          exact Option.some.inj read ▸ within
        · cases read
  | _ => cases read

end Json.Value

/-! ## Each payload -/

namespace CreateRequest

theorem ofJson?_toJson
    {request : CreateRequest}
    (fits : request.fileSize ≤ largestWord) :
    ofJson? request.toJson = some request := by
  have read :
      request.toJson.fields? ["path", "fileSize"] =
        some [some (.ofText request.path), some (.ofNat request.fileSize)] :=
    Value.fields?_record (show List.Nodup ["path", "fileSize"] by decide)
  simp only [ofJson?, read, Option.bind_eq_bind, Option.bind_some, Value.text?_ofText,
    Value.word?_ofNat fits]

theorem fits_of_ofJson?
    {value : Value}
    {request : CreateRequest}
    (read : ofJson? value = some request) :
    request.fileSize ≤ largestWord := by
  simp only [ofJson?, Option.bind_eq_bind, Option.bind_eq_some_iff] at read
  obtain ⟨fields, -, read⟩ := read
  split at read
  · simp only [Option.bind_eq_some_iff, Option.some.injEq] at read
    obtain ⟨path, -, fileSize, fits, rfl⟩ := read
    exact Value.le_of_word? fits
  · cases read

end CreateRequest

namespace ChunkRequest

theorem ofJson?_toJson
    {request : ChunkRequest}
    (fits : request.offset ≤ largestWord) :
    ofJson? request.toJson = some request := by
  have read :
      request.toJson.fields? ["path", "content", "offset"] =
        some
          [some (.ofText request.path), some (.ofText request.content),
            some (.ofNat request.offset)] :=
    Value.fields?_record (show List.Nodup ["path", "content", "offset"] by decide)
  simp only [ofJson?, read, Option.bind_eq_bind, Option.bind_some, Value.text?_ofText,
    Value.word?_ofNat fits]

theorem fits_of_ofJson?
    {value : Value}
    {request : ChunkRequest}
    (read : ofJson? value = some request) :
    request.offset ≤ largestWord := by
  simp only [ofJson?, Option.bind_eq_bind, Option.bind_eq_some_iff] at read
  obtain ⟨fields, -, read⟩ := read
  split at read
  · simp only [Option.bind_eq_some_iff, Option.some.injEq] at read
    obtain ⟨path, -, content, -, offset, fits, rfl⟩ := read
    exact Value.le_of_word? fits
  · cases read

end ChunkRequest

namespace CreateReply

theorem ofJson?_toJson
    {reply : CreateReply}
    (fits : reply.fileSize ≤ largestWord) :
    ofJson? reply.toJson = some reply := by
  have read :
      reply.toJson.fields? ["path", "fileSize"] =
        some [some (.ofText reply.path), some (.ofNat reply.fileSize)] :=
    Value.fields?_record (show List.Nodup ["path", "fileSize"] by decide)
  simp only [ofJson?, read, Option.bind_eq_bind, Option.bind_some, Value.text?_ofText,
    Value.word?_ofNat fits]

theorem fits_of_ofJson?
    {value : Value}
    {reply : CreateReply}
    (read : ofJson? value = some reply) :
    reply.fileSize ≤ largestWord := by
  simp only [ofJson?, Option.bind_eq_bind, Option.bind_eq_some_iff] at read
  obtain ⟨fields, -, read⟩ := read
  split at read
  · simp only [Option.bind_eq_some_iff, Option.some.injEq] at read
    obtain ⟨path, -, fileSize, fits, rfl⟩ := read
    exact Value.le_of_word? fits
  · cases read

end CreateReply

namespace StatusReply

theorem ofJson?_toJson
    {reply : StatusReply}
    (first : reply.uploaded ≤ largestWord)
    (second : reply.fileSize ≤ largestWord) :
    ofJson? reply.toJson = some reply := by
  have read :
      reply.toJson.fields? ["path", "uploaded", "fileSize"] =
        some
          [some (.ofText reply.path), some (.ofNat reply.uploaded), some (.ofNat reply.fileSize)] :=
    Value.fields?_record (show List.Nodup ["path", "uploaded", "fileSize"] by decide)
  simp only [ofJson?, read, Option.bind_eq_bind, Option.bind_some, Value.text?_ofText,
    Value.word?_ofNat first, Value.word?_ofNat second]

theorem fits_of_ofJson?
    {value : Value}
    {reply : StatusReply}
    (read : ofJson? value = some reply) :
    reply.uploaded ≤ largestWord ∧ reply.fileSize ≤ largestWord := by
  simp only [ofJson?, Option.bind_eq_bind, Option.bind_eq_some_iff] at read
  obtain ⟨fields, -, read⟩ := read
  split at read
  · simp only [Option.bind_eq_some_iff, Option.some.injEq] at read
    obtain ⟨path, -, uploaded, first, fileSize, second, rfl⟩ := read
    exact ⟨Value.le_of_word? first, Value.le_of_word? second⟩
  · cases read

end StatusReply

namespace PartialInfo

theorem ofJson?_toJson
    {info : PartialInfo}
    (first : info.size ≤ largestWord)
    (second : info.uploaded ≤ largestWord) :
    ofJson? info.toJson = some info := by
  have read :
      info.toJson.fields? ["realFilePath", "size", "uploaded"] =
        some [some (.ofText info.path), some (.ofNat info.size), some (.ofNat info.uploaded)] :=
    Value.fields?_record (show List.Nodup ["realFilePath", "size", "uploaded"] by decide)
  simp only [ofJson?, read, Option.bind_eq_bind, Option.bind_some, Value.text?_ofText,
    Value.word?_ofNat first, Value.word?_ofNat second]

theorem fits_of_ofJson?
    {value : Value}
    {info : PartialInfo}
    (read : ofJson? value = some info) :
    info.size ≤ largestWord ∧ info.uploaded ≤ largestWord := by
  simp only [ofJson?, Option.bind_eq_bind, Option.bind_eq_some_iff] at read
  obtain ⟨fields, -, read⟩ := read
  split at read
  · simp only [Option.bind_eq_some_iff, Option.some.injEq] at read
    obtain ⟨path, -, size, first, uploaded, second, rfl⟩ := read
    exact ⟨Value.le_of_word? first, Value.le_of_word? second⟩
  · cases read

theorem legible_toJson (info : PartialInfo) : info.toJson.Legible := by
  refine .record ?_
  simp [Value.Legible.text, Value.legible_ofNat]

end PartialInfo

namespace ListReply

theorem ofJson?_toJson
    {reply : ListReply}
    (fits : ∀ info ∈ reply.infos, info.size ≤ largestWord ∧ info.uploaded ≤ largestWord) :
    ofJson? reply.toJson = some reply := by
  have read :
      reply.toJson.fields? ["uploadInfos"] =
        some [some (.array (reply.infos.map PartialInfo.toJson))] :=
    Value.fields?_record (show List.Nodup ["uploadInfos"] by decide)
  have infos :
      (reply.infos.map PartialInfo.toJson).mapM PartialInfo.ofJson? = some reply.infos := by
    rw [List.mapM_map]
    exact
      (mapM_eq_some_map fun info inside =>
        PartialInfo.ofJson?_toJson (fits info inside).1 (fits info inside).2).trans
      (congrArg some reply.infos.map_id)
  simp only [ofJson?, read, Option.bind_eq_bind, Option.bind_some, Value.elements?, infos]

theorem fits_of_ofJson?
    {value : Value}
    {reply : ListReply}
    (read : ofJson? value = some reply) :
    ∀ info ∈ reply.infos, info.size ≤ largestWord ∧ info.uploaded ≤ largestWord := by
  simp only [ofJson?, Option.bind_eq_bind, Option.bind_eq_some_iff] at read
  obtain ⟨fields, -, read⟩ := read
  split at read
  · simp only [Option.bind_eq_some_iff, Option.some.injEq] at read
    obtain ⟨elements, -, infos, all, rfl⟩ := read
    intro info inside
    obtain ⟨element, -, each⟩ := exists_of_mapM_eq_some all info inside
    exact PartialInfo.fits_of_ofJson? each
  · cases read
    rintro info ⟨⟩

end ListReply

/-! ## Kinds of payload -/

namespace Wire

/-- The kinds of payload that travel. -/
inductive Kind where
  | createRequest
  | chunkRequest
  | createReply
  | statusReply
  | partialInfo
  | listReply
deriving DecidableEq, Repr

namespace Kind

/-- The payloads of a kind. -/
def Payload : Kind → Type
  | .createRequest => CreateRequest
  | .chunkRequest => ChunkRequest
  | .createReply => CreateReply
  | .statusReply => StatusReply
  | .partialInfo => PartialInfo
  | .listReply => ListReply

def toJson : (kind : Kind) → kind.Payload → Value
  | .createRequest => CreateRequest.toJson
  | .chunkRequest => ChunkRequest.toJson
  | .createReply => CreateReply.toJson
  | .statusReply => StatusReply.toJson
  | .partialInfo => PartialInfo.toJson
  | .listReply => ListReply.toJson

def ofJson? : (kind : Kind) → Value → Option kind.Payload
  | .createRequest => CreateRequest.ofJson?
  | .chunkRequest => ChunkRequest.ofJson?
  | .createReply => CreateReply.ofJson?
  | .statusReply => StatusReply.ofJson?
  | .partialInfo => PartialInfo.ofJson?
  | .listReply => ListReply.ofJson?

/-- The text that a payload travels as. -/
def text (kind : Kind) (payload : kind.Payload) : String :=
  (kind.toJson payload).render

/-- The payload that a text is. -/
def parse? (kind : Kind) (text : String) : Option kind.Payload :=
  (Json.parse? text).bind kind.ofJson?

/-- The keys of a kind, as declared. -/
def keys : Kind → List String
  | .createRequest => ["path", "fileSize"]
  | .chunkRequest => ["path", "content", "offset"]
  | .createReply => ["path", "fileSize"]
  | .statusReply => ["path", "uploaded", "fileSize"]
  | .partialInfo => ["realFilePath", "size", "uploaded"]
  | .listReply => ["uploadInfos"]

/-- The values that stand beside the keys of a payload. -/
def values : (kind : Kind) → kind.Payload → List Value
  | .createRequest, (request : CreateRequest) => [.ofText request.path, .ofNat request.fileSize]
  | .chunkRequest, (request : ChunkRequest) =>
    [.ofText request.path, .ofText request.content, .ofNat request.offset]
  | .createReply, (reply : CreateReply) => [.ofText reply.path, .ofNat reply.fileSize]
  | .statusReply, (reply : StatusReply) =>
    [.ofText reply.path, .ofNat reply.uploaded, .ofNat reply.fileSize]
  | .partialInfo, (info : PartialInfo) =>
    [.ofText info.path, .ofNat info.size, .ofNat info.uploaded]
  | .listReply, (reply : ListReply) => [.array (reply.infos.map PartialInfo.toJson)]

/-- Every number of the payload has sixty-four bits. -/
def Fits : (kind : Kind) → kind.Payload → Prop
  | .createRequest, (request : CreateRequest) => request.fileSize ≤ largestWord
  | .chunkRequest, (request : ChunkRequest) => request.offset ≤ largestWord
  | .createReply, (reply : CreateReply) => reply.fileSize ≤ largestWord
  | .statusReply, (reply : StatusReply) =>
    reply.uploaded ≤ largestWord ∧ reply.fileSize ≤ largestWord
  | .partialInfo, (info : PartialInfo) => info.size ≤ largestWord ∧ info.uploaded ≤ largestWord
  | .listReply, (reply : ListReply) =>
    ∀ info ∈ reply.infos, info.size ≤ largestWord ∧ info.uploaded ≤ largestWord

variable {kind : Kind} {payload : kind.Payload}

theorem toJson_eq (kind : Kind) (payload : kind.Payload) :
    kind.toJson payload = .record (kind.keys.zip (kind.values payload)) := by
  cases kind <;> rfl

theorem legible_values (kind : Kind) (payload : kind.Payload) :
    ∀ value ∈ kind.values payload, value.Legible := by
  cases kind with
  | listReply =>
      simp only [values, List.forall_mem_singleton]
      refine .array fun element inside => ?_
      obtain ⟨info, -, rfl⟩ := List.mem_map.mp inside
      exact info.legible_toJson
  | _ => simp [values, Value.Legible.text, Value.legible_ofNat]

theorem legible_toJson (kind : Kind) (payload : kind.Payload) : (kind.toJson payload).Legible := by
  rw [toJson_eq]
  exact .record fun member inside => legible_values kind payload _ (List.of_mem_zip inside).2

/-- The value of a payload is read back as the payload. -/
theorem ofJson?_toJson (fits : kind.Fits payload) :
    kind.ofJson? (kind.toJson payload) = some payload := by
  cases kind with
  | createRequest => exact CreateRequest.ofJson?_toJson fits
  | chunkRequest => exact ChunkRequest.ofJson?_toJson fits
  | createReply => exact CreateReply.ofJson?_toJson fits
  | statusReply => exact StatusReply.ofJson?_toJson fits.1 fits.2
  | partialInfo => exact PartialInfo.ofJson?_toJson fits.1 fits.2
  | listReply => exact ListReply.ofJson?_toJson fits

/-- Whatever is read as a payload carries numbers of sixty-four bits. -/
theorem fits_of_ofJson?
    {value : Value}
    (read : kind.ofJson? value = some payload) :
    kind.Fits payload := by
  cases kind with
  | createRequest => exact CreateRequest.fits_of_ofJson? read
  | chunkRequest => exact ChunkRequest.fits_of_ofJson? read
  | createReply => exact CreateReply.fits_of_ofJson? read
  | statusReply => exact StatusReply.fits_of_ofJson? read
  | partialInfo => exact PartialInfo.fits_of_ofJson? read
  | listReply => exact ListReply.fits_of_ofJson? read

theorem parse?_eq_of_fits (fits : kind.Fits payload) :
    kind.parse? (kind.text payload) = some payload := by
  rw [parse?, text, Json.parse?_render (legible_toJson kind payload), Option.bind_some,
    ofJson?_toJson fits]

theorem toList_text (kind : Kind) (payload : kind.Payload) :
    (kind.text payload).toList =
      '\x7b' ::
        ([','].intercalate
            ((kind.keys.zip (kind.values payload)).map fun (key, value) =>
              Json.writtenMember key value) ++
          ['\x7d']) := by
  rw [text, toJson_eq, Value.render, String.toList_ofList, Json.written_record]

/--
A payload whose numbers have sixty-four bits is written as its keys with their values, in the
declared order and without blanks, and is read back from that text.  Whatever text is read as a
payload, be it written otherwise, the payload is read back from the text that it is written as.
-/
theorem parse?_text :
    (∀ (kind : Kind) (payload : kind.Payload),
      kind.Fits payload →
        (kind.text payload).toList =
            '\x7b' ::
              ([','].intercalate
                  ((kind.keys.zip (kind.values payload)).map fun (key, value) =>
                    Json.writtenMember key value) ++
                ['\x7d']) ∧
          kind.parse? (kind.text payload) = some payload) ∧
    ∀ (kind : Kind) (text : String) (payload : kind.Payload),
      kind.parse? text = some payload → kind.parse? (kind.text payload) = some payload := by
  refine ⟨fun kind payload fits => ⟨toList_text kind payload, parse?_eq_of_fits fits⟩, ?_⟩
  intro kind text payload read
  obtain ⟨value, -, taken⟩ := Option.bind_eq_some_iff.mp read
  exact parse?_eq_of_fits (fits_of_ofJson? taken)

/--
A path with a quote, a control character and one beyond the basic plane goes out beside the largest
offset and comes back; so does a list whose parts came as arrays.
-/
theorem parse?_text_chunk_and_list :
    (Fits .chunkRequest (⟨"a\"\x01😀", "AQ==", 18446744073709551615⟩ : ChunkRequest) ∧
      parse? .chunkRequest
          (text .chunkRequest (⟨"a\"\x01😀", "AQ==", 18446744073709551615⟩ : ChunkRequest)) =
        some (⟨"a\"\x01😀", "AQ==", 18446744073709551615⟩ : ChunkRequest)) ∧
    parse? .listReply " [[[\"a\",2,1]]]" = some (⟨[⟨"a", 2, 1⟩]⟩ : ListReply) ∧
      parse? .listReply (text .listReply (⟨[⟨"a", 2, 1⟩]⟩ : ListReply)) =
        some (⟨[⟨"a", 2, 1⟩]⟩ : ListReply) := by
  have fits : Fits .chunkRequest (⟨"a\"\x01😀", "AQ==", 18446744073709551615⟩ : ChunkRequest) :=
    Nat.le_refl _
  have read : parse? .listReply " [[[\"a\",2,1]]]" = some (⟨[⟨"a", 2, 1⟩]⟩ : ListReply) := by
    change (Json.parse? _).bind ListReply.ofJson? = some (⟨[⟨"a", 2, 1⟩]⟩ : ListReply)
    decide +kernel
  exact ⟨⟨fits, (parse?_text.1 _ _ fits).2⟩, read, parse?_text.2 _ _ _ read⟩

end Kind

end Wire

end ResumableUpload
