import ResumableUpload.Http.Reply

/-!
# What a reply means to an upload

Two layers decide what becomes of a reply.  The first one reads a payload from the bytes of a reply
with status 200 or 304 and reports a failure if it cannot; the second one judges the status and the
payload.  Together they follow one rule (`Judged`): a reply is accepted or not, whatever statuses are
fatal; one that is not accepted is fatal if its status is, unless it carries bytes that should have
been a payload and are none; every other one is worth a retry.

The bytes of a reply with another status mean nothing (`answerGiven_of_bare`), and what is wrong with
bytes that are no payload makes no difference either, whatever the reader says about it.  A request that
brings no final reply is worth a retry as well (`Delivery.answer_of_unreceived`).
-/

namespace ResumableUpload.Http

variable {α : Type} {complaint : Bytes → String} {read : Json.Value → Option α} {status : Nat}
variable {body : Bytes}

/-! ## Reading a reply -/

/-- The payload that the bytes of a reply are read as. -/
def payload? (read : Json.Value → Option α) (body : Bytes) : Option α :=
  (Json.parseBytes? body).bind read

/-- A reply carries bytes that should be a payload and are none. -/
def Garbled (read : Json.Value → Option α) (status : Nat) (body : Bytes) : Prop :=
  carriesPayload status = true ∧ body ≠ [] ∧ payload? read body = none

/-- What a reply may be taken for. -/
inductive Taken (read : Json.Value → Option α) (status : Nat) (body : Bytes) : Answer α → Prop where
  | read {payload : α}
      (carries : carriesPayload status = true)
      (found : payload? read body = some payload) :
      Taken read status body (.ok ⟨status, some payload⟩)
  | bare (unread : carriesPayload status = false ∨ body = []) :
      Taken read status body (.ok ⟨status, none⟩)
  | garbled {reason : String}
      (garbled : Garbled read status body) :
      Taken read status body (.error (.decode reason))

theorem not_garbled_of_payload?
    {payload : α}
    (found : payload? read body = some payload) :
    ¬ Garbled read status body := by
  rintro ⟨_, _, none⟩
  cases none.symm.trans found

theorem not_garbled_of_bare (unread : carriesPayload status = false ∨ body = []) :
    ¬ Garbled read status body := by
  rintro ⟨carries, nonempty, _⟩
  rcases unread with other | empty
  · cases other.symm.trans carries
  · exact nonempty empty

theorem answerGiven_of_bare (unread : carriesPayload status = false ∨ body = []) :
    answerGiven complaint read status body = .ok ⟨status, none⟩ := by
  unfold answerGiven
  rcases unread with bare | rfl
  · simp [bare]
  · simp

theorem taken_answerGiven
    (complaint : Bytes → String)
    (read : Json.Value → Option α)
    (status : Nat)
    (body : Bytes) :
    Taken read status body (answerGiven complaint read status body) := by
  by_cases bare : carriesPayload status = false ∨ body = []
  · rw [answerGiven_of_bare bare]
    exact .bare bare
  · rw [not_or, Bool.not_eq_false] at bare
    obtain ⟨carries, nonempty⟩ := bare
    have present : (carriesPayload status && !body.isEmpty) = true := by simp [carries, nonempty]
    unfold answerGiven
    rw [if_pos present]
    split
    case h_1 payload found => exact .read carries found
    case h_2 none => exact .garbled ⟨carries, nonempty, none⟩

/-! ## Judging it -/

/-- The rule by which a reply is judged, given which payloads it is accepted with. -/
structure Judged {β : Type}
    (policy : Policy)
    (status : Nat)
    (accepted : β → Prop)
    (garbled : Prop)
    (verdict : Verdict β) : Prop where
  success : ∀ payload, verdict = .success payload ↔ accepted payload
  fatal :
    ∀ number,
      verdict = .fatal number ↔
        number = status ∧ policy.isFatal status = true ∧ (∀ payload, ¬ accepted payload) ∧
          ¬ garbled
  retryable :
    (∃ reason, verdict = .retryable reason) ↔
      (∀ payload, ¬ accepted payload) ∧ (policy.isFatal status = false ∨ garbled)

namespace Judged

variable {β : Type} {policy : Policy} {accepted : β → Prop} {garbled : Prop} {reason : String}

theorem of_accepted
    {payload : β}
    (only : ∀ other, accepted other ↔ other = payload) :
    Judged policy status accepted garbled (.success payload) where
  success other := by
    rw [only other, Verdict.success.injEq]
    exact eq_comm
  fatal number := by
    constructor
    · rintro ⟨⟩
    · rintro ⟨_, _, refused, _⟩
      exact absurd ((only payload).mpr rfl) (refused payload)
  retryable := by
    constructor
    · rintro ⟨_, ⟨⟩⟩
    · rintro ⟨refused, _⟩
      exact absurd ((only payload).mpr rfl) (refused payload)

theorem of_garbled
    (refused : ∀ payload, ¬ accepted payload)
    (unreadable : garbled) :
    Judged policy status accepted garbled (.retryable reason) where
  success payload := by simp [refused]
  fatal number := by simp [unreadable]
  retryable := by simp [refused, unreadable]

theorem of_refused
    (refused : ∀ payload, ¬ accepted payload)
    (readable : ¬ garbled) :
    Judged policy status accepted garbled
      (if policy.isFatal status = true then .fatal status else .retryable reason) := by
  by_cases fatal : policy.isFatal status = true
  · rw [if_pos fatal]
    constructor
    · simp [refused]
    · simp [fatal, refused, readable, eq_comm]
    · simp [fatal, readable]
  · rw [if_neg fatal]
    constructor
    · simp [refused]
    · simp [fatal]
    · simp [fatal, refused]

end Judged

end ResumableUpload.Http

namespace ResumableUpload.Policy

variable {α : Type} {status : Nat} {found : Option α}

/-- Without a payload or with another status than 200, what counts is whether the status is fatal. -/
theorem classify_of_refused
    (policy : Policy)
    (refused : status ≠ Status.ok ∨ found = none) :
    ∃ reason,
      policy.classify (.ok ⟨status, found⟩) =
        if policy.isFatal status = true then .fatal status else .retryable reason := by
  cases found with
  | none =>
      refine ⟨if status = Status.ok then "response without payload" else unexpected status, ?_⟩
      unfold classify
      dsimp only
      rw [← apply_ite Verdict.retryable]
  | some payload =>
      have other : status ≠ Status.ok := refused.resolve_right (Option.some_ne_none payload)
      exact ⟨unexpected status, if_neg other⟩

end ResumableUpload.Policy

namespace ResumableUpload.Http

variable {α : Type} {read : Json.Value → Option α} {status : Nat} {body : Bytes}

theorem judged_classify
    (policy : Policy)
    (complaint : Bytes → String)
    (read : Json.Value → Option α)
    (status : Nat)
    (body : Bytes) :
    Judged policy status (fun payload => status = Status.ok ∧ payload? read body = some payload)
      (Garbled read status body) (policy.classify (answerGiven complaint read status body)) := by
  have taken := taken_answerGiven complaint read status body
  generalize answerGiven complaint read status body = answer at taken ⊢
  cases taken with
  | @read payload _ found =>
      by_cases ok : status = Status.ok
      · have success : policy.classify (.ok ⟨status, some payload⟩) = .success payload := if_pos ok
        rw [success]
        refine .of_accepted fun other => ?_
        rw [found, Option.some.injEq]
        exact ⟨fun accepted => accepted.2.symm, fun same => ⟨ok, same.symm⟩⟩
      · obtain ⟨reason, same⟩ := policy.classify_of_refused (.inl ok)
        rw [same]
        exact .of_refused (fun _ accepted => ok accepted.1) (not_garbled_of_payload? found)
  | bare unread =>
      obtain ⟨reason, same⟩ := policy.classify_of_refused (.inr rfl)
      rw [same]
      refine .of_refused ?_ (not_garbled_of_bare unread)
      rintro payload ⟨rfl, found⟩
      rcases unread with other | rfl
      · cases other
      · cases found
  | garbled garbled =>
      refine .of_garbled ?_ garbled
      rintro payload ⟨_, found⟩
      exact not_garbled_of_payload? found garbled

theorem judged_classifyCreate
    (policy : Policy)
    (complaint : Bytes → String)
    (read : Json.Value → Option α)
    (status : Nat)
    (body : Bytes) :
    Judged policy status
      (fun found =>
        Status.isCreated status = true ∧
          (body = [] ∧ found = none ∨
            ∃ payload, found = some payload ∧ payload? read body = some payload))
      (Garbled read status body) (policy.classifyCreate (answerGiven complaint read status body)) := by
  have taken := taken_answerGiven complaint read status body
  generalize answerGiven complaint read status body = answer at taken ⊢
  by_cases created : Status.isCreated status = true
  · -- Whatever could be read is accepted, and so is an empty body.
    have success (found : Option α) :
        policy.classifyCreate (.ok ⟨status, found⟩) = .success found :=
      if_pos created
    cases taken with
    | @read payload _ found =>
        rw [success]
        refine .of_accepted fun other => ?_
        rw [found]
        constructor
        · rintro ⟨_, ⟨rfl, _⟩ | ⟨_, rfl, same⟩⟩
          · cases found
          · exact same.symm
        · rintro rfl
          exact ⟨created, .inr ⟨payload, rfl, rfl⟩⟩
    | bare unread =>
        rw [success]
        obtain rfl : body = [] := by
          rcases unread with other | empty
          · cases other.symm.trans created
          · exact empty
        refine .of_accepted fun other => ?_
        constructor
        · rintro ⟨_, ⟨_, none⟩ | ⟨_, rfl, found⟩⟩
          · exact none
          · cases found
        · rintro rfl
          exact ⟨created, .inl ⟨rfl, rfl⟩⟩
    | garbled garbled =>
        refine .of_garbled ?_ garbled
        rintro found ⟨_, ⟨empty, _⟩ | ⟨payload, rfl, found⟩⟩
        · exact garbled.2.1 empty
        · exact not_garbled_of_payload? found garbled
  · have bare : carriesPayload status = false := Bool.eq_false_iff.mpr created
    have refused (found : Option α) :
        policy.classifyCreate (.ok ⟨status, found⟩) =
          if policy.isFatal status = true then .fatal status
          else .retryable (Policy.unexpected status) :=
      if_neg created
    cases taken with
    | read carries => cases bare.symm.trans carries
    | bare unread =>
        rw [refused]
        exact .of_refused (fun _ accepted => created accepted.1) (not_garbled_of_bare unread)
    | garbled garbled => cases bare.symm.trans garbled.1

/-! ## A whole exchange -/

/-- The final reply that a delivery brings, with the bytes that reach the caller. -/
def Delivery.received? : Delivery → Option (Nat × Bytes)
  | .reply status body =>
    if isFinal status then some (status, if isBodiless status then [] else body) else none
  | _ => none

theorem Delivery.answer_of_received
    {delivery : Delivery}
    (received : delivery.received? = some (status, body))
    (address : String)
    (judge : Nat → Bytes → Answer α) :
    delivery.answer address judge = judge status body := by
  cases delivery with
  | reply number bytes =>
      by_cases final : isFinal number = true
      · rw [received?, if_pos final] at received
        cases received
        exact if_pos final
      · rw [received?, if_neg final] at received
        cases received
  | closed | refused | silent => cases received

/-- Without a final reply the call fails. -/
theorem Delivery.answer_of_unreceived
    {delivery : Delivery}
    (unreceived : delivery.received? = none)
    (address : String)
    (judge : Nat → Bytes → Answer α) :
    ∃ error, delivery.answer address judge = .error error := by
  cases delivery with
  | reply number bytes =>
      by_cases final : isFinal number = true
      · rw [received?, if_pos final] at unreceived
        cases unreceived
      · exact ⟨_, if_neg final⟩
  | closed | refused | silent => exact ⟨_, rfl⟩

/--
A chunk or status reply is accepted just if its status is 200 and its bytes are the payload; a create
reply just if its status is 200 or 304 and its bytes are the payload or there are none.  Of the
others those with a fatal status are fatal, unless they have the status 200 or 304 and bytes that are
not the payload; all that are left are worth a retry.  The bytes of a reply with another status make
no difference, nor does what the reader says about bytes that are not the payload, and a call that
brings no final reply is worth a retry.
-/
theorem verdict_of_reply
    (policy : Policy)
    (complaint : Bytes → String) :
    (∀ (status : Nat) (body : Bytes),
      Judged policy status
          (fun reply => status = Status.ok ∧ payload? StatusReply.ofJson? body = some reply)
          (Garbled StatusReply.ofJson? status body)
          (policy.classify (answerGiven complaint StatusReply.ofJson? status body)) ∧
        Judged policy status
          (fun found =>
            Status.isCreated status = true ∧
              (body = [] ∧ found = none ∨
                ∃ reply, found = some reply ∧ payload? CreateReply.ofJson? body = some reply))
          (Garbled CreateReply.ofJson? status body)
          (policy.classifyCreate (answerGiven complaint CreateReply.ofJson? status body)) ∧
        (carriesPayload status = true ∨
          ∀ {α : Type} (read : Json.Value → Option α) (other : Bytes),
            answerGiven complaint read status body = answerGiven complaint read status other)) ∧
      ∀ (address : String) (delivery : Delivery),
        (∃ status body,
          delivery.received? = some (status, body) ∧
            ∀ {α : Type} (read : Json.Value → Option α),
              delivery.answer address (answerGiven complaint read) =
                answerGiven complaint read status body) ∨
          delivery.received? = none ∧
            (∃ reason,
              policy.classify
                  (delivery.answer address (answerGiven complaint StatusReply.ofJson?)) =
                .retryable reason) ∧
            ∃ reason,
              policy.classifyCreate
                  (delivery.answer address (answerGiven complaint CreateReply.ofJson?)) =
                .retryable reason := by
  constructor
  · intro status body
    refine ⟨judged_classify policy _ _ status body, judged_classifyCreate policy _ _ status body,
      ?_⟩
    cases carries : carriesPayload status with
    | true => exact .inl rfl
    | false =>
        refine .inr fun read other => ?_
        rw [answerGiven_of_bare (.inl carries), answerGiven_of_bare (.inl carries)]
  · intro address delivery
    cases received : delivery.received? with
    | some reply =>
        refine .inl ⟨reply.1, reply.2, rfl, fun read => ?_⟩
        exact Delivery.answer_of_received received address (answerGiven complaint read)
    | none =>
        obtain ⟨error, failed⟩ :=
          Delivery.answer_of_unreceived received address
            (answerGiven complaint StatusReply.ofJson?)
        obtain ⟨other, also⟩ :=
          Delivery.answer_of_unreceived received address
            (answerGiven complaint CreateReply.ofJson?)
        rw [failed, also]
        exact .inr ⟨rfl, ⟨_, rfl⟩, _, rfl⟩

/-- Where the status 200 is fatal, no bytes end an upload, but bytes that are no payload do not. -/
example :
    (Policy.mk [200]).classify (answerOf StatusReply.ofJson? 200 []) = .fatal 200 ∧
      (Policy.mk [200]).classify (answerOf StatusReply.ofJson? 200 [0x78]) =
        .retryable (TransportError.decode "unexpected payload").message := by
  decide

end ResumableUpload.Http
