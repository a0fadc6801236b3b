import ResumableUpload.Proofs.Endpoint.Scripted
import ResumableUpload.Proofs.Transfer.Integrity

/-!
# Transfers that meet with canned failures

To an engine, canned failures are what a lossy network is: a call that meets with one was lost before
the endpoint has served it.  So the engine and an endpoint whose canned answers all are failures stay
faithful to the file (`Faithful.of_serve?`), as they do without canned answers.
-/

namespace ResumableUpload.Transfer

open ResumableUpload.Endpoint

variable {engine next : Engine} {endpoint after : Endpoint} {act : Engine.Act} {bytes : Bytes}

/-! ## Canned failures carry nothing -/

theorem lost_of_fails
    {canned : CannedAnswer}
    (fails : canned.fails = true)
    (reply : Nat → StatusReply) :
    Lost (canned.answer reply) := by
  cases canned with
  | status => exact rfl
  | fail => exact trivial
  | uploaded => cases fails

theorem lostCreate_of_refuses
    {canned : CannedAnswer}
    (refuses : canned.refuses = true)
    (reply : Nat → CreateReply) :
    LostCreate (canned.answer reply) := by
  cases canned with
  | status code => exact ⟨rfl, by simpa only [CannedAnswer.refuses, Bool.not_eq_true'] using refuses⟩
  | fail => exact trivial
  | uploaded => cases refuses

/-! ## Calls are delivered to the endpoint without canned answers -/

theorem delivery_of_create
    (fails : endpoint.OnlyFails)
    (path : String)
    (size : Nat) :
    ∃ served,
      Delivery LostCreate endpoint.plain (endpoint.plain.create path size) served
          (endpoint.create path size).2 ∧
        ∀ other, AgreesOn other served (endpoint.create path size).1 := by
  cases scripted : endpoint.createScript with
  | nil =>
      have same :
          endpoint.plain.create path size =
            ((endpoint.create path size).1.plain, (endpoint.create path size).2) := by
        rw [create_of_nil scripted, create_of_nil rfl]
        exact plain_openUpload (endpoint.note (.create path size)) path size
      rw [same]
      exact ⟨_, .answered, fun other => agreesOn_plain other _⟩
  | cons first rest =>
      have refuses : first.refuses = true :=
        fails.create first (scripted ▸ List.mem_cons_self)
      rw [create_of_cons scripted]
      exact ⟨_, .unserved (lostCreate_of_refuses refuses _), fun _ => ⟨rfl, rfl⟩⟩

theorem delivery_of_chunk
    (fails : endpoint.OnlyFails)
    (path content : String)
    (offset : Nat) :
    ∃ served,
      Delivery Lost endpoint.plain (endpoint.plain.chunk path content offset) served
          (endpoint.chunk path content offset).2 ∧
        ∀ other, AgreesOn other served (endpoint.chunk path content offset).1 := by
  cases scripted : endpoint.chunkScript with
  | nil =>
      have same :
          endpoint.plain.chunk path content offset =
            ((endpoint.chunk path content offset).1.plain,
              (endpoint.chunk path content offset).2) := by
        rw [chunk_of_nil scripted, chunk_of_nil rfl]
        exact plain_append (endpoint.note (.chunk path offset content.utf8ByteSize)) path content
          offset
      rw [same]
      exact ⟨_, .answered, fun other => agreesOn_plain other _⟩
  | cons first rest =>
      have lost : first.fails = true := fails.chunk first (scripted ▸ List.mem_cons_self)
      rw [chunk_of_cons scripted]
      exact ⟨_, .unserved (lost_of_fails lost _), fun _ => ⟨rfl, rfl⟩⟩

theorem delivery_of_status
    (fails : endpoint.OnlyFails)
    (path : String) :
    ∃ served,
      Delivery Lost endpoint.plain (endpoint.plain.status path) served
          (endpoint.status path).2 ∧
        ∀ other, AgreesOn other served (endpoint.status path).1 := by
  cases scripted : endpoint.statusScript with
  | nil =>
      have same :
          endpoint.plain.status path =
            ((endpoint.status path).1.plain, (endpoint.status path).2) := by
        rw [status_of_nil scripted, status_of_nil rfl]
        rfl
      rw [same]
      exact ⟨_, .answered, fun other => agreesOn_plain other _⟩
  | cons first rest =>
      have lost : first.fails = true := fails.status first (scripted ▸ List.mem_cons_self)
      rw [status_of_cons scripted]
      exact ⟨_, .unserved (lost_of_fails lost _), fun _ => ⟨rfl, rfl⟩⟩

/-- What an engine does next is served as a lossy network serves it. -/
theorem served_plain
    (fails : endpoint.OnlyFails)
    (served : serve? engine endpoint = some (act, after)) :
    ∃ final, Served engine endpoint.plain act final ∧ ∀ other, AgreesOn other final after := by
  have unchanged : ∀ other, AgreesOn other endpoint.plain endpoint :=
    fun other => agreesOn_plain other endpoint
  cases answered_of_serve? served with
  | create =>
      obtain ⟨final, delivery, agrees⟩ := delivery_of_create fails engine.path engine.size
      exact ⟨final, .create delivery, agrees⟩
  | chunk content =>
      obtain ⟨final, delivery, agrees⟩ :=
        delivery_of_chunk fails engine.path content engine.offset
      exact ⟨final, .chunk delivery, agrees⟩
  | status =>
      obtain ⟨final, delivery, agrees⟩ := delivery_of_status fails engine.path
      exact ⟨final, .status delivery, agrees⟩
  | read => exact ⟨_, .read, unchanged⟩
  | report report => exact ⟨_, .report report, unchanged⟩
  | check => exact ⟨_, .check, unchanged⟩
  | wait => exact ⟨_, .wait, unchanged⟩

/-! ## What is kept -/

theorem onlyFails_of_serve?
    (fails : endpoint.OnlyFails)
    (served : serve? engine endpoint = some (act, after)) :
    after.OnlyFails := by
  cases answered_of_serve? served with
  | create => exact fails.afterCreate _ _
  | chunk => exact fails.afterChunk _ _ _
  | status => exact fails.afterStatus _
  | read | report | check | wait => exact fails

theorem Faithful.of_serve?
    (faithful : Faithful bytes engine endpoint)
    (fails : endpoint.OnlyFails)
    (step : Engine.Step engine act next)
    (served : serve? engine endpoint = some (act, after)) :
    Faithful bytes next after := by
  obtain ⟨final, through, agrees⟩ := served_plain fails served
  have begun : Faithful bytes engine endpoint.plain := faithful.agreesOn ⟨rfl, rfl⟩
  exact (begun.step (unscripted_plain endpoint) step through).agreesOn (agrees next.path)

end ResumableUpload.Transfer
