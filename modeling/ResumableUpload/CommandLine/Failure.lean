import ResumableUpload.UploadError

/-!
# Failures of a command

What a user reads when a command fails: what went wrong, and what caused it, outermost first.
-/

namespace ResumableUpload.CommandLine

/-- What went wrong, followed by what caused it. -/
structure Failure where
  text : String
  causes : List String := []
deriving DecidableEq, Repr

namespace Failure

/-- A failure in the course of something else. -/
def during (failure : Failure) (activity : String) : Failure :=
  ⟨activity, failure.text :: failure.causes⟩

/-- The failure of a call. -/
def ofTransport (error : TransportError) : Failure :=
  ⟨error.message, []⟩

/-- The failure to open or read a local file; one of the system is its own cause. -/
def ofRead (error : ReadError) : Failure :=
  match error with
  | .io reason => ⟨error.message, [reason]⟩
  | _ => ⟨error.message, []⟩

/-- The failure of an upload. -/
def ofUpload (error : UploadError) : Failure :=
  match error with
  | .transport cause => (ofTransport cause).during error.message
  | .unreadable cause => (ofRead cause).during error.message
  | _ => ⟨error.message, []⟩

/-- A text whose lines after the first are indented. -/
def indented (indent : Nat) (text : String) : String :=
  String.ofList (text.toList.flatMap fun character =>
    if character = '\n' then '\n' :: List.replicate indent ' ' else [character])

/-- The causes as they are listed: one alone stands by itself, several are numbered from zero. -/
def listed : List String → String
  | [] => ""
  | [cause] => "\n\nCaused by:\n    " ++ indented 4 cause
  | causes =>
    "\n\nCaused by:" ++ String.join (causes.zipIdx.map fun (cause, index) =>
      let number := toString index
      "\n" ++ String.ofList (List.replicate (5 - number.length) ' ') ++ number ++ ": " ++
        indented 7 cause)

/-- What is printed about a failure. -/
def report (failure : Failure) : String :=
  "Error: " ++ failure.text ++ listed failure.causes ++ "\n"

end Failure

end ResumableUpload.CommandLine
