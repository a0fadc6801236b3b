import ResumableUpload.Config
import ResumableUpload.Json.Value

/-!
# Reading a configuration

A configuration is read field by field from any format whose values can be taken as numbers and
lists (`Scalars`).  Every field may be missing and then has its default.
-/

namespace ResumableUpload.Config

/-- The names of the settings, in the order in which they are written. -/
def fieldNames : List String :=
  ["chunk_len", "speed_up_ratio", "speed_down_ratio", "chunk_len_floor", "backoff_max_ms",
    "create_retry_limit", "tick_interval_ms", "max_queued", "fatal_statuses"]

/-- How values of a format are taken. -/
structure Scalars (ν : Type) where
  nat? : (limit : Nat) → ν → Option Nat
  ratio? : ν → Option Binary64
  elements? : ν → Option (List ν)

/-- The values of JSON text. -/
def jsonScalars : Scalars Json.Value where
  nat? := Json.Value.nat?
  ratio? := Json.Value.binary64?
  elements? := Json.Value.elements?

/-- Reads a field, or takes its default if it is missing. -/
def readField {ν α : Type} (default : α) (read : ν → Option α) : Option ν → Option α
  | none => some default
  | some value => read value

/-- The configuration with these fields, in the order of their names. -/
def ofFields? {ν : Type} (scalars : Scalars ν) : List (Option ν) → Option Config
  | [chunkLength, speedUp, speedDown, floor, backoff, retries, interval, queued, fatal] => do
    let defaults : Config := {}
    let word := scalars.nat? (Nat.pow 2 64 - 1)
    return {
      chunkLength := ← readField defaults.chunkLength word chunkLength
      speedUpRatio := ← readField defaults.speedUpRatio scalars.ratio? speedUp
      speedDownRatio := ← readField defaults.speedDownRatio scalars.ratio? speedDown
      chunkLengthFloor := ← readField defaults.chunkLengthFloor word floor
      backoffMax := ← readField defaults.backoffMax word backoff
      createRetryLimit :=
        ← readField defaults.createRetryLimit (scalars.nat? (Nat.pow 2 32 - 1)) retries
      tickInterval := ← readField defaults.tickInterval word interval
      maxQueued := ← readField defaults.maxQueued word queued
      fatalStatuses :=
        ← readField defaults.fatalStatuses
          (fun value => do (← scalars.elements? value).mapM (scalars.nat? (Nat.pow 2 16 - 1)))
          fatal }
  | _ => none

/-- The configuration that a JSON value is. -/
def ofJson? (value : Json.Value) : Option Config := do
  ofFields? jsonScalars (← value.fields? fieldNames)

end ResumableUpload.Config
