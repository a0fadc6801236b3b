import ResumableUpload.Binary64.Shortest
import ResumableUpload.Response

/-!
# Configuration

`Config` holds every number that steers the queue and the transfers, with its default.  `check`
finds the first setting that transfers cannot run with.  A transfer itself only sees a `Pace`, the
rules for its chunk length, and the settings beside it (`Tuning`).
-/

namespace ResumableUpload

/-- Settings of the queue, the executor and the transfers. -/
structure Config where
  chunkLength : Nat := 1048576
  speedUpRatio : Binary64 := ⟨0x3ff0cccccccccccd⟩
  speedDownRatio : Binary64 := ⟨0x3fe0000000000000⟩
  chunkLengthFloor : Nat := 1
  backoffMax : Nat := 2000
  createRetryLimit : Nat := 2
  tickInterval : Nat := 500
  maxQueued : Nat := 1000
  fatalStatuses : List Nat := [400, 401, 403, 404, 409]
deriving DecidableEq, Repr

/-- A setting that transfers cannot run with. -/
inductive Config.Fault where
  | floorZero
  | belowFloor (chunkLength floor : Nat)
  | speedUp (ratio : Binary64)
  | speedDown (ratio : Binary64)
  | noAttempts
  | noInterval
deriving DecidableEq, Repr

/-- The wording of a fault. -/
def Config.Fault.message : Config.Fault → String
  | .floorZero => "chunk_len_floor must be at least 1"
  | .belowFloor chunkLength floor =>
    "chunk_len " ++ toString chunkLength ++ " is below chunk_len_floor " ++ toString floor
  | .speedUp ratio =>
    "speed_up_ratio must be >= 1.0, got " ++ ratio.text Binary64.messageLayout
  | .speedDown ratio =>
    "speed_down_ratio must be in (0, 1), got " ++ ratio.text Binary64.messageLayout
  | .noAttempts => "create_retry_limit must be at least 1"
  | .noInterval => "tick_interval_ms must be positive"

namespace Config

/-- The first fault of a configuration, if it has one. -/
def fault? (config : Config) : Option Fault :=
  if config.chunkLengthFloor = 0 then some .floorZero
  else if config.chunkLength < config.chunkLengthFloor then
    some (.belowFloor config.chunkLength config.chunkLengthFloor)
  else if ¬ config.speedUpRatio.isFiniteFromOne then some (.speedUp config.speedUpRatio)
  else if ¬ config.speedDownRatio.isBelowOne then some (.speedDown config.speedDownRatio)
  else if config.createRetryLimit = 0 then some .noAttempts
  else if config.tickInterval = 0 then some .noInterval
  else none

/-- Accepts the configurations that transfers can run with. -/
def check (config : Config) : Except Fault Unit :=
  match config.fault? with
  | some fault => .error fault
  | none => .ok ()

/-- The statuses that end an upload for good. -/
def policy (config : Config) : Policy :=
  ⟨config.fatalStatuses⟩

end Config

/-- How the length of a chunk starts and changes. -/
structure Pace where
  start : Nat
  floor : Nat
  grow : Nat → Nat
  shrink : Nat → Nat

/-- What a transfer needs to know of the configuration. -/
structure Tuning where
  pace : Pace
  createLimit : Nat
  policy : Policy

/-- A length times a ratio in binary64 arithmetic, rounded up to a whole length. -/
def scaleLength (ratio : Binary64) (length : Nat) : Nat :=
  ((Binary64.ofNat length).mul ratio).ceilWord

/-- The pace of a configuration under a rule for scaling a length by a ratio. -/
def Config.paceWith (scale : Binary64 → Nat → Nat) (config : Config) : Pace where
  start := max config.chunkLength config.chunkLengthFloor
  floor := config.chunkLengthFloor
  grow := scale config.speedUpRatio
  shrink length := max (scale config.speedDownRatio length) config.chunkLengthFloor

/-- The settings of a transfer; at least one create call is made. -/
def Config.tuningWith (scale : Binary64 → Nat → Nat) (config : Config) : Tuning where
  pace := config.paceWith scale
  createLimit := max config.createRetryLimit 1
  policy := config.policy

/-- The settings of a transfer whose lengths are scaled in binary64 arithmetic. -/
def Config.tuning (config : Config) : Tuning :=
  config.tuningWith scaleLength

end ResumableUpload
