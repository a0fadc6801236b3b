import ResumableUpload.CommandLine.Failure
import ResumableUpload.Config.Fields
import ResumableUpload.Disk
import ResumableUpload.Toml.Reader
import ResumableUpload.Toml.Writer

/-!
# Settings

The settings of the program are kept in a TOML file: the base URL of the endpoint, how long a
request may take, and a table with the configuration of uploads.  Whatever the file leaves out has
its default.  A file that the user names has to be there; the one in the home directory is made when
it is missing.
-/

namespace ResumableUpload.CommandLine

/-- The settings of the program; the time limit of a request is in seconds. -/
structure Settings where
  endpoint : String := "http://127.0.0.1:8080"
  requestTimeout : Nat := 30
  uploader : Config := {}
deriving DecidableEq, Repr

namespace Settings

/-- The values of TOML documents. -/
def tomlScalars : Config.Scalars Toml.Value where
  nat? := Toml.Value.nat?
  ratio? := Toml.Value.binary64?
  elements? := Toml.Value.elements?

/-- The configuration that a TOML value is. -/
def configOfToml? (value : Toml.Value) : Option Config := do
  Config.ofFields? tomlScalars (← value.fields? Config.fieldNames)

/-- The settings that a TOML document is. -/
def ofToml? (document : Toml.Value) : Option Settings := do
  let defaults : Settings := {}
  match ← document.fields? ["endpoint", "request_timeout_secs", "uploader"] with
  | [endpoint, timeout, uploader] =>
    return {
      endpoint := ← Config.readField defaults.endpoint Toml.Value.text? endpoint
      requestTimeout :=
        ← Config.readField defaults.requestTimeout (Toml.Value.nat? (Nat.pow 2 64 - 1)) timeout
      uploader := ← Config.readField defaults.uploader configOfToml? uploader }
  | _ => none

/-- The settings as they are written. -/
def text (settings : Settings) : String :=
  let config := settings.uploader
  let values : List String :=
    [toString config.chunkLength, config.speedUpRatio.text Toml.floatLayout,
      config.speedDownRatio.text Toml.floatLayout, toString config.chunkLengthFloor,
      toString config.backoffMax, toString config.createRetryLimit, toString config.tickInterval,
      toString config.maxQueued, Toml.writtenArray (config.fatalStatuses.map toString)]
  Toml.writtenLine "endpoint" (Toml.writtenString settings.endpoint) ++
    Toml.writtenLine "request_timeout_secs" (toString settings.requestTimeout) ++
    "\n[uploader]\n" ++
    String.join (List.zipWith Toml.writtenLine Config.fieldNames values)

/-- The settings in a file. -/
def read (disk : Disk) (workingDirectory : List String) (path : String) :
    Except Failure Settings :=
  let unreadable (cause : String) : Failure := ⟨"reading " ++ path, [cause]⟩
  match disk.fileContent workingDirectory path with
  | .error fault => .error (unreadable fault.message)
  | .ok content =>
    match content.toText? with
    | none => .error (unreadable "stream did not contain valid UTF-8")
    | some text =>
      match (Toml.parse? text).bind ofToml? with
      | some settings => .ok settings
      | none => .error ⟨"parsing " ++ path, ["TOML parse error"]⟩

/-- Writes the settings to a file and makes the directories above it. -/
def save (settings : Settings) (disk : Disk) (workingDirectory : List String) (path : String) :
    Disk × Except Failure Unit :=
  let made :=
    match LocalPath.parent? path with
    | some parent => disk.makeDirectories workingDirectory parent
    | none => .ok disk
  match made with
  | .error fault => (disk, .error ⟨fault.message, []⟩)
  | .ok disk =>
    match disk.putFile workingDirectory path (Bytes.ofText settings.text) with
    | .error fault => (disk, .error ⟨fault.message, []⟩)
    | .ok disk => (disk, .ok ())

/-- Where the settings of a user are kept. -/
def homePath (home : String) : String :=
  [".config", "chunkup", "config.toml"].foldl LocalPath.join home

/-- The settings in the file that the user names, or else those in the home directory. -/
def load (disk : Disk) (workingDirectory : List String) (home : String) (named : Option String) :
    Disk × Except Failure Settings :=
  match named with
  | some path => (disk, read disk workingDirectory path)
  | none =>
    let path := homePath home
    match disk.find workingDirectory path with
    | .ok _ => (disk, read disk workingDirectory path)
    | .error _ =>
      let defaults : Settings := {}
      match defaults.save disk workingDirectory path with
      | (disk, .ok ()) => (disk, .ok defaults)
      | (disk, .error failure) => (disk, .error failure)

end Settings

end ResumableUpload.CommandLine
