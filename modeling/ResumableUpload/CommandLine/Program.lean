import ResumableUpload.CommandLine.Arguments
import ResumableUpload.CommandLine.Commands
import ResumableUpload.CommandLine.Settings
import ResumableUpload.Http.Server

/-!
# The program

The program reads its settings, connects to an endpoint, over HTTP or within the process, and
carries out one command.  All that it finds around it is one value, `Surroundings`, and what it
leaves behind is another.
-/

namespace ResumableUpload.CommandLine

/-- What the program finds around it: files, the home directory, and a server within reach. -/
structure Surroundings extends Place where
  home : String := ""
  server : Option Http.Server := none

/-- What the program prints, and the code with which it ends. -/
structure Result where
  code : Nat := 0
  output : String := ""
  errors : String := ""
deriving DecidableEq, Repr

/-- The path that a command deletes. -/
def Command.deleted (command : Command) : String :=
  match command with
  | .delete path => path
  | _ => ""

/-- The session that a command works with. -/
def Surroundings.connect (surroundings : Surroundings) (settings : Settings) (memory : Bool)
    (path : String) : Except Failure Session :=
  if memory then .ok (Session.new settings.uploader .inline {})
  else
    match Http.Base.ofText? settings.endpoint with
    | .error fault => .error ⟨fault.message, []⟩
    | .ok base => .ok (Http.connect settings.uploader .inline base surroundings.server path)

/-- The surroundings after a session; a session within the process leaves nothing behind. -/
def Surroundings.after (surroundings : Surroundings) (session : Session) (memory : Bool) :
    Surroundings :=
  if memory || session.cutOff.isSome then surroundings
  else
    { surroundings with
      server := surroundings.server.map fun server => { server with endpoint := session.endpoint } }

/-- Carries out a command with these settings. -/
def execute (surroundings : Surroundings) (settings : Settings) (memory : Bool)
    (command : Command) : Surroundings × Except Failure String :=
  match surroundings.connect settings memory command.deleted with
  | .error failure => (surroundings, .error failure)
  | .ok session =>
    let (session, result) :=
      match command with
      | .upload files directory => upload surroundings.toPlace session files directory
      | .list => list session
      | .delete path => delete session path
    (surroundings.after session memory, result)

/-- The settings that the arguments lead to, and the surroundings after they were found. -/
def Surroundings.settings (surroundings : Surroundings) (arguments : Arguments) :
    Surroundings × Except Failure Settings :=
  let (disk, loaded) :=
    Settings.load surroundings.disk surroundings.workingDirectory surroundings.home
      arguments.settings
  ({ surroundings with disk := disk }, do
    let settings ← loaded
    let settings := { settings with endpoint := arguments.endpoint.getD settings.endpoint }
    checkConfig settings.uploader
    return settings)

/-- The local paths that the program looks at. -/
def Arguments.localPaths (arguments : Arguments) (home : String) : List String :=
  arguments.settings.getD (Settings.homePath home) ::
    match arguments.command with
    | .upload files _ => files
    | _ => []

/-- The name and version of the program. -/
def versionLine : String := "chunkup-cli 0.1.0\n"

/-- How the program is called. -/
def usage : String :=
  "Usage: chunkup [-c FILE] [-e URL] [--memory] upload FILE... [-d DIRECTORY]\n" ++
  "       chunkup [-c FILE] [-e URL] [--memory] list\n" ++
  "       chunkup [-c FILE] [-e URL] [--memory] delete PATH\n"

/-- What words that ask for nothing to be done lead to. -/
def Halt.result : Halt → Result
  | .version => { output := versionLine }
  | .help => { output := usage }
  | .misuse => { code := 2, errors := usage }

/-- Runs the program with the words after its name. -/
def run (surroundings : Surroundings) (words : List String) : Surroundings × Result :=
  match Arguments.ofWords words with
  | .error halt => (surroundings, halt.result)
  | .ok arguments =>
    match surroundings.settings arguments with
    | (surroundings, .error failure) => (surroundings, { code := 1, errors := failure.report })
    | (surroundings, .ok settings) =>
      match execute surroundings settings arguments.memory arguments.command with
      | (surroundings, .ok output) => (surroundings, { output := output })
      | (surroundings, .error failure) => (surroundings, { code := 1, errors := failure.report })

end ResumableUpload.CommandLine
