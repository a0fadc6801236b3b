/-!
# Arguments

The words after the program's name are switches and a command with switches of its own.  A switch
has a long name after two hyphens and a letter after one.  Its value stands behind `=` or is the
next word; behind a letter it may also follow at once, and letters of switches without value may be
joined.  After two hyphens alone every word stands for itself.
-/

namespace ResumableUpload.CommandLine

/-- What the program is to do. -/
inductive Command where
  | upload (files : List String) (directory : String)
  | list
  | delete (path : String)
deriving DecidableEq, Repr

/-- The words of the command line, understood. -/
structure Arguments where
  settings : Option String := none
  endpoint : Option String := none
  memory : Bool := false
  command : Command
deriving DecidableEq, Repr

/-- Why the words ask for nothing that could be done. -/
inductive Halt where
  | version
  | help
  | misuse
deriving DecidableEq, Repr

/-- A switch, known by a letter, by a long name, or by both. -/
structure Switch where
  letter : Option Char := none
  name : String
  takesValue : Bool := false
  /-- What the switch asks for in place of everything else. -/
  halt : Option Halt := none
  /-- Whether an empty value is none. -/
  refusesEmpty : Bool := false
deriving DecidableEq, Repr

/-- The switches found, with their values, the words between them, and the words left over. -/
structure Found where
  switches : List (String × String) := []
  words : List String := []
  rest : List String := []
deriving DecidableEq, Repr

namespace Found

/-- Whether a switch was found. -/
def has (found : Found) (name : String) : Bool :=
  (found.switches.lookup name).isSome

/-- Adds a switch, which is given only once, and not with an empty value where that is none. -/
def add (found : Found) (switch : Switch) (value : String) : Except Halt Found :=
  if found.has switch.name || (switch.refusesEmpty && value == "") then .error .misuse
  else .ok { found with switches := (switch.name, value) :: found.switches }

end Found

/-- Whether a word is one or more switches, or the two hyphens. -/
def isSwitch (word : String) : Bool :=
  match word.toList with
  | '-' :: _ :: _ => true
  | _ => false

/--
What a word of letters after a hyphen means: the switches, and the one whose value is the next word.
-/
def readLetters (switches : List Switch) (found : Found) :
    List Char → Except Halt (Found × Option Switch)
  | [] => .ok (found, none)
  | letter :: rest =>
    match switches.find? (·.letter == some letter) with
    | none => .error .misuse
    | some switch =>
      match switch.halt with
      | some halt => .error halt
      | none =>
        if switch.takesValue then
          match rest with
          | [] => .ok (found, some switch)
          | '=' :: value => do return (← found.add switch (String.ofList value), none)
          | value => do return (← found.add switch (String.ofList value), none)
        else do readLetters switches (← found.add switch "") rest

/-- What a word after two hyphens means. -/
def readName (switches : List Switch) (found : Found) (word : List Char) :
    Except Halt (Found × Option Switch) :=
  let name := word.takeWhile (· != '=')
  let value? :=
    match word.drop name.length with
    | [] => none
    | _ :: value => some (String.ofList value)
  match switches.find? (·.name == String.ofList name) with
  | none => .error .misuse
  | some switch =>
    match switch.takesValue, value? with
    | true, some value => do return (← found.add switch value, none)
    | true, none => .ok (found, some switch)
    | false, some _ => .error .misuse
    | false, none =>
      match switch.halt with
      | some halt => .error halt
      | none => do return (← found.add switch "", none)

/--
Reads switches and words.  With `onlySwitches` the first word that is no switch ends the reading; it
is the first of the words left over.  `waiting` is the switch whose value comes next.
-/
def readWords (switches : List Switch) (onlySwitches : Bool) (waiting : Option Switch)
    (found : Found) : List String → Except Halt Found
  | [] => if waiting.isSome then .error .misuse else .ok found
  | word :: rest =>
    if isSwitch word then
      if waiting.isSome then .error .misuse
      else
        match word.toList with
        | ['-', '-'] =>
          if onlySwitches then .error .misuse else .ok { found with words := found.words ++ rest }
        | '-' :: '-' :: name => do
          let (found, waiting) ← readName switches found name
          readWords switches onlySwitches waiting found rest
        | letters => do
          let (found, waiting) ← readLetters switches found (letters.drop 1)
          readWords switches onlySwitches waiting found rest
    else
      match waiting with
      | some switch => do readWords switches onlySwitches none (← found.add switch word) rest
      | none =>
        if onlySwitches then .ok { found with rest := word :: rest }
        else readWords switches onlySwitches none { found with words := found.words ++ [word] } rest

namespace Arguments

/-- The switch that asks for help. -/
def helpSwitch : Switch := { letter := some 'h', name := "help", halt := some .help }

/-- The switches before the command. -/
def generalSwitches : List Switch :=
  [{ letter := some 'c', name := "config", takesValue := true, refusesEmpty := true },
    { letter := some 'e', name := "endpoint", takesValue := true },
    { name := "memory" }, helpSwitch,
    { letter := some 'V', name := "version", halt := some .version }]

/-- The switches of an upload. -/
def uploadSwitches : List Switch :=
  [{ letter := some 'd', name := "dest", takesValue := true }, helpSwitch]

/-- The names of the commands. -/
def commandNames : List String := ["upload", "list", "delete", "help"]

/-- The command that words are. -/
def readCommand : List String → Except Halt Command
  | "upload" :: rest => do
    let found ← readWords uploadSwitches false none {} rest
    if found.words = [] ∨ "" ∈ found.words then .error .misuse
    else return .upload found.words ((found.switches.lookup "dest").getD "")
  | "list" :: rest => do
    match (← readWords [helpSwitch] false none {} rest).words with
    | [] => return .list
    | _ => .error .misuse
  | "delete" :: rest => do
    match (← readWords [helpSwitch] false none {} rest).words with
    | [path] => return .delete path
    | _ => .error .misuse
  | ["help"] => .error .help
  | ["help", name] => .error (if name ∈ commandNames then .help else .misuse)
  | _ => .error .misuse

/-- The words of the command line, understood. -/
def ofWords (words : List String) : Except Halt Arguments := do
  let found ← readWords generalSwitches true none {} words
  return {
    settings := found.switches.lookup "config"
    endpoint := found.switches.lookup "endpoint"
    memory := found.has "memory"
    command := ← readCommand found.rest }

end Arguments

end ResumableUpload.CommandLine
