/-!
# Command lines

* `Command`        : what a user asks the program to do;
* `Command.ofArguments?` : reads it from the words of a command line.

An option takes its value from the same word or from the next one.  Each may be given once, and
only where it belongs: the directory of artifacts before the command, all others after it.
-/

namespace JobFile

/-- What a user asks for. -/
inductive Request where
  /-- The document of a description, in an envelope if `json`, and on the error stream as well if
  `echo`. -/
  | render (input : String) (json : Bool) (echo : Bool)
  /-- The registered artifacts. -/
  | artifacts
  /-- The fingerprint of a document. -/
  | hash (input : String)
  deriving DecidableEq, Repr

/-- What a user asks for, and where the artifacts are. -/
structure Command where
  directory : String
  request : Request
  deriving DecidableEq, Repr

namespace Command

/-- Where the artifacts are unless a user says otherwise. -/
def defaultDirectory : String := "artifacts"

/-- An option with its long and its short name. -/
structure Switch where
  long : String
  short : Option Char
  takesValue : Bool
  deriving DecidableEq, Repr

/-- The directory of artifacts. -/
def directorySwitch : Switch := ⟨"artifacts-dir", some 'a', true⟩

/-- The file of a description. -/
def inputSwitch : Switch := ⟨"input", some 'i', true⟩

/-- Asks for an envelope. -/
def jsonSwitch : Switch := ⟨"json", none, false⟩

/-- Asks for the error stream. -/
def echoSwitch : Switch := ⟨"echo", none, false⟩

/-- A word that is read as an option: which one, and the value in the same word. -/
structure Use where
  switch : Switch
  value : Option String
  deriving DecidableEq, Repr

/-- The use of an option by its long name, given what follows the two hyphens. -/
def longUse? (known : List Switch) (body : String) : Option Use := do
  let name := String.ofList (body.toList.takeWhile (· ≠ '='))
  let value := match body.toList.dropWhile (· ≠ '=') with
    | [] => none
    | _ :: rest => some (String.ofList rest)
  let switch ← known.find? fun s => s.long == name
  pure ⟨switch, value⟩

/-- The use of an option by its short name, given what follows the hyphen. -/
def shortUse? (known : List Switch) : List Char → Option Use
  | c :: rest => do
    let switch ← known.find? fun s => s.short == some c
    match rest with
    | [] => pure ⟨switch, none⟩
    | '=' :: value => pure ⟨switch, some (String.ofList value)⟩
    | value => pure ⟨switch, some (String.ofList value)⟩
  | [] => none

/-- What a word of a command line is. -/
inductive Word where
  | use (u : Use)
  /-- The mark after which no option is read. -/
  | stop
  | plain (s : String)
  /-- An option that is not known here. -/
  | unknown
  deriving DecidableEq, Repr

/-- Reads a word. -/
def Word.of (known : List Switch) (s : String) : Word :=
  match s.toList with
  | ['-', '-'] => .stop
  | '-' :: '-' :: body =>
    match longUse? known (String.ofList body) with
    | some u => .use u
    | none => .unknown
  | '-' :: c :: body =>
    match shortUse? known (c :: body) with
    | some u => .use u
    | none => .unknown
  | _ => .plain s

/-- Options that have been given, with their values. -/
abbrev Given := List (Switch × String)

/-- Adds an option, unless it has been given before. -/
def give (g : Given) (s : Switch) (value : String) : Option Given :=
  if g.any (·.1 == s) then none else some ((s, value) :: g)

/-- Reads options up to the first word that is none, and returns it with the words after it. -/
def takeOptions (known : List Switch) : List String → Given → Option (Given × List String)
  | [], g => some (g, [])
  | w :: ws, g =>
    match Word.of known w with
    | .unknown => none
    | .stop | .plain _ => some (g, w :: ws)
    | .use ⟨s, value⟩ =>
      if s.takesValue then
        match value with
        | some v => if v.isEmpty then none else (give g s v).bind (takeOptions known ws)
        | none =>
          match ws with
          | [] => none
          | v :: ws =>
            match Word.of known v with
            | .plain v => if v.isEmpty then none else (give g s v).bind (takeOptions known ws)
            | _ => none
      else if value.isSome then none
      else (give g s "").bind (takeOptions known ws)

/-- The value that an option has been given. -/
def given? (g : Given) (s : Switch) : Option String := g.lookup s

/-- Reads the options of a request, after which nothing may follow. -/
def requestOptions? (known : List Switch) (ws : List String) : Option Given := do
  let (g, rest) ← takeOptions known ws []
  match rest with
  | [] | ["--"] => pure g
  | _ => none

/-- Reads a request from its name and the words after it. -/
def request? (name : String) (ws : List String) : Option Request :=
  match name with
  | "render" => do
    let g ← requestOptions? [inputSwitch, jsonSwitch, echoSwitch] ws
    let input ← given? g inputSwitch
    pure (.render input (given? g jsonSwitch).isSome (given? g echoSwitch).isSome)
  | "artifacts" => do
    let _ ← requestOptions? [] ws
    pure .artifacts
  | "hash" => do
    let g ← requestOptions? [inputSwitch] ws
    let input ← given? g inputSwitch
    pure (.hash input)
  | _ => none

/-- Reads the words of a command line; none if they are no command. -/
def ofArguments? (ws : List String) : Option Command := do
  let (g, rest) ← takeOptions [directorySwitch] ws []
  match rest with
  | name :: ws =>
    let request ← request? name ws
    pure ⟨(given? g directorySwitch).getD defaultDirectory, request⟩
  | [] => none

end Command

end JobFile
