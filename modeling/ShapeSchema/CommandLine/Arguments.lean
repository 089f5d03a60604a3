import ShapeSchema.Transformation
import ShapeSchema.Text.Split

/-!
# Command lines

The commands and their options. An option is written in full behind two dashes or, if it has one, as
a letter behind a single dash. Its value is the next argument, or stands behind an equals sign or
directly behind the letter.

## Main definitions

* `ShapeSchema.CommandLine.Command`, `ShapeSchema.CommandLine.Request` — the commands, and what else
  can be asked for.
* `ShapeSchema.CommandLine.Setting`, `ShapeSchema.CommandLine.settings?` — the options, and those
  that are set in a list of arguments.
* `ShapeSchema.CommandLine.request?` — what a list of arguments asks for.
-/

namespace ShapeSchema.CommandLine

/-! ## Commands -/

/-- What a command says about reading shapes and making schemas. -/
structure SchemaSettings where
  /-- The base of relative references. -/
  base : Option String
  /-- How the run is done. -/
  options : Transformation.Options

/-- What a command says about what is written. -/
structure OutputSettings where
  /-- The folder that is written to, unless it is that of the input. -/
  folder : Option String
  /-- Whether a script is written. -/
  cypher : Bool
  /-- Whether a drawing is written. -/
  dot : Bool

/-- The commands. -/
inductive Command where
  /-- Writes the schema of the shapes in a file. -/
  | transform (file : String) (output : OutputSettings) (schema : SchemaSettings)
  /-- Does so for every file that appears in a folder. -/
  | watch (folder : String) (output : OutputSettings) (schema : SchemaSettings)
  /-- Prints or writes the script of a document. -/
  | cypher (file : String) (output : Option String)
  /-- Checks instances against the schema of the shapes in a file. -/
  | validate (file instances : String) (schema : SchemaSettings)

/-- What can be asked for. -/
inductive Request where
  /-- To print the version. -/
  | version
  /-- To run a command. -/
  | command (command : Command)

/-! ## Options -/

/-- What may stand as the value of an option. -/
inductive Kind where
  /-- An option without a value. -/
  | flag
  /-- An option without a value that decides what is done: nothing behind it is looked at. -/
  | final
  /-- A path, which is not empty. -/
  | path
  /-- Any text. -/
  | text
  /-- One of some words. -/
  | oneOf (words : List String)

/-- An option of a command. -/
structure Setting where
  /-- The name behind two dashes. -/
  name : String
  /-- The letter behind a single dash. -/
  letter : Option Char := none
  /-- What may stand as its value. -/
  kind : Kind

/-- Whether a text may stand as a value. -/
def Kind.admits : Kind → String → Bool
  | flag, value => value == ""
  | final, value => value == ""
  | path, value => value != ""
  | text, _ => true
  | oneOf words, value => words.contains value

/-- Whether an argument looks like an option, so that it is no value of the option before it. -/
def isDashed (argument : String) : Bool :=
  match argument.toList with
  | '-' :: _ :: _ => true
  | _ => false

/-- The value of an option with the arguments that are left: the one that is attached to it, or the
next argument. -/
def valueFor? (setting : Setting) (attached : Option (List Char)) (rest : List String) :
    Option (String × List String) :=
  let value : Option (String × List String) := match setting.kind, attached, rest with
    | .flag, none, rest => some ("", rest)
    | .final, none, _ => some ("", [])
    | .flag, some _, _ => none
    | .final, some _, _ => none
    | _, some value, rest => some (String.ofList value, rest)
    | _, none, value :: rest => if isDashed value then none else some (value, rest)
    | _, none, [] => none
  value.filter fun (value, _) => setting.kind.admits value

/-- The name of an option and the value behind its equals sign. -/
def splitAtEquals (text : List Char) : List Char × Option (List Char) :=
  match text.dropWhile (· != '=') with
  | [] => (text, none)
  | _ :: value => (text.takeWhile (· != '='), some value)

/-- The option that an argument names, with its value and the arguments that are left. -/
def settingOf? (settings : List Setting) (argument : List Char) (rest : List String) :
    Option ((String × String) × List String) :=
  match argument with
  | '-' :: '-' :: text => do
    let (name, attached) := splitAtEquals text
    let setting ← settings.find? (·.name.toList = name)
    let (value, rest) ← valueFor? setting attached rest
    return ((setting.name, value), rest)
  | '-' :: letter :: text => do
    let setting ← settings.find? (·.letter = some letter)
    let attached : Option (List Char) := match setting.kind, text with
      | .final, _ => none
      | _, [] => none
      | _, '=' :: value => some value
      | _, value => some value
    let (value, rest) ← valueFor? setting attached rest
    return ((setting.name, value), rest)
  | _ => none

/-- The options that are set before the first argument that is none, and what is left from there.
Every step takes an argument, so that `fuel` of their number is enough. An option is set at most
once. -/
def settingsWithin? (fuel : Nat) (settings : List Setting) (known : List (String × String))
    (arguments : List String) : Option (List (String × String) × List String) :=
  match fuel, arguments with
  | _, [] => some (known, [])
  | 0, _ => none
  | fuel + 1, argument :: rest =>
    if argument == "--" then if rest.isEmpty then some (known, []) else none
    else if isDashed argument then do
      let ((name, value), rest) ← settingOf? settings argument.toList rest
      if (known.lookup name).isSome then none
      else settingsWithin? fuel settings ((name, value) :: known) rest
    else some (known, argument :: rest)

/-- The options that are set before the first argument that is none, and what is left from there. -/
def settings? (settings : List Setting) (arguments : List String) :
    Option (List (String × String) × List String) :=
  settingsWithin? arguments.length settings [] arguments

/-! ## The options of the commands -/

/-- The option that says how events are logged, which every command has. -/
def logSetting : Setting := ⟨"log-format", none, .oneOf ["text", "json"]⟩

/-- The option that asks for the version. -/
def versionSetting : Setting := ⟨"version", some 'V', .final⟩

/-- The options about reading shapes and making schemas. -/
def schemaSettings : List Setting :=
  [⟨"base", none, .text⟩, ⟨"namespace", none, .text⟩,
    ⟨"relationship-types", none, .oneOf ["upper-snake", "flat"]⟩,
    ⟨"edge-property-precedence", none, .oneOf ["nested", "flattened"]⟩,
    ⟨"no-compat-shims", none, .flag⟩]

/-- The options about what is written. -/
def outputSettings : List Setting :=
  [⟨"output", some 'o', .path⟩, ⟨"cypher", none, .flag⟩, ⟨"dot", none, .flag⟩]

/-- What some options say about reading shapes and making schemas. -/
def schemaOf (known : List (String × String)) : SchemaSettings where
  base := known.lookup "base"
  options :=
    { reading := { space := known.lookup "namespace" }
      schema :=
        { style := if known.lookup "relationship-types" = some "flat" then .flat else .upperSnake
          precedence :=
            if known.lookup "edge-property-precedence" = some "flattened" then .flattened
            else .nested
          sameSubject := (known.lookup "no-compat-shims").isNone
          compoundName := (known.lookup "no-compat-shims").isNone } }

/-- What some options say about what is written. -/
def outputOf (known : List (String × String)) : OutputSettings where
  folder := known.lookup "output"
  cypher := (known.lookup "cypher").isSome
  dot := (known.lookup "dot").isSome

/-- The option for the file that a command reads. -/
def fileSetting : Setting := ⟨"file", some 'f', .path⟩

/-- The command with a name, from the arguments behind it. -/
def commandNamed? (name : String) (arguments : List String) : Option Command :=
  let all (settings : List Setting) : Option (List (String × String)) :=
    match settings? (logSetting :: settings) arguments with
    | some (known, []) => some known
    | _ => none
  match name with
  | "transform" => do
    let known ← all (fileSetting :: outputSettings ++ schemaSettings)
    return .transform (← known.lookup "file") (outputOf known) (schemaOf known)
  | "watch" => do
    let known ← all (⟨"directory", some 'd', .path⟩ :: outputSettings ++ schemaSettings)
    return .watch (← known.lookup "directory") (outputOf known) (schemaOf known)
  | "cypher" => do
    let known ← all [fileSetting, ⟨"output", some 'o', .path⟩]
    return .cypher (← known.lookup "file") (known.lookup "output")
  | "validate" => do
    let known ← all (fileSetting :: ⟨"instances", some 'i', .path⟩ :: schemaSettings)
    return .validate (← known.lookup "file") (← known.lookup "instances") (schemaOf known)
  | _ => none

/-- What a list of arguments asks for; `none` if that is nothing. The version is asked for before
the name of a command. -/
def request? (arguments : List String) : Option Request := do
  let (known, rest) ← settings? [logSetting, versionSetting] arguments
  if (known.lookup "version").isSome then return .version
  else
    match rest with
    | name :: rest => return .command (← commandNamed? name rest)
    | [] => none

end ShapeSchema.CommandLine
