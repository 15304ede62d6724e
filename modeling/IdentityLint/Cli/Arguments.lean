import IdentityLint.Path

/-!
Command line arguments.

A flag has a long name after two dashes and may have a letter after one.  A flag with a value
takes it from the same argument, behind the letter or an equals sign, or from the next argument
unless that looks like a flag.  Letters of flags without values may be written together.  Behind
two dashes alone, nothing is a flag.
-/

namespace IdentityLint.Cli

/-! ### Flags and words -/

/-- A flag that a command knows. -/
structure Flag where
  name : String
  letter : Option Char
  takesValue : Bool
  deriving Repr, DecidableEq, Inhabited

/-- What an argument says. -/
inductive Item where
  | flag (name : String)
  | option (name : String) (value : String)
  | word (text : String)
  /-- An argument that the command does not know, or a flag without its value. -/
  | invalid
  deriving Repr, DecidableEq, Inhabited

/-- What a group of letters says, and the flag whose value is in the next argument. -/
def letters (flags : List Flag) : List Char → List Item × Option Flag
  | [] => ([], none)
  | c :: rest =>
    match flags.find? (·.letter == some c) with
    | none => ([.invalid], none)
    | some f =>
      if f.takesValue then
        match rest with
        | [] => ([], some f)
        | '=' :: value => ([.option f.name (String.ofList value)], none)
        | value => ([.option f.name (String.ofList value)], none)
      else if rest.head? == some '=' then ([.invalid], none)
      else
        let r := letters flags rest
        (.flag f.name :: r.1, r.2)

/-- What a flag written by its long name says, and the flag if its value is in the next
argument. -/
def longFlag (flags : List Flag) (text : List Char) : List Item × Option Flag :=
  let name := text.takeWhile (· != '=')
  let attached := text.drop (name.length + 1)
  let hasValue := name.length < text.length
  match flags.find? (·.name == String.ofList name) with
  | none => ([.invalid], none)
  | some f =>
    if f.takesValue then
      if hasValue then ([.option f.name (String.ofList attached)], none) else ([], some f)
    else if hasValue then ([.invalid], none)
    else ([.flag f.name], none)

/-- Does an argument look like a flag? -/
def looksLikeFlag (arg : String) : Bool :=
  match arg.toList with
  | '-' :: _ :: _ => true
  | _ => false

/-- What arguments say, up to the first word if `untilWord` holds, and the arguments behind. -/
def scan (flags : List Flag) (untilWord : Bool) : List String → List Item × List String
  | [] => ([], [])
  | arg :: rest =>
    match arg.toList with
    | ['-', '-'] => if untilWord then ([.invalid], []) else (rest.map .word, [])
    | '-' :: c :: cs =>
      let head := if c == '-' then longFlag flags cs else letters flags (c :: cs)
      match head with
      | (items, none) =>
        let r := scan flags untilWord rest
        (items ++ r.1, r.2)
      | (items, some f) =>
        match rest with
        | [] => (items ++ [.invalid], [])
        | value :: rest' =>
          if looksLikeFlag value then (items ++ [.invalid], [])
          else
            let r := scan flags untilWord rest'
            (items ++ .option f.name value :: r.1, r.2)
    | _ =>
      if untilWord then ([.word arg], rest)
      else
        let r := scan flags untilWord rest
        (.word arg :: r.1, r.2)

/-! ### Commands -/

/-- How a report is written. -/
inductive Format where
  | text
  | json
  | compact
  | pretty
  deriving Repr, DecidableEq, Inhabited

/-- The format with a given name. -/
def Format.ofName? : String → Option Format
  | "text" => some text
  | "json" => some json
  | "compact" => some compact
  | "pretty" => some pretty
  | _ => none

/-- What to check, and how. -/
structure CheckOptions where
  path : Path
  format : Format
  /-- The names of the rules to run, separated by commas; without it, all rules run. -/
  rules : Option String
  exclude : List String
  deriving Repr, DecidableEq, Inhabited

/-- What to do. -/
inductive Command where
  | check (options : CheckOptions)
  | listRules
  | init (force : Bool)
  deriving Repr, DecidableEq, Inhabited

/-- What the command line asks for. -/
inductive Request where
  | run (config : Option Path) (command : Command)
  | version
  | help
  /-- The command line makes no sense. -/
  | misuse
  deriving Repr, DecidableEq, Inhabited

/-- The flags that every command knows. -/
def globalFlags : List Flag :=
  [⟨"verbose", some 'v', false⟩, ⟨"config", some 'c', true⟩, ⟨"help", some 'h', false⟩]

/-- The flags in front of the command. -/
def topFlags : List Flag := ⟨"version", some 'V', false⟩ :: globalFlags

/-- The flags of the command that checks. -/
def checkFlags : List Flag :=
  [⟨"format", some 'f', true⟩, ⟨"rules", none, true⟩, ⟨"exclude", some 'e', true⟩] ++ globalFlags

/-- The flags of the command that writes a configuration file. -/
def initFlags : List Flag := ⟨"force", none, false⟩ :: globalFlags

/-- The first item that ends the reading of arguments, as the request that it makes. -/
def interruption? (items : List Item) : Option Request :=
  items.findSome? fun
    | .flag "help" => some .help
    | .flag "version" => some .version
    | .invalid => some .misuse
    | _ => none

/-- The values given to an option. -/
def valuesOf (name : String) (items : List Item) : List String :=
  items.filterMap fun
    | .option n v => if n == name then some v else none
    | _ => none

/-- The words among some items. -/
def wordsOf (items : List Item) : List String :=
  items.filterMap fun
    | .word w => some w
    | _ => none

/-- Is a flag or option given more than once? -/
def isRepeated (name : String) (items : List Item) : Bool :=
  1 < items.countP fun
    | .flag n => n == name
    | .option n _ => n == name
    | _ => false

/-- The path that an option or word gives; an empty path is none. -/
def path? (text : String) : Option Path := if text.isEmpty then none else some ⟨text⟩

/-- The last configuration file that items name, or the one named before. -/
def configOf? (before : Option Path) (items : List Item) : Option (Option Path) :=
  match valuesOf "config" items with
  | [] => some before
  | [text] => (path? text).map some
  | _ => none

/-- The command that checks, with the items behind it. -/
def checkCommand? (items : List Item) : Option Command := do
  let path ←
    match wordsOf items with
    | [] => some ⟨"."⟩
    | [w] => path? w
    | _ => none
  let format ←
    match valuesOf "format" items with
    | [] => some .text
    | [f] => Format.ofName? f
    | _ => none
  if isRepeated "rules" items then none
  else return .check ⟨path, format, (valuesOf "rules" items).head?, valuesOf "exclude" items⟩

/-- The command with a given name, with the items behind it. -/
def command? (name : String) (items : List Item) : Option Command :=
  match name with
  | "check" => checkCommand? items
  | "list-rules" => if (wordsOf items).isEmpty then some .listRules else none
  | "init" =>
    if (wordsOf items).isEmpty && !isRepeated "force" items then
      some (.init (items.contains (.flag "force")))
    else none
  | _ => none

/-- The flags that the command with a given name knows; `none` if there is no such command. -/
def flagsOf? : String → Option (List Flag)
  | "check" => some checkFlags
  | "list-rules" => some globalFlags
  | "init" => some initFlags
  | _ => none

/-- What a command with the items in front of it and the arguments behind it asks for. -/
def requestFor (environmentConfig : Option String) (top : List Item) (name : String)
    (args : List String) : Request :=
  match flagsOf? name with
  | none => if name == "help" then .help else .misuse
  | some flags =>
    let items := (scan flags false args).1
    match interruption? items with
    | some r => r
    | none =>
      let config := do
        let fallback ←
          match environmentConfig with
          | some text => (path? text).map some
          | none => some none
        let above ← configOf? fallback top
        configOf? above items
      match config, command? name items with
      | some c, some command =>
        if isRepeated "verbose" top || isRepeated "verbose" items then .misuse
        else .run c command
      | _, _ => .misuse

/-- What the command line asks for; `environmentConfig` is the configuration file that the
environment names. -/
def request (environmentConfig : Option String) (args : List String) : Request :=
  let (items, rest) := scan topFlags true args
  match interruption? items with
  | some r => r
  | none =>
    match wordsOf items with
    | [name] => requestFor environmentConfig items name rest
    | _ => .misuse

end IdentityLint.Cli
