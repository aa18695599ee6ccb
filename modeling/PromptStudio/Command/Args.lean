import PromptStudio.Settings

/-!
# Command lines

The command has a subcommand, options that may stand before or behind it, and arguments. A word that
starts with a hyphen is an option, a lone hyphen excepted; behind `--` every word is an argument. An
option's value stands in the same word behind `=`, or is the next word. `parse` gives what was asked
for, or `none` for a command line that cannot be understood.
-/

namespace PromptStudio.Command

/-- What the command is asked to do. -/
inductive Task
  /-- Describes a workflow and lets the backend build it. -/
  | workflow (prompt : String)
  /-- Builds or changes the site of a workflow, after showing the stored conversation if asked. -/
  | web (workflowId prompt : String) (history : Bool)
  /-- Follows an execution that is still running. -/
  | resume (workflowId executionId : String) (web : Bool)
  /-- Shows the graph of a workflow. -/
  | graph (id : String) (json : Bool)
  /-- Lists workflows. -/
  | list (size : Nat)
  /-- Deletes a workflow. -/
  | delete (id : String)
  /-- Renames a workflow. -/
  | rename (id name : String)
  /-- Lists models. -/
  | models
  /-- Lists tools. -/
  | tools
deriving DecidableEq, Repr

/-- Options that go with every task. -/
structure Options where
  apiUrl : Option String := none
  previewUrl : Option String := none
  /-- In seconds. -/
  idleTimeout : Option Nat := none
deriving DecidableEq, Repr

/-- What a command line asks for. -/
inductive Invocation
  | run (options : Options) (task : Task)
  | version
  | help
deriving DecidableEq, Repr

/-! ## Words -/

/-- What an option is called and whether it takes a value. -/
structure OptionSpec where
  name : String
  letter : Option Char := none
  takesValue : Bool
deriving DecidableEq, Repr

/-- A word of a command line, with the value that belongs to it. -/
inductive Word
  | option (name : String) (value : Option String)
  | argument (text : String)
deriving DecidableEq, Repr

/-- Options known everywhere. -/
def commonOptions : List OptionSpec :=
  [{ name := "api-url", takesValue := true }, { name := "preview-url", takesValue := true },
    { name := "idle-timeout", takesValue := true },
    { name := "help", letter := some 'h', takesValue := false }]

/-- Options known before the subcommand. -/
def topOptions : List OptionSpec :=
  commonOptions ++ [{ name := "version", letter := some 'V', takesValue := false }]

/-- Options of a subcommand. -/
def optionsOf (subcommand : String) : List OptionSpec :=
  commonOptions ++
    match subcommand with
    | "web" => [{ name := "history", takesValue := false }]
    | "resume" => [{ name := "web", takesValue := false }]
    | "graph" => [{ name := "json", takesValue := false }]
    | "list" => [{ name := "size", letter := some 's', takesValue := true }]
    | _ => []

/-- Subcommands. -/
def subcommands : List String :=
  ["workflow", "web", "resume", "graph", "list", "delete", "rename", "models", "tools"]

/-- Starts with a hyphen, and is not only a hyphen. -/
def isOptionWord (word : String) : Bool :=
  match word.toList with
  | '-' :: _ :: _ => true
  | _ => false

/-- The word of an option: its value is in the word, or the next word, or there is none. -/
def optionWord? (spec : OptionSpec) (value : Option String) (rest : List String) :
    Option (Word × List String) :=
  match spec.takesValue, value with
  | false, none => some (.option spec.name none, rest)
  | false, some _ => none
  | true, some v => some (.option spec.name (some v), rest)
  | true, none =>
    match rest with
    | v :: rest => if isOptionWord v then none else some (.option spec.name (some v), rest)
    | [] => none

/-- Reads a word that starts with two hyphens. -/
def longOption? (specs : List OptionSpec) (text : List Char) (rest : List String) :
    Option (Word × List String) :=
  let name := String.ofList (text.takeWhile (· != '='))
  let value :=
    match text.dropWhile (· != '=') with
    | _ :: value => some (String.ofList value)
    | [] => none
  (specs.find? (·.name == name)).bind (optionWord? · value rest)

/-- Reads a word that starts with one hyphen. Letters of options without a value may be joined. -/
def shortOptions? (specs : List OptionSpec) (rest : List String) :
    List Char → Option (List Word × List String)
  | [] => some ([], rest)
  | c :: cs =>
    match specs.find? (·.letter == some c) with
    | none => none
    | some spec =>
      if spec.takesValue then
        let value :=
          match cs with
          | [] => none
          | '=' :: value => some (String.ofList value)
          | value => some (String.ofList value)
        (optionWord? spec value rest).map fun r => ([r.1], r.2)
      else
        (shortOptions? specs rest cs).map fun r => (.option spec.name none :: r.1, r.2)

/-- Reads the options at the start of a command line. -/
def optionsAt? (specs : List OptionSpec) (word : String) (rest : List String) :
    Option (List Word × List String) :=
  match word.toList with
  | '-' :: '-' :: text => (longOption? specs text rest).map fun r => ([r.1], r.2)
  | '-' :: letters => shortOptions? specs rest letters
  | _ => none

/-- The name of an option that ends the reading of a command line. -/
def isFinal : Word → Bool
  | .option name _ => name == "help" || name == "version"
  | .argument _ => false

/-! ## Values -/

/-- A natural number of 32 bits: decimal digits behind an optional sign, where only zero may have a
minus sign. -/
def nat32? (text : String) : Option Nat :=
  let n? :=
    match text.toList with
    | '-' :: digits =>
      if digits.head? = some '+' then none
      else (Settings.nat64OfText? (String.ofList digits)).filter (· = 0)
    | _ => Settings.nat64OfText? text
  n?.filter (· < Nat.pow 2 32)

/-- The value of an option that may be given once. -/
def valueOf (words : List Word) (name : String) : Option String :=
  words.findSome? fun
    | .option n v => if n == name then v else none
    | .argument _ => none

/-- The option is given. -/
def isGiven (words : List Word) (name : String) : Bool :=
  words.any fun
    | .option n _ => n == name
    | .argument _ => false

/-- The names of the options given. -/
def optionNames (words : List Word) : List String :=
  words.filterMap fun
    | .option n _ => some n
    | .argument _ => none

/-- The arguments given. -/
def arguments (words : List Word) : List String :=
  words.filterMap fun
    | .option .. => none
    | .argument text => some text

/-- The words fit: no option is given twice, and values that have to be numbers are numbers. -/
def isSound (words : List Word) : Bool :=
  let names := optionNames words
  names.eraseDups.length = names.length &&
    (valueOf words "idle-timeout").all (fun v => (Settings.nat64OfText? v).isSome) &&
    (valueOf words "size").all fun v => (nat32? v).isSome

/-! ## Command lines -/

/-- What is known when the words of a level have been read. -/
inductive Level
  | words (words : List Word) (rest : List String)
  | final (name : String)

/-- Reads the words of a level. On the top level the first argument ends it. -/
def level? (specs : List OptionSpec) (isTop : Bool) :
    Nat → List Word → List String → Option Level
  | 0, _, _ => none
  | _ + 1, words, [] => some (.words words [])
  | fuel + 1, words, word :: rest =>
    if word = "--" then
      if isTop then some (.words words (word :: rest))
      else some (.words (words ++ rest.map .argument) [])
    else if isOptionWord word then
      match optionsAt? specs word rest with
      | none => none
      | some (found, rest) =>
        let before := found.takeWhile (!isFinal ·)
        if !isSound (words ++ before) then none
        else
          match found.find? isFinal with
          | some (.option name _) => some (.final name)
          | _ => level? specs isTop fuel (words ++ found) rest
    else if isTop then some (.words words (word :: rest))
    else level? specs isTop fuel (words ++ [.argument word]) rest

/-- The task of a subcommand with these words. -/
def task? (subcommand : String) (words : List Word) : Option Task :=
  match subcommand, arguments words with
  | "workflow", [prompt] => some (.workflow prompt)
  | "web", [workflowId, prompt] => some (.web workflowId prompt (isGiven words "history"))
  | "resume", [workflowId, executionId] =>
    some (.resume workflowId executionId (isGiven words "web"))
  | "graph", [id] => some (.graph id (isGiven words "json"))
  | "list", [] => some (.list (((valueOf words "size").bind nat32?).getD 20))
  | "delete", [id] => some (.delete id)
  | "rename", [id, name] => some (.rename id name)
  | "models", [] => some .models
  | "tools", [] => some .tools
  | _, _ => none

/-- The options of both levels; a value behind the subcommand comes before one in front of it, and
both come before the environment. -/
def options (env : String → Option String) (top sub : List Word) : Options :=
  let value := fun name => (valueOf sub name).or (valueOf top name)
  { apiUrl := (value "api-url").or (env "STUDIO_API_URL")
    previewUrl := (value "preview-url").or (env "STUDIO_PREVIEW_URL")
    idleTimeout := (value "idle-timeout").bind Settings.nat64OfText? }

/-- Reads a command line. -/
def parse (env : String → Option String) (args : List String) : Option Invocation := do
  let fuel := args.length + 1
  match ← level? topOptions true fuel [] args with
  | .final "version" => return .version
  | .final _ => return .help
  | .words top (subcommand :: rest) =>
    if subcommand = "help" then
      match rest with
      | [] => return .help
      | [topic] => if subcommands.contains topic || topic = "help" then return .help else none
      | _ => none
    else if subcommands.contains subcommand then
      match ← level? (optionsOf subcommand) false fuel [] rest with
      | .final _ => return .help
      | .words sub _ => return .run (options env top sub) (← task? subcommand sub)
    else none
  | .words _ [] => none

example : parse (fun _ => none) ["list", "-s5"] = some (.run {} (.list 5)) := by decide +kernel
example :
    parse (fun _ => none) ["workflow", "--", "--odd"] = some (.run {} (.workflow "--odd")) := by
  decide +kernel
example : parse (fun _ => none) ["list", "--size", "-1"] = none := by decide +kernel

end PromptStudio.Command
