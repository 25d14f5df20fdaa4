import JarDeploy.CommandLine.Similarity

/-!
# Reading a command line

A program is a top-level command with subcommands; each command knows its arguments:
flags, options taking one value, and the help and version flags. Reading a command line
follows the usual conventions:

* `--name`, `--name=value` and `--name value` give a long argument; `-x` gives a short
  one, several flags may share one dash (`-vh`), and an option may carry its value
  attached (`-cfile`, `-c=file`);
* `--` ends the arguments: everything after it is a positional word;
* a word naming a subcommand of the top-level command starts that subcommand, which reads
  the rest; `help` followed by names shows the help of the command they name;
* help and version are shown as soon as their flag is read; a flag or option given twice,
  an option without its value, a value that cannot be read, a word that names nothing,
  two arguments that exclude each other, or a required argument left out is refused with
  a message that ends by the usage of the command.

The usage of a command names its required arguments; in a message about the arguments
given it names the required arguments and then those given, in the order given.
-/

namespace JarDeploy.CommandLine

set_option autoImplicit false

/-- How the value of an option is read. -/
inductive ValueRule where
  /-- A path: any text but the empty one. -/
  | path
  /-- A count: decimal digits, with an optional `+` before them, below `2 ^ 64`. -/
  | count
  deriving Repr, BEq, Inhabited

/-- What an argument is. -/
inductive ArgKind where
  /-- A flag, present or not. -/
  | flag
  /-- An option with one value, shown as `<name>`. -/
  | value (name : String) (rule : ValueRule)
  /-- The help flag. -/
  | help
  /-- The version flag. -/
  | version
  deriving Repr, BEq, Inhabited

/-- An argument of a command. -/
structure ArgSpec where
  id : String
  long : String
  short : Option Char := none
  kind : ArgKind := .flag
  help : String := ""
  defaultValue : Option String := none
  required : Bool := false
  /-- The arguments it cannot be given with. -/
  conflicts : List String := []
  /-- Where it is shown in the help: by this number, then by its letter. -/
  order : Nat := 999
  deriving Repr, Inhabited

namespace ArgSpec

/-- The value placeholder, with a blank before it, of an option. -/
def valuePart (a : ArgSpec) : String :=
  match a.kind with
  | .value n _ => " <" ++ n ++ ">"
  | _ => ""

/-- The argument as messages name it: `--name <VALUE>`. -/
def display (a : ArgSpec) : String := "--" ++ a.long ++ a.valuePart

/-- The argument as the help lists it; long-only arguments line up with the others when
some argument has a short form. -/
def helpSpec (a : ArgSpec) (anyShort : Bool) : String :=
  let lead := match a.short with
    | some c => "-" ++ c.toString ++ ", "
    | none => if anyShort then "    " else ""
  lead ++ "--" ++ a.long ++ a.valuePart

/-- The description of the argument in the help, with its default. -/
def helpText (a : ArgSpec) : String :=
  a.help ++ match a.defaultValue with
    | some d => " [default: " ++ d ++ "]"
    | none => ""

/-- The key that orders arguments of one rank in the help: the short form, lower case,
marked `0` when it was lower case and `1` otherwise; else the long form. -/
def sortKey (a : ArgSpec) : String :=
  match a.short with
  | some c => c.toLower.toString ++ (if c.isLower then "0" else "1")
  | none => a.long

/-- Is one argument listed no later than another in the help? -/
def listedBefore (a b : ArgSpec) : Bool :=
  decide (a.order < b.order) || (a.order == b.order && decide (a.sortKey ≤ b.sortKey))

/-- Is the argument the help or version flag? -/
def isBuiltin (a : ArgSpec) : Bool := a.kind == .help || a.kind == .version

end ArgSpec

/-- A command: its name as invoked, what it does, its arguments in the order it knows
them, its subcommands with what they do, a positional list it may take, and the version
of the program. -/
structure CommandSpec where
  path : String
  about : String
  args : List ArgSpec
  subcommands : List (String × String) := []
  positional : Option (String × String) := none
  version : Option String := none
  deriving Repr, Inhabited

/-- Blanks. -/
def blanks (n : Nat) : String := String.ofList (List.replicate n ' ')

/-- Two columns: each name padded to the longest, then its description. -/
def columns (rows : List (String × String)) : String :=
  let width := rows.foldl (fun w r => max w r.1.length) 0
  String.join (rows.map fun (n, d) => "  " ++ n ++ blanks (width - n.length) ++ "  " ++ d ++ "\n")

namespace CommandSpec

/-- The argument with an id. -/
def find? (c : CommandSpec) (id : String) : Option ArgSpec := c.args.find? (·.id == id)

/-- The ids of the required arguments. -/
def requiredIds (c : CommandSpec) : List String := (c.args.filter (·.required)).map (·.id)

/-- Does the usage show `[OPTIONS]`: is there an optional argument besides help and
version? -/
def hasOptions (c : CommandSpec) : Bool := c.args.any fun a => !a.required && !a.isBuiltin

/-- The end of a usage: the subcommand placeholder or the positional list. -/
def usageEnd (c : CommandSpec) : String :=
  (if c.subcommands.isEmpty then "" else " <COMMAND>") ++
    match c.positional with
    | some (p, _) => " " ++ p
    | none => ""

/-- The usage of a command as its help shows it. -/
def helpUsage (c : CommandSpec) : String :=
  c.path ++ (if c.hasOptions then " [OPTIONS]" else "") ++
    String.join ((c.args.filter (·.required)).map (" " ++ ·.display)) ++ c.usageEnd

/-- The usage naming the required arguments, then the arguments `used`, each once. -/
def usedUsage (c : CommandSpec) (used : List String) : String :=
  let ids := (c.requiredIds ++ used).foldl (fun acc i => if acc.contains i then acc else acc ++ [i]) []
  c.path ++ String.join ((ids.filterMap c.find?).map (" " ++ ·.display)) ++ c.usageEnd

/-- The usage in a message about the arguments `used`: the help usage when none. -/
def usage (c : CommandSpec) (used : List String) : String :=
  if used.isEmpty then c.helpUsage else c.usedUsage used

/-- The help of a command. -/
def helpText (c : CommandSpec) : String :=
  let shown := c.args.mergeSort ArgSpec.listedBefore
  let anyShort := shown.any (·.short.isSome)
  let commands := if c.subcommands.isEmpty then "" else "Commands:\n" ++ columns c.subcommands ++ "\n"
  let positional := match c.positional with
    | some p => "Arguments:\n" ++ columns [p] ++ (if shown.isEmpty then "" else "\n")
    | none => ""
  let options := if shown.isEmpty then "" else
    "Options:\n" ++ columns (shown.map fun a => (a.helpSpec anyShort, a.helpText))
  c.about ++ "\n\nUsage: " ++ c.helpUsage ++ "\n\n" ++ commands ++ positional ++ options

/-- The version line of a program. -/
def versionText (c : CommandSpec) : String := c.path ++ " " ++ c.version.getD "" ++ "\n"

end CommandSpec

/-- A word offered in place of one that names nothing. -/
inductive Suggestion where
  /-- An argument of the command. -/
  | argument (name : String)
  /-- An argument of a subcommand named later on the command line. -/
  | inSubcommand (subcommand name : String)
  /-- A subcommand named after `--`, which it cannot be. -/
  | afterEscape (subcommand : String)
  deriving Repr, Inhabited

/-- The tip offering a suggestion. -/
def Suggestion.tip : Suggestion → String
  | .argument n => "a similar argument exists: '" ++ n ++ "'"
  | .inSubcommand s n => "'" ++ s ++ " " ++ n ++ "' exists"
  | .afterEscape s => "subcommand '" ++ s ++ "' exists; to use it, remove the '--' before it"

/-- Why a command line is refused. -/
inductive ArgError where
  | unexpectedArgument (arg : String) (similar : Option Suggestion) (usage : String)
  | unrecognizedSubcommand (name : String) (similar : List String) (usage : String)
  | missingSubcommand (program : String) (names : List String) (usage : String)
  | missingRequired (args : List String) (usage : String)
  | conflict (arg other : String) (usage : String)
  | repeated (arg : String) (usage : String)
  | emptyValue (arg : String)
  | invalidValue (value arg reason : String)
  | unexpectedValue (value arg : String) (usage : String)
  deriving Repr, Inhabited

/-- Names in quotes, separated by commas. -/
def quotedList (xs : List String) : String := ", ".intercalate (xs.map fun x => "'" ++ x ++ "'")

/-- The end of a refusal: the usage, if any, and where to look for more. -/
def refusalEnd (usage : Option String) : String :=
  (match usage with
    | some u => "\n\nUsage: " ++ u
    | none => "") ++ "\n\nFor more information, try '--help'.\n"

/-- The text of a refusal. -/
def ArgError.render : ArgError → String
  | .unexpectedArgument a s u =>
    "error: unexpected argument '" ++ a ++ "' found" ++
      (match s with
        | some x => "\n\n  tip: " ++ x.tip
        | none => "") ++ refusalEnd (some u)
  | .unrecognizedSubcommand n sims u =>
    "error: unrecognized subcommand '" ++ n ++ "'" ++
      (match sims with
        | [] => ""
        | [x] => "\n\n  tip: a similar subcommand exists: '" ++ x ++ "'"
        | xs => "\n\n  tip: some similar subcommands exist: " ++ quotedList xs) ++ refusalEnd (some u)
  | .missingSubcommand p ns u =>
    "error: '" ++ p ++ "' requires a subcommand but one was not provided\n  [subcommands: " ++
      ", ".intercalate ns ++ "]" ++ refusalEnd (some u)
  | .missingRequired as u =>
    "error: the following required arguments were not provided:" ++
      String.join (as.map ("\n  " ++ ·)) ++ refusalEnd (some u)
  | .conflict a o u => "error: the argument '" ++ a ++ "' cannot be used with '" ++ o ++ "'" ++ refusalEnd (some u)
  | .repeated a u => "error: the argument '" ++ a ++ "' cannot be used multiple times" ++ refusalEnd (some u)
  | .emptyValue a => "error: a value is required for '" ++ a ++ "' but none was supplied" ++ refusalEnd none
  | .invalidValue v a r => "error: invalid value '" ++ v ++ "' for '" ++ a ++ "': " ++ r ++ refusalEnd none
  | .unexpectedValue v a u =>
    "error: unexpected value '" ++ v ++ "' for '" ++ a ++ "' found; no more were expected" ++ refusalEnd (some u)

/-- Read a count: optional `+`, then decimal digits, below `2 ^ 64`; the first fault met
from the left is reported. -/
def readCount (s : String) : Except String Nat :=
  let digits := match s.toList with
    | '+' :: rest => if rest.isEmpty then none else some rest
    | cs => some cs
  if s.isEmpty then .error "cannot parse integer from empty string"
  else match digits with
    | none => .error "invalid digit found in string"
    | some ds => ds.foldlM (fun (n : Nat) (c : Char) =>
        if !c.isDigit then .error "invalid digit found in string"
        else
          let n' := n * 10 + (c.toNat - '0'.toNat)
          if n' < 18446744073709551616 then .ok n' else .error "number too large to fit in target type") 0

/-- What reading a command line ends with. -/
inductive Reading where
  /-- Show this text (help or version) and succeed. -/
  | show (text : String)
  /-- Refuse the command line with this text on the error stream. -/
  | refuse (text : String)
  /-- Run a subcommand with the arguments given to the program and to the subcommand,
  each with its value if it takes one. -/
  | run (name : String) (top sub : List (String × Option String))
  deriving Repr, Inhabited

/-- The arguments given to one command so far, in order, and an option still waiting
for its value. -/
structure Given where
  args : List (String × Option String) := []
  pending : Option ArgSpec := none
  deriving Inhabited

namespace Given

/-- Is an argument given? -/
def has (g : Given) (id : String) : Bool := g.args.any (·.1 == id)

/-- The ids of the arguments given. -/
def ids (g : Given) : List String := g.args.map (·.1)

end Given

/-- A refusal while reading. -/
def refuse {α : Type} (e : ArgError) : Except Reading α := .error (.refuse e.render)

/-- An option waiting for a value that did not come is refused. -/
def settle (g : Given) : Except Reading Given :=
  match g.pending with
  | some a => refuse (.emptyValue a.display)
  | none => .ok g

/-- Take an argument read, with the value given to it. -/
def accept (c : CommandSpec) (g : Given) (a : ArgSpec) (value : Option String) : Except Reading Given := do
  let g ← settle g
  match a.kind with
  | .help => throw (.show c.helpText)
  | .version => throw (.show c.versionText)
  | .flag =>
    if g.has a.id then refuse (.repeated a.display (c.usage [])) else
    return { g with args := g.args ++ [(a.id, none)] }
  | .value _ rule =>
    match value with
    | none => refuse (.emptyValue a.display)
    | some v =>
      if g.has a.id then refuse (.repeated a.display (c.usage [])) else
      match rule with
      | .path => if v.isEmpty then refuse (.emptyValue a.display) else
        return { g with args := g.args ++ [(a.id, some v)] }
      | .count => match readCount v with
        | .error r => refuse (.invalidValue v a.display r)
        | .ok _ => return { g with args := g.args ++ [(a.id, some v)] }

/-- The best known long name similar to `name`, if any. -/
def bestLong (c : CommandSpec) (name : String) : Option String :=
  (similarNames name (c.args.map (·.long))).getLast?

/-- A subcommand named among the words still to come that knows a long name similar to
`name`: the one named first, with that name. -/
def laterSubcommandLong (subs : List (String × CommandSpec)) (name : String) (later : List String) :
    Option (String × String) :=
  let found := subs.filterMap fun (n, sc) => do
    let l ← bestLong sc name
    let pos ← later.idxOf? n
    return (pos, n, l)
  (found.foldl (fun (best : Option (Nat × String × String)) x => match best with
    | some b => if x.1 < b.1 then some x else some b
    | none => some x) none).map (·.2)

/-- Read a long argument `--name` or `--name=value`; `later` are the words after it. -/
def readLong (c : CommandSpec) (subs : List (String × CommandSpec)) (g : Given) (body : String)
    (later : List String) : Except Reading Given :=
  let (name, value) := match body.splitOn "=" with
    | [] => (body, none)
    | n :: rest => (n, if rest.isEmpty then none else some ("=".intercalate rest))
  match c.args.find? (·.long == name) with
  | none =>
    match bestLong c name with
    | some best =>
      let used := g.ids ++ (match c.args.find? (·.long == best) with
        | some a => if g.has a.id then [] else [a.id]
        | none => [])
      refuse (.unexpectedArgument ("--" ++ name) (some (.argument ("--" ++ best))) (c.usage used))
    | none =>
      let tip := (laterSubcommandLong subs name later).map fun (n, l) => Suggestion.inSubcommand n ("--" ++ l)
      refuse (.unexpectedArgument ("--" ++ name) tip (c.usage g.ids))
  | some a =>
    match a.kind, value with
    | .value _ _, none => do
      let g ← settle g
      return { g with pending := some a }
    | .value _ _, some v => accept c g a (some v)
    | _, some v =>
      refuse (.unexpectedValue v a.display (c.usage ((g.ids.filter fun i => !c.requiredIds.contains i) ++ [a.id])))
    | _, none => accept c g a none

/-- Read a cluster of short arguments after a dash. -/
def readShorts (c : CommandSpec) (g : Given) : List Char → Except Reading Given
  | [] => .ok g
  | ch :: more =>
    match c.args.find? (·.short == some ch) with
    | none => refuse (.unexpectedArgument ("-" ++ ch.toString) none (c.usage []))
    | some a =>
      match a.kind with
      | .value _ _ =>
        if more.isEmpty then do
          let g ← settle g
          return { g with pending := some a }
        else
          let v := String.ofList (match more with
            | '=' :: rest => rest
            | cs => cs)
          accept c g a (some v)
      | _ => do
        let g ← accept c g a none
        readShorts c g more

/-- A word that is neither an argument nor a value. -/
def strayWord {α : Type} (c : CommandSpec) (word : String) : Except Reading α :=
  if c.subcommands.isEmpty then refuse (.unexpectedArgument word none (c.usage []))
  else refuse (.unrecognizedSubcommand word (similarNames word (c.subcommands.map (·.1))) (c.usage []))

/-- Read the words given to a command; stop at a word naming one of its subcommands and
hand back that name with the words after it. -/
def readWords (c : CommandSpec) (subs : List (String × CommandSpec)) (g : Given) (escaped : Bool) :
    List String → Except Reading (Given × Option (String × List String))
  | [] => do return (← settle g, none)
  | w :: rest =>
    if escaped then
      if c.subcommands.any (·.1 == w) then
        refuse (.unexpectedArgument "--" (some (.afterEscape w)) (c.usage []))
      else refuse (.unexpectedArgument w none (c.usage []))
    else if c.subcommands.any (·.1 == w) then do return (← settle g, some (w, rest))
    else if w == "--" then readWords c subs g true rest
    else if w.startsWith "--" then do
      let g ← readLong c subs g (w.drop 2).toString rest
      readWords c subs g escaped rest
    else if w.startsWith "-" && w.length > 1 then do
      let g ← readShorts c g (w.drop 1).toString.toList
      readWords c subs g escaped rest
    else match g.pending with
      | some a => do
        let g ← accept c { g with pending := none } a (some w)
        readWords c subs g escaped rest
      | none => strayWord c w

/-- Check what a subcommand was given: no two arguments that exclude each other, and
every required argument. -/
def checkGiven (c : CommandSpec) (g : Given) : Except Reading Unit := do
  for (id, _) in g.args do
    match c.find? id with
    | none => pure ()
    | some a =>
      let against := g.ids.filter fun o => o != id &&
        (a.conflicts.contains o || ((c.find? o).map (·.conflicts.contains id)).getD false)
      match against.head? >>= c.find? with
      | some other =>
        refuse (.conflict a.display other.display (c.usage (g.ids.filter fun i => !against.contains i)))
      | none => pure ()
  let missing := c.requiredIds.filter fun i => !g.has i
  if !missing.isEmpty then
    refuse (.missingRequired ((missing.filterMap c.find?).map (·.display)) (c.usage (g.ids ++ missing)))

/-- A program: its top-level command and its subcommands. -/
structure Program where
  top : CommandSpec
  commands : List (String × CommandSpec)
  deriving Inhabited

/-- Show the help of the command named by a list of subcommand names. -/
def helpOf (p : Program) (current : CommandSpec) : List String → Reading
  | [] => .show current.helpText
  | n :: more =>
    match (if current.path == p.top.path then p.commands.lookup n else none) with
    | some sub => helpOf p sub more
    | none => .refuse (ArgError.unrecognizedSubcommand n [] (current.usage [])).render

/-- Read a command line. -/
def Program.read (p : Program) (words : List String) : Reading :=
  match readWords p.top p.commands {} false words with
  | .error r => r
  | .ok (g, none) =>
    if g.args.isEmpty then .refuse p.top.helpText
    else .refuse (ArgError.missingSubcommand p.top.path (p.top.subcommands.map (·.1)) (p.top.usage [])).render
  | .ok (g, some (name, rest)) =>
    match (if name == "help" then none else p.commands.lookup name) with
    | none => helpOf p p.top rest
    | some sub =>
      match readWords sub [] {} false rest with
      | .error r => r
      | .ok (sg, _) =>
        match checkGiven sub sg with
        | .error r => r
        | .ok _ => .run name g.args sg.args

end JarDeploy.CommandLine
