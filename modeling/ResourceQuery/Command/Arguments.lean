/-
The arguments of the command.

The first argument that is no option names what is to be done, and what follows is
read by that task's own options.  An argument is an option if it starts with a
hyphen and has more behind it.  Letters may share a hyphen; an option that takes a
value takes the rest of its letters or of its word behind an equals sign, or else
the next argument, which then must not be an option.  Behind two hyphens alone
nothing is an option.

Arguments are read from left to right, and the first that asks for help or the
version, or cannot be what it is, settles the matter.
-/
import ResourceQuery.Command.Format

namespace ResourceQuery.Command

/-! ### Single arguments -/

/-- An option. -/
inductive Flag
  /-- Report what happens. -/
  | verbose
  /-- Print JSON on several lines. -/
  | pretty
  /-- Print in a format, which is the option's value. -/
  | format
  | help
  | version
  deriving DecidableEq, Repr

namespace Flag

/-- The letter of an option. -/
def letter : Flag → Char
  | verbose => 'v'
  | pretty => 'p'
  | format => 'f'
  | help => 'h'
  | version => 'V'

/-- The word of an option. -/
def word : Flag → String
  | verbose => "verbose"
  | pretty => "pretty"
  | format => "format"
  | help => "help"
  | version => "version"

/-- Whether an option takes a value. -/
def takesValue (flag : Flag) : Bool :=
  flag = format

end Flag

/-- An argument by its form. -/
inductive Argument
  /-- Two hyphens alone. -/
  | separator
  /-- Two hyphens and a word, with what stands behind an equals sign. -/
  | word (name : String) (value : Option String)
  /-- A hyphen and letters. -/
  | letters (cs : List Char)
  /-- No option. -/
  | plain (s : String)
  deriving DecidableEq, Repr

/-- The text behind the first equals sign. -/
def behindEquals (cs : List Char) : Option String :=
  match cs.dropWhile (· ≠ '=') with
  | [] => none
  | _ :: value => some (String.ofList value)

/-- The form of an argument. -/
def Argument.ofString (s : String) : Argument :=
  match s.toList with
  | ['-', '-'] => separator
  | '-' :: '-' :: cs => word (String.ofList (cs.takeWhile (· ≠ '='))) (behindEquals cs)
  | '-' :: c :: cs => letters (c :: cs)
  | _ => plain s

/-! ### What the arguments say -/

/-- Why the arguments name nothing to do. -/
inductive Stop
  /-- They ask how the command is used. -/
  | help
  /-- They ask for the version. -/
  | version
  /-- They cannot be followed. -/
  | misuse
  deriving DecidableEq, Repr

/-- What is known from the arguments read so far. -/
structure Settings where
  flags : List Flag
  format : Option Format
  /-- The arguments that are no options. -/
  operands : List String
  deriving DecidableEq, Repr

namespace Settings

/-- Nothing is known. -/
def empty : Settings :=
  ⟨[], none, []⟩

/-- What one more option without a value says.  No option may be given twice. -/
def addFlag (s : Settings) : Flag → Except Stop Settings
  | .help => .error .help
  | .version => .error .version
  | flag => if flag ∈ s.flags then .error .misuse else .ok { s with flags := flag :: s.flags }

/-- What the format option says with a value. -/
def addFormat (s : Settings) (name : String) : Except Stop Settings :=
  match s.format, Format.ofName name with
  | none, .ok format => .ok { s with format := some format }
  | _, _ => .error .misuse

/-- What one more argument that is no option says, if so many are allowed. -/
def addOperand (s : Settings) (limit : Nat) (operand : String) : Except Stop Settings :=
  if s.operands.length < limit then .ok { s with operands := s.operands ++ [operand] }
  else .error .misuse

/-- What several arguments that are no options say. -/
def addOperands (s : Settings) (limit : Nat) : List String → Except Stop Settings
  | [] => .ok s
  | operand :: rest => do
    let s ← s.addOperand limit operand
    s.addOperands limit rest

end Settings

/-- The value of a letter's option in the letters behind it. -/
def attachedValue : List Char → String
  | '=' :: cs => String.ofList cs
  | cs => String.ofList cs

/-- What letters behind one hyphen say, and whether the last of them still lacks its
value. -/
def readLetters (known : List Flag) (s : Settings) :
    List Char → Except Stop (Settings × Bool)
  | [] => .ok (s, false)
  | c :: cs =>
    match known.find? (fun flag => flag.letter = c) with
    | none => .error .misuse
    | some flag =>
      if flag.takesValue then
        if cs.isEmpty then .ok (s, true)
        else (s.addFormat (attachedValue cs)).map (fun s => (s, false))
      else do
        let s ← s.addFlag flag
        readLetters known s cs

/-- What a word says, and whether it still lacks its value. -/
def readWord (known : List Flag) (s : Settings) (name : String) (value : Option String) :
    Except Stop (Settings × Bool) :=
  match known.find? (fun flag => flag.word == name), value with
  | none, _ => .error .misuse
  | some flag, none =>
    if flag.takesValue then .ok (s, true) else (s.addFlag flag).map (fun s => (s, false))
  | some flag, some value =>
    if flag.takesValue then (s.addFormat value).map (fun s => (s, false)) else .error .misuse

/-- What arguments say to a task that knows some options and takes so many other
arguments.  With `pending`, the next argument is the value of the format option. -/
def readSettings (known : List Flag) (limit : Nat) (s : Settings) (pending : Bool) :
    List String → Except Stop Settings
  | [] => if pending then .error .misuse else .ok s
  | arg :: rest =>
    match Argument.ofString arg, pending with
    | .plain value, true => do
      let s ← s.addFormat value
      readSettings known limit s false rest
    | _, true => .error .misuse
    | .plain operand, false => do
      let s ← s.addOperand limit operand
      readSettings known limit s false rest
    | .separator, false => s.addOperands limit rest
    | .word name value, false => do
      let (s, pending) ← readWord known s name value
      readSettings known limit s pending rest
    | .letters cs, false => do
      let (s, pending) ← readLetters known s cs
      readSettings known limit s pending rest

/-! ### Tasks -/

/-- What is to be done. -/
inductive Task
  /-- Print the tokens of a query. -/
  | tokenize (query : Option String) (format : Format) (pretty : Bool)
  /-- Say whether a query is well formed. -/
  | check (query : Option String)
  /-- Print the overview of the manual. -/
  | overview
  /-- Print a page of the manual. -/
  | page (name : String)
  deriving DecidableEq, Repr

/-- What is to be done, and whether to report what happens. -/
structure Invocation where
  task : Task
  verbose : Bool
  deriving DecidableEq, Repr

/-- The words that name tasks. -/
inductive Verb
  | tokenize
  | check
  | docs
  | doc
  | help
  deriving DecidableEq, Repr

namespace Verb

/-- The verb of a word. -/
def ofName? : String → Option Verb
  | "tokenize" => some tokenize
  | "check" => some check
  | "docs" => some docs
  | "doc" => some doc
  | "help" => some help
  | _ => none

/-- The options that go with a verb. -/
def flags : Verb → List Flag
  | tokenize => [.verbose, .pretty, .format, .help]
  | _ => [.verbose, .help]

/-- How many arguments that are no options go with a verb. -/
def operandLimit : Verb → Nat
  | tokenize => 1
  | check => 1
  | docs => 0
  | doc => 1
  | help => 0

/-- The task that a verb names with its settings. -/
def task (verb : Verb) (s : Settings) : Except Stop Task :=
  match verb with
  | tokenize => .ok (.tokenize s.operands.head? (s.format.getD .text) (s.flags.contains .pretty))
  | check => .ok (.check s.operands.head?)
  | docs => .ok .overview
  | doc =>
    match s.operands with
    | name :: _ => .ok (.page name)
    | [] => .error .misuse
  | help => .error .help

end Verb

/-- Why the verb `help` names nothing to do: it asks how the command, or one verb, is
used. -/
def readHelp : List String → Stop
  | [] => .help
  | [name] => if (Verb.ofName? name).isSome then .help else .misuse
  | _ => .misuse

/-- What a verb and the arguments behind it ask for. -/
def readVerb (verb : Verb) (verbose : Bool) (args : List String) : Except Stop Invocation :=
  if verb = .help then .error (readHelp args)
  else do
    let s ← readSettings verb.flags verb.operandLimit .empty false args
    let task ← verb.task s
    return ⟨task, verbose || s.flags.contains .verbose⟩

/-- What arguments ask for, behind options that have been read. -/
def readArguments (s : Settings) : List String → Except Stop Invocation
  | [] => .error .misuse
  | arg :: rest =>
    let known := [.verbose, .help, .version]
    match Argument.ofString arg with
    | .plain name =>
      match Verb.ofName? name with
      | some verb => readVerb verb (s.flags.contains .verbose) rest
      | none => .error .misuse
    | .separator => .error .misuse
    | .word name value => do
      let (s, _) ← readWord known s name value
      readArguments s rest
    | .letters cs => do
      let (s, _) ← readLetters known s cs
      readArguments s rest

/-- What the arguments ask for. -/
def Invocation.ofArguments (args : List String) : Except Stop Invocation :=
  readArguments .empty args

end ResourceQuery.Command
