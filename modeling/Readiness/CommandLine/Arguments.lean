import Readiness.Host.Records

/-!
# CommandLine — Arguments

Reading the words of a command line.  Words are read from left to right, and the first that asks for
help or the version, or that fits nowhere, decides.

* `Switch` lists the options; those in `Switch.everywhere` may stand before and after the command;
* `Arguments.read` turns the words into an `Invocation`.
-/

namespace Readiness

/-- What is to be done. -/
inductive Command where
  | init (force : Bool)
  | verify (step : String)
  | status
  | steps
  /-- The proof of one step, or all proofs. -/
  | reset (step : Option String)
  | merge (pullRequest : Nat) (method : MergeMethod)
deriving DecidableEq, Repr

structure Invocation where
  json : Bool
  /-- The directory to start from. -/
  dir : String
  command : Command
deriving DecidableEq, Repr

/-- Why there is nothing to be done. -/
inductive Halt where
  | help
  | version
  | misuse
deriving DecidableEq, Repr

/-- An option. -/
inductive Switch where
  | verbose
  | json
  | dir
  | force
  | method
  | help
  | version
deriving DecidableEq, Repr

namespace Switch

def everywhere : List Switch := [verbose, json, dir, help]

def short? : Switch → Option Char
  | verbose => some 'v'
  | json    => none
  | dir     => some 'C'
  | force   => some 'f'
  | method  => some 'm'
  | help    => some 'h'
  | version => some 'V'

def long : Switch → String
  | verbose => "verbose"
  | json    => "json"
  | dir     => "dir"
  | force   => "force"
  | method  => "method"
  | help    => "help"
  | version => "version"

/-- The option comes with a value. -/
def takesValue (s : Switch) : Bool := s == dir || s == method

/-- The option may have this value. -/
def admits (s : Switch) (value : String) : Bool :=
  match s with
  | dir    => value != ""
  | method => (MergeMethod.parse value).toOption.isSome
  | _      => true

end Switch

namespace Arguments

/-! ### One level -/

/-- What has been read at one level: options with their values, and other words. -/
structure Given where
  switches : List (Switch × String)
  words : List String
deriving DecidableEq, Repr

namespace Given

def none : Given := ⟨[], []⟩

def has (g : Given) (s : Switch) : Bool := g.switches.any fun e => e.1 == s

def value? (g : Given) (s : Switch) : Option String := g.switches.lookup s

/-- One option more.  It must not be there yet. -/
def add (g : Given) (s : Switch) (value : String) : Except Halt Given :=
  match s with
  | .help    => .error .help
  | .version => .error .version
  | s =>
    if g.has s || !s.admits value then .error .misuse
    else .ok { g with switches := g.switches ++ [(s, value)] }

end Given

/-- Where a level ends: with the words, or at a command and the words after it. -/
inductive Ending where
  | words
  | command (name : String) (rest : List String)
deriving DecidableEq, Repr

/-- What may stand at a level. -/
structure Level where
  switches : List Switch
  /-- The commands among which one may be named. -/
  commands : List String
  /-- How many other words there may be. -/
  words : Nat
  /-- What each of these words may be. -/
  admits : String → Bool

/-- The value that the next word is; words that look like options are none. -/
def valueWord? : List String → Option (String × List String)
  | [] => none
  | w :: ws => if Text.hasStart w "-" && w != "-" then none else some (w, ws)

/-- A word that begins with two hyphens, without them: a name, perhaps with a value. -/
def longSwitch (l : Level) (cs : List Char) : Option (Switch × Option String) :=
  let name := String.ofList (cs.takeWhile (· ≠ '='))
  (l.switches.find? fun s => s.long == name).map fun s =>
    (s, match cs.dropWhile (· ≠ '=') with
      | _ :: value => some (String.ofList value)
      | [] => none)

/-- A group of short options.  Gives the option at its end that still needs a value, if any. -/
def shortSwitches (l : Level) (g : Given) : List Char → Except Halt (Given × Option Switch)
  | [] => .ok (g, none)
  | c :: cs =>
    match l.switches.find? fun s => s.short? == some c with
    | none => .error .misuse
    | some s =>
      if s.takesValue then
        match cs with
        | [] => .ok (g, some s)
        | '=' :: value | value => (g.add s (String.ofList value)).map fun g => (g, none)
      else
        match g.add s "" with
        | .ok g => shortSwitches l g cs
        | .error h => .error h

/-- Words more that are no options. -/
def addWords (l : Level) (g : Given) (ws : List String) : Except Halt Given :=
  if g.words.length + ws.length ≤ l.words ∧ ws.all l.admits then
    .ok { g with words := g.words ++ ws }
  else .error .misuse

/-- The option at the head of the words, with its value, and the words after it. -/
def readSwitch (l : Level) (g : Given) (w : String) (ws : List String) :
    Except Halt (Given × List String) :=
  let needValue (g : Given) (s : Switch) : Except Halt (Given × List String) :=
    match valueWord? ws with
    | some (value, ws) => (g.add s value).map fun g => (g, ws)
    | none => .error .misuse
  match w.toList with
  | '-' :: '-' :: cs =>
    match longSwitch l cs with
    | none => .error .misuse
    | some (s, none) =>
      if s.takesValue then needValue g s else (g.add s "").map fun g => (g, ws)
    | some (s, some value) =>
      if s.takesValue then (g.add s value).map fun g => (g, ws) else .error .misuse
  | cs =>
    match shortSwitches l g (cs.drop 1) with
    | .error h => .error h
    | .ok (g, none) => .ok (g, ws)
    | .ok (g, some s) => needValue g s

/-- Reads a level, at most `fuel` words of it. -/
def readLevel (l : Level) : Nat → Given → List String → Except Halt (Given × Ending)
  | _, g, [] => .ok (g, .words)
  | 0, _, _ :: _ => .error .misuse
  | fuel + 1, g, w :: ws =>
    if w = "--" then (addWords l g ws).map fun g => (g, .words)
    else if Text.hasStart w "-" && w != "-" then
      match readSwitch l g w ws with
      | .error h => .error h
      | .ok (g, ws) => readLevel l fuel g ws
    else if l.commands.contains w then .ok (g, .command w ws)
    else
      match addWords l g [w] with
      | .error h => .error h
      | .ok g => readLevel l fuel g ws

/-! ### The whole command line -/

def commandNames : List String := ["init", "verify", "status", "steps", "reset", "merge"]

/-- The largest number of a pull request. -/
def numberMax : Nat := 2 ^ 64 - 1

/-- The number of a pull request in a word. -/
def number? (word : String) : Option Nat := Text.natural? numberMax word.toList

/-- Before the command. -/
def outerLevel : Level where
  switches := .version :: Switch.everywhere
  commands := "help" :: commandNames
  words := 0
  admits _ := true

/-- After a command. -/
def innerLevel (command : String) : Level where
  switches := Switch.everywhere ++
    match command with
    | "init"  => [.force]
    | "merge" => [.method]
    | _       => []
  commands := []
  words := if ["verify", "reset", "merge"].contains command then 1 else 0
  admits word := command != "merge" || (number? word).isSome

/-- The method that was asked for; pull requests are squashed unless another is. -/
def methodOf (g : Given) : MergeMethod :=
  ((g.value? .method).bind fun v => (MergeMethod.parse v).toOption).getD .squash

/-- The command with a name and what was given to it. -/
def command? (name : String) (g : Given) : Option Command :=
  match name, g.words with
  | "init", [] => some (.init (g.has .force))
  | "verify", [step] => some (.verify step)
  | "status", [] => some .status
  | "steps", [] => some .steps
  | "reset", [] => some (.reset none)
  | "reset", [step] => some (.reset (some step))
  | "merge", [n] => (number? n).map fun n => .merge n (methodOf g)
  | _, _ => none

/-- The directory to start from when none is given. -/
def defaultDir : String := "."

/-- What a command line asks for. -/
def read (words : List String) : Except Halt Invocation :=
  match readLevel outerLevel words.length .none words with
  | .error h => .error h
  | .ok (_, .words) => .error .misuse
  | .ok (outer, .command name rest) =>
    if name = "help" then .error .help
    else
      match readLevel (innerLevel name) rest.length .none rest with
      | .error h => .error h
      | .ok (inner, _) =>
        match command? name inner with
        | none => .error .misuse
        | some command =>
          .ok ⟨outer.has .json || inner.has .json,
            ((inner.value? .dir).or (outer.value? .dir)).getD defaultDir, command⟩

end Arguments

end Readiness
