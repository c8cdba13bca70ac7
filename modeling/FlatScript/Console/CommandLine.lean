/-
# The command line

| argument | meaning |
| --- | --- |
| `-f FILE`, `--file FILE` | read the script from a file |
| `--repl` | read statements line by line; so does a run without a script |
| `--tokens`, `--ast`, `--vars` | show tokens, statements, variables |
| `-v`, `--verbose` | more detail, each time it is given |
| `-h`, `--help`, `-V`, `--version` | show a text and stop |
| anything else | the script itself |

Short options may share a dash (`-vf FILE`), and a value may follow its option
directly (`-fFILE`, `-f=FILE`, `--file=FILE`).  After `--` nothing is an option.
Arguments are read from left to right, and the first one that is wrong, or that
asks for a text, decides; only combinations are checked at the end.
-/

import FlatScript.Console.Options

namespace FlatScript
namespace Console

/-- What is wrong with a command line. -/
inductive Misuse where
  | unknownArgument (argument : String)
  | repeated (option : String)
  | missingValue (option : String)
  | unneededValue (option : String)
  | conflict (one other : String)
deriving DecidableEq

/-- The wording of a misuse. -/
def Misuse.message : Misuse → String
  | .unknownArgument argument => s!"error: unexpected argument '{argument}' found"
  | .repeated option => s!"error: the argument '{option}' cannot be used multiple times"
  | .missingValue option => s!"error: a value is required for '{option}' but none was supplied"
  | .unneededValue option => s!"error: unexpected value for '{option}' found; no more were expected"
  | .conflict one other => s!"error: the argument '{one}' cannot be used with '{other}'"

/-- Why a command line gives no options. -/
inductive Halt where
  | help
  | version
  | misuse (cause : Misuse)
deriving DecidableEq

/-- What has been given on a command line so far. -/
structure Given where
  file : Option String := none
  script : Option String := none
  repl : Bool := false
  tokens : Bool := false
  ast : Bool := false
  vars : Bool := false
  verbosity : Nat := 0
deriving DecidableEq

namespace Given

/-- Records the file; a file has a name. -/
def withFile (g : Given) (path : String) : Except Halt Given :=
  if g.file.isSome then .error (.misuse (.repeated "--file <FILE>"))
  else if path.isEmpty then .error (.misuse (.missingValue "--file <FILE>"))
  else .ok { g with file := some path }

/-- Records the script; there is room for one. -/
def withScript (g : Given) (text : String) : Except Halt Given :=
  if g.script.isSome then .error (.misuse (.unknownArgument text))
  else .ok { g with script := some text }

/-- Counts one more wish for detail. -/
def louder (g : Given) : Given :=
  { g with verbosity := min 255 (g.verbosity + 1) }

/-- Records a long option that takes no value. -/
def withFlag (g : Given) (name : String) : Except Halt Given :=
  match name with
  | "repl" => if g.repl then .error (.misuse (.repeated "--repl")) else .ok { g with repl := true }
  | "tokens" =>
    if g.tokens then .error (.misuse (.repeated "--tokens")) else .ok { g with tokens := true }
  | "ast" => if g.ast then .error (.misuse (.repeated "--ast")) else .ok { g with ast := true }
  | "vars" => if g.vars then .error (.misuse (.repeated "--vars")) else .ok { g with vars := true }
  | "verbose" => .ok g.louder
  | "help" => .error .help
  | "version" => .error .version
  | _ => .error (.misuse (.unknownArgument ("--" ++ name)))

/-- Reads the short options after one dash.  The result says whether the last
one still waits for its value. -/
def withShorts (g : Given) : List Char → Except Halt (Given × Bool)
  | [] => .ok (g, false)
  | 'v' :: rest => g.louder.withShorts rest
  | 'h' :: _ => .error .help
  | 'V' :: _ => .error .version
  | 'f' :: [] => .ok (g, true)
  | 'f' :: '=' :: value => (g.withFile (String.ofList value)).map (·, false)
  | 'f' :: value => (g.withFile (String.ofList value)).map (·, false)
  | c :: _ => .error (.misuse (.unknownArgument (String.ofList ['-', c])))

/-- Reads the arguments after `--`: none of them is an option. -/
def withRest (g : Given) : List String → Except Halt Given
  | [] => .ok g
  | text :: rest =>
    match g.withScript text with
    | .ok g' => g'.withRest rest
    | .error halt => .error halt

/-- The options that have been given, if they go together. -/
def options (g : Given) : Except Halt Options :=
  let made (source : Source) : Except Halt Options :=
    .ok ⟨source, g.tokens, g.ast, g.vars, g.verbosity⟩
  match g.file, g.script, g.repl with
  | some _, some _, _ => .error (.misuse (.conflict "--file <FILE>" "[CONTENTS]"))
  | some _, none, true => .error (.misuse (.conflict "--repl" "--file <FILE>"))
  | none, some _, true => .error (.misuse (.conflict "--repl" "[CONTENTS]"))
  | some path, none, false => made (.file path)
  | none, some text, false => made (.inline text)
  | none, none, _ => made .interactive

end Given

/-- How an argument looks, before anything is known about its options. -/
inductive Argument where
  | long (name : String) (value : Option String)
  | shorts (cs : List Char)
  | separator
  | word (text : String)
deriving DecidableEq

/-- Looks at an argument.  A single dash is a word. -/
def Argument.ofString (text : String) : Argument :=
  match text.toList with
  | ['-', '-'] => .separator
  | '-' :: '-' :: body =>
    let name := String.ofList (body.takeWhile (· ≠ '='))
    match body.dropWhile (· ≠ '=') with
    | [] => .long name none
    | _ :: value => .long name (some (String.ofList value))
  | '-' :: c :: cs => .shorts (c :: cs)
  | _ => .word text

namespace CommandLine

/-- Reads the arguments from left to right; `waiting` says that a file name
should come next. -/
def read (g : Given) (waiting : Bool) : List String → Except Halt Given
  | [] => if waiting then .error (.misuse (.missingValue "--file <FILE>")) else .ok g
  | text :: rest =>
    match Argument.ofString text, waiting with
    | .word path, true =>
      match g.withFile path with
      | .ok g' => read g' false rest
      | .error halt => .error halt
    | _, true => .error (.misuse (.missingValue "--file <FILE>"))
    | .word script, false =>
      match g.withScript script with
      | .ok g' => read g' false rest
      | .error halt => .error halt
    | .separator, false => g.withRest rest
    | .shorts cs, false =>
      match g.withShorts cs with
      | .ok (g', waits) => read g' waits rest
      | .error halt => .error halt
    | .long "file" none, false => read g true rest
    | .long "file" (some path), false =>
      match g.withFile path with
      | .ok g' => read g' false rest
      | .error halt => .error halt
    | .long name none, false =>
      match g.withFlag name with
      | .ok g' => read g' false rest
      | .error halt => .error halt
    | .long name (some _), false => .error (.misuse (.unneededValue ("--" ++ name)))

/-- The options of a command line. -/
def parse (arguments : List String) : Except Halt Options :=
  match read {} false arguments with
  | .ok g => g.options
  | .error halt => .error halt

/-- The text that `--version` shows. -/
def versionText : String :=
  "tinyscript 0.1.0\n"

/-- The text that `--help` shows. -/
def helpText : String :=
  String.join [
    "A tiny imperative scripting language with a tree-walking interpreter.\n",
    "\n",
    "Usage: tinyscript [OPTIONS] [CONTENTS]\n",
    "\n",
    "Arguments:\n",
    "  [CONTENTS]  The script to run\n",
    "\n",
    "Options:\n",
    "  -f, --file <FILE>  Read the script from this file instead of the command line\n",
    "      --repl         Start an interactive session. This is the default when no script is given\n",
    "      --tokens       Print the token stream before parsing\n",
    "      --ast          Print the parsed statements before running them\n",
    "      --vars         Print the variable table once the script finishes\n",
    "  -v, --verbose...   Increase log verbosity. Repeat for more detail\n",
    "  -h, --help         Print help\n",
    "  -V, --version      Print version\n"]

end CommandLine
end Console
end FlatScript
