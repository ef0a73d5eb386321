import Mustache.Canonical
import Mustache.Diagnostic
import Mustache.Json.Token
import Mustache.Listing
import Mustache.Program.Arguments
import Mustache.Program.FileTree
import Mustache.Program.LogFilter

/-! The program as a function: from its arguments and a way to read files to its exit status and
to what it does, one thing at a time. What it prints and complains of can be read off that, and so
can what a listener shows. A failing run prints nothing on standard output but the usage of a
program that was called with an unknown command. -/
namespace Mustache.Program

/-- What the program does to the world around it. -/
inductive Action where
  /-- A listener gets to know something. -/
  | note (notice : Notice)
  /-- A text is written to standard output. -/
  | print (t : Text)
  /-- A text is written to standard error. -/
  | complain (t : Text)
  deriving DecidableEq, Repr

/-- What the program does, in this order, and its exit status. -/
structure Reply where
  status : Nat
  actions : List Action
  deriving DecidableEq, Repr

/-- The complaint that states an error. -/
def errorLine (message : Text) : Text := "error: ".toList ++ message ++ ['\n']

/-- The commands that work on a template. -/
inductive Task where
  /-- Print the tokens. -/
  | tokens
  /-- Print the canonical form. -/
  | canonical
  deriving DecidableEq, Repr

/-- How a task is called. -/
def Task.usage : Task → Text
  | .tokens =>
    "Usage: stache lex <file> [--json] [--delimiters=\"<open> <close>\"]\n".toList
  | .canonical => "Usage: stache canon <file> [--delimiters=\"<open> <close>\"]\n".toList

/-- What the program is asked to do. -/
inductive Request where
  | help
  | version
  | unknown (command : Text)
  /-- The arguments of a task have a problem. -/
  | refused (task : Task) (problem : ArgumentProblem)
  /-- Data was asked of a task that prints none. -/
  | noJson
  | work (task : Task) (arguments : Arguments)
  deriving DecidableEq, Repr

namespace Request

/-- A task with its arguments. -/
def ofTask (task : Task) (arguments : List Text) : Request :=
  match parseArguments arguments with
  | .error problem => .refused task problem
  | .ok parsed => if task == .canonical && parsed.json then .noJson else .work task parsed

/-- A command with its arguments. -/
def ofCommand (command : Text) (arguments : List Text) : Request :=
  if command == "lex".toList then ofTask .tokens arguments
  else if command == "canon".toList then ofTask .canonical arguments
  else if ["help".toList, "--help".toList, "-h".toList].contains command then .help
  else if ["version".toList, "--version".toList, "-V".toList].contains command then .version
  else .unknown command

/-- What the arguments of the program ask for. -/
def ofArguments : List Text → Request
  | [] => .help
  | command :: arguments => ofCommand command arguments

/-- The file that has to be read. -/
def path? : Request → Option Text
  | .work _ arguments => some arguments.path
  | _ => none

end Request

/-- The summary of all commands. -/
def usage : Text :=
  ("Stache template lexer\n\n" ++
    "Usage: stache <command> [options]\n\n" ++
    "Commands:\n" ++
    "  lex <file>       Tokenize a template and display the tokens\n" ++
    "  canon <file>     Print the template in canonical tag syntax\n" ++
    "  help             Show this help message\n" ++
    "  version          Show version information\n\n" ++
    "Options:\n" ++
    "  --json                       Print tokens as JSON (lex only)\n" ++
    "  --delimiters=\"<open> <close>\" Starting delimiters (default: \"\x7b\x7b \x7d\x7d\")\n\n" ++
    "Set RUST_LOG (e.g. RUST_LOG=stache_lexer=trace) for lexer tracing on stderr.\n").toList

/-- The name of the program and its version. -/
def version : Text := "stache 0.1.0\n".toList

/-- Print tokens as data or as a listing. -/
def printTokens (arguments : Arguments) (tokens : List Token) : Text :=
  if arguments.json then Token.listToJson tokens ++ ['\n']
  else Listing.render arguments.path tokens

/-- Carry out a task on the text of its template. -/
def perform (task : Task) (arguments : Arguments) (source : Text) : Reply :=
  let run := Lexer.runOn arguments.delimiters source
  let notes := (runNotices source run.records).map .note
  match run.result with
  | .error failure =>
    ⟨1, notes ++ [.complain (Diagnostic.render arguments.path source failure)]⟩
  | .ok tokens =>
    match task with
    | .tokens =>
      ⟨0, notes ++ [.note (.event (listedEntry arguments.path tokens)),
        .print (printTokens arguments tokens)]⟩
    | .canonical => ⟨0, notes ++ [.print (Canonical.write arguments.delimiters tokens)]⟩

/-- Answer a request, with a way to read files. -/
def respond (read : Text → Except ReadError Text) : Request → Reply
  | .help => ⟨0, [.print usage]⟩
  | .version => ⟨0, [.print version]⟩
  | .unknown command =>
    ⟨1, [.complain ("Unknown command: ".toList ++ command ++ ['\n']), .complain ['\n'],
      .print usage]⟩
  | .refused task problem =>
    ⟨1, [.complain (errorLine problem.message), .complain task.usage]⟩
  | .noJson => ⟨1, [.complain (errorLine "--json is only supported by `stache lex`".toList)]⟩
  | .work task arguments =>
    match read arguments.path with
    | .ok source => perform task arguments source
    | .error e => ⟨1, [.complain (errorLine (e.message arguments.path))]⟩

/-- What a run of the program leaves behind. -/
structure Outcome where
  status : Nat
  stdout : Text
  stderr : Text
  deriving DecidableEq, Repr

/-- What some actions leave on standard output. -/
def printed : List Action → Text
  | [] => []
  | .print t :: later => t ++ printed later
  | .note _ :: later | .complain _ :: later => printed later

/-- What some actions leave on standard error, behind earlier notices: the complaints, and what
the listener shows of the notices, if there is a listener. -/
def complained (listener : Option Listener) (earlier : List Notice) : List Action → Text
  | [] => []
  | .note notice :: later =>
    listener.elim [] (·.shown earlier notice) ++ complained listener (notice :: earlier) later
  | .complain t :: later => t ++ complained listener earlier later
  | .print _ :: later => complained listener earlier later

/-- The outcome of a reply. -/
def Reply.outcome (listener : Option Listener) (r : Reply) : Outcome :=
  ⟨r.status, printed r.actions, complained listener [] r.actions⟩

/-- Run the program for a listener, or for none. -/
def runFor (listener : Option Listener) (read : Text → Except ReadError Text)
    (arguments : List Text) : Outcome :=
  (respond read (.ofArguments arguments)).outcome listener

/-- Run the program and write what a filter lets through. -/
def run (filter : Option LogFilter) (read : Text → Except ReadError Text)
    (arguments : List Text) : Outcome :=
  runFor (filter.map LogFilter.listener) read arguments

end Mustache.Program
