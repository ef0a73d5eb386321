import Mustache.Delimiters

/-! The arguments of the commands that work on one template: a path, and options before or after
it. -/
namespace Mustache.Program

/-- What a command is to work on, and how. -/
structure Arguments where
  path : Text
  /-- Print tokens as data instead of a listing. -/
  json : Bool
  /-- The pair that the template starts with. -/
  delimiters : Delimiters
  deriving DecidableEq, Repr

/-- What can be wrong with arguments. -/
inductive ArgumentProblem where
  | invalidDelimiters (value : Text)
  | unknownOption (argument : Text)
  | unexpectedArgument (argument : Text)
  | missingPath
  deriving DecidableEq, Repr

/-- The wording of a problem. -/
def ArgumentProblem.message : ArgumentProblem → Text
  | .invalidDelimiters value =>
    "invalid delimiters '".toList ++ value ++
      ("': expected two non-empty sequences separated by a space, e.g. \"<% %>\"").toList
  | .unknownOption argument => "unknown option '".toList ++ argument ++ "'".toList
  | .unexpectedArgument argument => "unexpected argument '".toList ++ argument ++ "'".toList
  | .missingPath => "missing file path".toList

/-- The beginning of the option that sets the delimiters. -/
def delimitersOption : Text := "--delimiters=".toList

/-- The option that asks for data. -/
def jsonOption : Text := "--json".toList

/-- The pair that the value of the delimiters option gives. -/
def parseDelimiters (value : Text) : Except ArgumentProblem Delimiters :=
  match Delimiters.ofWords? value with
  | some d => .ok d
  | none => .error (.invalidDelimiters value)

/-- Read the remaining arguments, given the path, if there was one, and the options so far. The
last of several delimiters options counts, and the first problem is reported. -/
def parseFrom (path : Option Text) (json : Bool) (d : Delimiters) :
    List Text → Except ArgumentProblem Arguments
  | [] =>
    match path with
    | some p => .ok ⟨p, json, d⟩
    | none => .error .missingPath
  | argument :: later =>
    if argument == jsonOption then parseFrom path true d later
    else if delimitersOption.isPrefixOf argument then
      match parseDelimiters (argument.drop delimitersOption.length) with
      | .ok pair => parseFrom path json pair later
      | .error problem => .error problem
    else if argument.head? == some '-' then .error (.unknownOption argument)
    else
      match path with
      | none => parseFrom (some argument) json d later
      | some _ => .error (.unexpectedArgument argument)

/-- Read the arguments of a command. -/
def parseArguments (arguments : List Text) : Except ArgumentProblem Arguments :=
  parseFrom none false .braces arguments

end Mustache.Program
