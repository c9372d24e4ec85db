import Liquid.StandardTags
import Liquid.Template

/-!
# The command line

The arguments name a template file and bind names at the root of the data.  What the program does
is decided here; reading the file and writing the streams is left to the caller.
-/

namespace Liquid
namespace CommandLine

/-- What the arguments ask for. -/
inductive Invocation where
  | help
  | version
  /-- Render the file with these bindings, of which the last for a name counts. -/
  | render (path : String) (bindings : List (String × String))
  /-- The arguments make no sense. -/
  | misuse

structure Outcome where
  status : Nat
  stdout : String := ""
  stderr : String := ""

inductive ReadFailure where
  | missing
  | directory
  /-- A part of the path that should be a directory is not one. -/
  | notDirectory
  | nameTooLong
  | denied
  | notText
  | other (reason : String)

/-- The name and the text of a binding, divided at the first equals sign. -/
def binding? (arg : String) : Option (String × String) :=
  (Text.divideAt? '=' arg.toList).map fun parts =>
    (String.ofList parts.1, String.ofList parts.2)

/-- The bindings of some arguments, if each of them has the form of one. -/
def bindings? : List String → Option (List (String × String))
  | [] => some []
  | arg :: rest =>
    match binding? arg, bindings? rest with
    | some b, some bs => some (b :: bs)
    | _, _ => none

/-- What the arguments without options ask for. -/
def ofPositional : List String → Invocation
  | [] => .misuse
  | path :: rest =>
    if path.isEmpty then .misuse
    else match bindings? rest with
      | some bindings => .render path bindings
      | none => .misuse

/-- What the arguments ask for, when some without options stand before them; a help or version
option takes effect where it stands, provided that all before it is well formed. -/
def ofArgsAfter (positional : List String) : List String → Invocation
  | [] => ofPositional positional
  | arg :: rest =>
    let before := positional.isEmpty ||
      match ofPositional positional with
      | .render .. => true
      | _ => false
    match arg.toList with
    | ['-', '-'] => ofPositional (positional ++ rest)
    | '-' :: '-' :: _ =>
      if !before then .misuse
      else if arg == "--help" then .help
      else if arg == "--version" then .version
      else .misuse
    | '-' :: c :: _ =>
      if !before then .misuse
      else if c == 'h' then .help
      else if c == 'V' then .version
      else .misuse
    | _ => ofArgsAfter (positional ++ [arg]) rest

def Invocation.ofArgs (args : List String) : Invocation :=
  ofArgsAfter [] args

def versionText : String :=
  "uliquid 0.1.0\n"

def helpText : String :=
  "Renders a Liquid template file to stdout; recovered errors go to stderr\n\n" ++
  "Usage: uliquid <TEMPLATE> [BINDINGS]...\n\n" ++
  "Arguments:\n" ++
  "  <TEMPLATE>     Path to the template file\n" ++
  "  [BINDINGS]...  Variables bound at the template root, as key=value\n\n" ++
  "Options:\n" ++
  "  -h, --help     Print help\n" ++
  "  -V, --version  Print version\n"

def ReadFailure.message : ReadFailure → String
  | missing => "No such file or directory (os error 2)"
  | directory => "Is a directory (os error 21)"
  | notDirectory => "Not a directory (os error 20)"
  | nameTooLong => "File name too long (os error 36)"
  | denied => "Permission denied (os error 13)"
  | notText => "stream did not contain valid UTF-8"
  | other reason => reason

/-- Indents all lines of a text but the first. -/
def hang (indent s : String) : String :=
  ("\n" ++ indent).intercalate ((s.toList.splitOn '\n').map String.ofList)

/-- A failure with the one cause that explains it. -/
def reportOne (failure cause : String) : String :=
  "Error: " ++ failure ++ "\n\nCaused by:\n    " ++ hang "    " cause ++ "\n"

/-- A failure with its chain of two causes, which are numbered. -/
def reportTwo (failure first second : String) : String :=
  "Error: " ++ failure ++ "\n\nCaused by:\n    0: " ++ hang "       " first ++
    "\n    1: " ++ hang "       " second ++ "\n"

/-- The report of a template that cannot be read. -/
def reportParse (path : String) (e : Error) : String :=
  match e with
  | .malformed .. => reportTwo ("parsing " ++ path) e.display e.located
  | _ => reportOne ("parsing " ++ path) e.display

def data (bindings : List (String × String)) : Datum :=
  .map (bindings.map fun b => (.text b.1, .text b.2))

/-- Renders the text of a template: the document goes to one stream, the errors recovered on the
way to the other. -/
def renderText (path source : String) (bindings : List (String × String)) : Outcome :=
  match Template.parse .standard {} source with
  | .error e => { status := 1, stderr := reportParse path e }
  | .ok t =>
    match t.renderDatum (data bindings) with
    | .error e => { status := 1, stderr := "Error: " ++ e.display ++ "\n" }
    | .ok (text, errors) =>
      { status := 0, stdout := text, stderr := String.join (errors.map (·.display ++ "\n")) }

def render (path : String) (bindings : List (String × String))
    (content : Except ReadFailure (List UInt8)) : Outcome :=
  let source : Except ReadFailure String :=
    match content with
    | .ok bytes =>
      match Text.decode? bytes with
      | some source => .ok source
      | none => .error .notText
    | .error failure => .error failure
  match source with
  | .ok source => renderText path source bindings
  | .error failure =>
    { status := 1, stderr := reportOne ("reading template " ++ path) failure.message }

/-- The effect of an invocation, given what reading a file yields. -/
def Invocation.run {m : Type → Type} [Monad m]
    (read : String → m (Except ReadFailure (List UInt8))) : Invocation → m Outcome
  | help => pure { status := 0, stdout := helpText }
  | version => pure { status := 0, stdout := versionText }
  | misuse => pure { status := 2, stderr := helpText }
  | .render path bindings => do return CommandLine.render path bindings (← read path)

end CommandLine
end Liquid
