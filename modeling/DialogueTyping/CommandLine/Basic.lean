import DialogueTyping.Diagnostic.Render
import DialogueTyping.Script
import DialogueTyping.Text.Blank
import DialogueTyping.Text.Lines

set_option autoImplicit false

namespace DialogueTyping.CommandLine

/-- What the command line asks for. -/
structure Invocation where
  declarationsPath : String
  expressionsPath : String
  constant : Bool
  deriving DecidableEq, Repr

structure Outcome where
  exitCode : UInt32
  output : String
  errors : String
  deriving DecidableEq, Repr

inductive ReadFault where
  | notFound
  | notDirectory
  | isDirectory
  | invalidText
  | other (reason : String)
  deriving DecidableEq, Repr

def ReadFault.message : ReadFault → String
  | notFound => "No such file or directory (os error 2)"
  | notDirectory => "Not a directory (os error 20)"
  | isDirectory => "Is a directory (os error 21)"
  | invalidText => "stream did not contain valid UTF-8"
  | other reason => reason

def usage : String := "usage: dialogue-typeck <declarations-file> <expressions-file> [--const]"

/-- The flag that refuses variables; it may stand anywhere and any number of times. -/
def constantFlag : String := "--const"

/-- Reads arguments: two paths, and flags. -/
def Invocation.ofArguments? (arguments : List String) : Option Invocation :=
  match arguments.filter (· ≠ constantFlag) with
  | [declarationsPath, expressionsPath] =>
    some ⟨declarationsPath, expressionsPath, arguments.contains constantFlag⟩
  | _ => none

/-- The parts of a path between slashes. Empty parts and single points say nothing. -/
def pathParts (path : String) : List String :=
  ((path.splitOn "/").filter fun part => part ≠ "" && part ≠ ".")

/-- The name that reports show for a path: its last part, or the whole path when that is none or
leads upwards. -/
def fileName (path : String) : String :=
  match (pathParts path).getLast? with
  | none => path
  | some part => if part = ".." then path else part

/-- A line that holds an expression. -/
structure Entry where
  -- from 1
  number : Nat
  line : List Char
  deriving DecidableEq, Repr

/-- Whether a line holds an expression: it is neither blank nor only a comment. -/
def holdsExpression (line : List Char) : Bool :=
  let text := Text.trim line
  !text.isEmpty && !List.isPrefixOf ['/', '/'] text

def entries (text : String) : List Entry :=
  (((Text.lines text.toList).zipIdx 1).map fun (line, number) => ⟨number, line⟩).filter
    fun entry => holdsExpression entry.line

/-- The row for an expression of a given type: the number of the line, the line without the blanks
around it, and the type. -/
def Entry.row (entry : Entry) (type : Ty) : String :=
  String.ofList (List.leftpad 4 ' ' (Nat.toDigits 10 entry.number)) ++ " | "
    ++ String.ofList (List.rightpad 40 ' ' (Text.trim entry.line)) ++ " : " ++ type.label ++ "\n"

/-- What is wrong with an expression of the file `file`, in full. -/
def Entry.report (entry : Entry) (file : String) : Stop → String
  | .report diagnostic =>
    diagnostic.render (file ++ ":" ++ toString entry.number) (String.ofList entry.line)
  | .breach fault => fault.message

structure Pass where
  rows : List String
  failure : Option String
  table : Table
  deriving DecidableEq, Repr

/-- Checks lines of the file `file` one after another, up to the first that is wrong. -/
def pass (file : String) (constant : Bool) : List Entry → Table → Pass
  | [], table => ⟨[], none, table⟩
  | entry :: others, table =>
    match (Check.source constant (String.ofList entry.line)).outcome table with
    | (.ok type, after) =>
      let later := pass file constant others after
      { later with rows := entry.row type :: later.rows }
    | (.error stop, after) => ⟨[], some (entry.report file stop), after⟩

/-- The declarations of a table, one on each line, and the names of those that are still open. -/
def summary (table : Table) : String :=
  let listed (texts : List String) := String.join (texts.map fun text => "  " ++ text ++ "\n")
  let stillOpen := table.openDeclarations
  "\nDeclarations:\n" ++ listed (table.declarations.map Declaration.text)
    ++ if stillOpen.isEmpty then ""
      else "Still unresolved:\n" ++ listed (stillOpen.map Declaration.name)

/-- The end of a run that failed with `message` after it had written `output`. -/
def failed (output message : String) : Outcome := ⟨1, output, message ++ "\n"⟩

/-- The run on texts that were read from the two files. -/
def Invocation.runOn (invocation : Invocation) (declarations expressions : String) : Outcome :=
  match Table.ofSource declarations with
  | .error diagnostic =>
    failed "" (diagnostic.render (fileName invocation.declarationsPath) declarations)
  | .ok table =>
    let done := pass (fileName invocation.expressionsPath) invocation.constant
      (entries expressions) table
    let output := String.join done.rows
    match done.failure with
    | some message => failed output message
    | none => ⟨0, output ++ summary done.table, ""⟩

def unreadable (path : String) (fault : ReadFault) : String :=
  "failed to read " ++ path ++ ": " ++ fault.message

/-- The run on what reading the two files gave. -/
def Invocation.run (invocation : Invocation) (declarations expressions : Except ReadFault String) :
    Outcome :=
  match declarations, expressions with
  | .error fault, _ => failed "" (unreadable invocation.declarationsPath fault)
  | _, .error fault => failed "" (unreadable invocation.expressionsPath fault)
  | .ok declarations, .ok expressions => invocation.runOn declarations expressions

/-- The end of a run with arguments that ask for nothing. -/
def misused : Outcome := ⟨2, "", usage ++ "\n"⟩

end DialogueTyping.CommandLine
