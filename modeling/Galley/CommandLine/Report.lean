import Galley.Text.Lines
/-!
# Reports of failures

A report tells what could not be done and, from the outside in, why not. Causes are indented; if
there is more than one they are numbered.
-/
namespace Galley.CommandLine

structure Report where
  message : String
  causes : List String
deriving DecidableEq, Repr

namespace Report

/-- A text whose first line stands behind `first` and whose other lines stand behind blanks. -/
def indented (first : String) (text : String) : String :=
  let margin := String.ofList (List.replicate first.length ' ')
  first ++ Text.joinWith ("\n" ++ margin) (Text.splitOnChar '\n' text)

/-- A number as it stands in front of a cause, with blanks for a width of five. -/
def numberText (n : Nat) : String :=
  let digits := toString n
  String.ofList (List.replicate (5 - digits.length) ' ') ++ digits ++ ": "

/-- Causes with their numbers, on lines of their own. -/
def numbered : Nat → List String → String
  | _, [] => ""
  | n, cause :: rest => "\n" ++ indented (numberText n) cause ++ numbered (n + 1) rest

/-- The causes of a report. -/
def causesText : List String → String
  | [] => ""
  | [cause] => "\n\nCaused by:\n" ++ indented "    " cause
  | causes => "\n\nCaused by:" ++ numbered 0 causes

def text (report : Report) : String :=
  "Error: " ++ report.message ++ causesText report.causes ++ "\n"

end Report
end Galley.CommandLine
