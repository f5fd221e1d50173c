import Galley.CommandLine.Flag
import Galley.Export.Kind
import Galley.Render.Target
/-!
# Command lines

The flags that hold for all commands stand in front of the command's name, its own behind it.
-/
namespace Galley.CommandLine

/-- What is to be done. -/
inductive Command where
  | render (document : String) (target : Render.Target) (lang : String)
  | frontMatter (article lang : String)
  | bibliography (article : String)
  | export (article : String) (kind : Export.Kind) (lang : String) (output : Option String)
  | check (json : Bool)
deriving DecidableEq, Repr

/-- A whole command line. -/
structure Arguments where
  /-- The path of the configuration. -/
  config : String
  verbose : Bool
  command : Command
deriving DecidableEq, Repr

/-! ### Flags -/

def helpFlag : Flag := ⟨"help", some 'h', none⟩

/-- The flags in front of the command's name. -/
def leadingFlags : List Flag :=
  [⟨"config", none, some .path⟩, ⟨"verbose", some 'v', none⟩, helpFlag,
    ⟨"version", some 'V', none⟩]

def langFlag : Flag := ⟨"lang", none, some .text⟩

/-- What can be asked for by name. -/
structure Form where
  name : String
  flags : List Flag
  /-- What the operands are called. -/
  operands : List String
  build : Found → Except Stop Command

private def operand (found : Found) (name : String) : Except Stop String :=
  match found.operands.head? with
  | some path => .ok path
  | none => .error (.fault (.missingOperand name))

private def lang (found : Found) : String := (found.value? "lang").getD "en"

def renderForm : Form where
  name := "render"
  flags :=
    [⟨"target", none, some (.choice (Render.Target.all.map Render.Target.name))⟩, langFlag,
      helpFlag]
  operands := ["DOCUMENT"]
  build found := do
    let target := (found.value? "target").bind Render.Target.ofName?
    return .render (← operand found "DOCUMENT") (target.getD .markdown) (lang found)

def frontMatterForm : Form where
  name := "front-matter"
  flags := [langFlag, helpFlag]
  operands := ["ARTICLE"]
  build found := return .frontMatter (← operand found "ARTICLE") (lang found)

def bibliographyForm : Form where
  name := "bibliography"
  flags := [helpFlag]
  operands := ["ARTICLE"]
  build found := return .bibliography (← operand found "ARTICLE")

def exportForm : Form where
  name := "export"
  flags :=
    [⟨"format", none, some (.choice (Export.Kind.all.map Export.Kind.name))⟩, langFlag,
      ⟨"output", some 'o', some .path⟩, helpFlag]
  operands := ["ARTICLE"]
  build found := do
    let article ← operand found "ARTICLE"
    match (found.value? "format").bind Export.Kind.ofName? with
    | some kind => return .export article kind (lang found) (found.value? "output")
    | none => throw (.fault (.missingFlag "format"))

def checkForm : Form where
  name := "check"
  flags := [⟨"json", none, none⟩, helpFlag]
  operands := []
  build found := return .check (found.has "json")

def forms : List Form := [renderForm, frontMatterForm, bibliographyForm, exportForm, checkForm]

/-! ### Reading -/

/-- Where the configuration is looked for unless a flag says otherwise. -/
def defaultConfig : String := "folio.yml"

/-- What asking for help on some topics gives. -/
def helpOn (topics : List String) : Stop :=
  match topics with
  | [] => .help
  | [topic] =>
    if topic = "help" ∨ forms.any (·.name == topic) then .help else .fault (.unknownCommand topic)
  | topic :: next :: _ =>
    .fault (.unknownCommand (if forms.any (·.name == topic) then next else topic))

/-- Reads a command line. -/
def Arguments.ofWords (words : List String) : Except Stop Arguments := do
  let (found, name, rest) ← takeLeading leadingFlags words.length .empty words
  if name = "help" then throw (helpOn rest)
  match forms.find? (·.name == name) with
  | none => throw (.fault (.unknownCommand name))
  | some form =>
    let own ← takeWords form.flags form.operands rest.length .empty rest
    let command ← form.build own
    return ⟨(found.value? "config").getD defaultConfig, found.has "verbose", command⟩

end Galley.CommandLine
