import Galley.Config.Basic
import Galley.Number.Binary64
import Galley.Text.Blank
import Galley.Text.Quoted
import Galley.Yaml.Value
/-!
# Configurations as YAML

A configuration is a mapping of settings. Settings that are left out keep their defaults, and
settings that are not known are passed over, whatever their value. Any scalar will do as a text.
-/
namespace Galley.Config

open Galley.Yaml (Document Node Meaning Place)

/-- What stands in a text where something else was wanted. -/
inductive Found where
  | scalar (meaning : Meaning) (text : String)
  /-- A scalar that is not spelled as its tag says. -/
  | mistagged (text : String)
  | sequence
  | mapping
deriving DecidableEq, Repr

inductive Reason where
  | wrongType (found : Found) (wanted : String)
  /-- A text that is not spelled as the tag for nothing says. -/
  | notNull (text : String)
  | duplicate (name : String)
deriving DecidableEq, Repr

/-- Why a text is not a configuration. -/
inductive Fault where
  /-- The text is not a document of YAML. -/
  | malformed
  /-- A part is not what was wanted; `setting` is none for what does not belong to one. -/
  | invalid (setting : Option String) (reason : Reason) (place : Place)
deriving DecidableEq, Repr

/-! ### Wording -/

def Found.text : Found → String
  | .scalar .null _ => "unit value"
  | .scalar (.bool b) _ => "boolean `" ++ (if b then "true" else "false") ++ "`"
  | .scalar (.integer n) _ => "integer `" ++ toString n ++ "`"
  | .scalar (.wide n) _ =>
    "integer `" ++ toString n ++ "` as " ++ (if n < 0 then "i128" else "u128")
  | .scalar (.real x) _ => "floating point `" ++ x.text ++ "`"
  | .scalar .text text => "string " ++ Text.quoted text
  | .mistagged text => "string " ++ Text.quoted text
  | .sequence => "sequence"
  | .mapping => "map"

def Reason.text : Reason → String
  | .wrongType found wanted => "invalid type: " ++ found.text ++ ", expected " ++ wanted
  | .notNull text => "invalid value: string " ++ Text.quoted text ++ ", expected null"
  | .duplicate name => "duplicate field `" ++ name ++ "`"

/-- The wording of a fault. Nothing is said about the place where the text begins. -/
def Fault.message : Fault → String
  | .malformed => "not a single document"
  | .invalid setting reason place =>
    (match setting with
      | some name => name ++ ": "
      | none => "") ++
    reason.text ++
    (if place.line = 0 ∧ place.column = 0 then ""
      else " at line " ++ toString (place.line + 1) ++ " column " ++ toString (place.column + 1))

/-! ### Parts -/

/-- What messages call a node. -/
def Found.ofNode : Node → Found
  | .scalar header style text =>
    match Meaning.ofScalar? header.tag style text with
    | some meaning => .scalar meaning text
    | none => .mistagged text
  | .sequence _ _ => .sequence
  | .mapping _ _ => .mapping
  | .alias _ _ => .mapping

private def refuse {α : Type} (wanted : String) (setting : Option String) (node : Node) :
    Except Fault α :=
  .error (.invalid setting (.wrongType (.ofNode node) wanted) node.place)

/-- The text of a scalar, however it is written. -/
def textOf (wanted : String) (setting : Option String) (node : Node) : Except Fault String :=
  match node with
  | .scalar _ _ text => .ok text
  | other => refuse wanted setting other

/-- Whether a node leaves an optional setting out. -/
def isAbsent : Node → Except Reason Bool
  | .scalar header .plain text =>
    match header.tag with
    | some tag =>
      if tag ≠ Meaning.coreTag "null" then .ok false
      else if Meaning.isNull text then .ok true
      else .error (.notNull text)
    | none => .ok (text.isEmpty || Meaning.isNull text)
  | _ => .ok false

/-- A path that may be left out, in a mapping that begins at `owner`. -/
def optionalPath (owner : Place) (setting : Option String) (node : Node) :
    Except Fault (Option String) :=
  match isAbsent node with
  | .ok true => .ok none
  | .ok false => some <$> textOf "path string" setting node
  | .error reason => .error (.invalid none reason owner)

/-- A number of seconds: a plain scalar, or a literal one with a tag that says so. -/
def secondsOf (setting : Option String) (node : Node) : Except Fault UInt64 :=
  match node with
  | .scalar header style text =>
    let admitted :=
      style == .plain || style == .literal && header.tag == some (Meaning.coreTag "int")
    match Meaning.unsigned? text.toList with
    | some n =>
      if admitted ∧ n < Number.twoTo 64 then .ok n.toUInt64 else refuse "u64" setting node
    | none => refuse "u64" setting node
  | other => refuse "u64" setting other

/-! ### Settings -/

/-- A setting and how its value is read, in a mapping that begins at `owner`. -/
structure Setting where
  name : String
  read : (owner : Place) → Option String → Node → Except Fault (Config → Config)

private def textSetting (name : String) (put : String → Config → Config) : Setting :=
  ⟨name, fun _ setting node => put <$> textOf "a string" setting node⟩

private def pathSetting (name : String) (put : Option String → Config → Config) : Setting :=
  ⟨name, fun owner setting node => put <$> optionalPath owner setting node⟩

def settings : List Setting :=
  [textSetting "converter" fun text config => { config with converter := text },
    textSetting "tex_engine" fun text config => { config with texEngine := text },
    pathSetting "latex_template" fun path config => { config with latexTemplate := path },
    textSetting "paged_media_engine" fun text config => { config with pagedMediaEngine := text },
    pathSetting "stylesheet" fun path config => { config with stylesheet := path },
    pathSetting "workspace_root" fun path config => { config with workspaceRoot := path },
    ⟨"timeout_secs", fun _ setting node =>
      (fun seconds (config : Config) => { config with timeoutSeconds := seconds }) <$>
        secondsOf setting node⟩,
    textSetting "citation_style" fun text config => { config with citationStyle := text },
    textSetting "paper_size" fun text config => { config with paperSize := text },
    textSetting "font_size" fun text config => { config with fontSize := text },
    textSetting "margin" fun text config => { config with margin := text }]

/-- How messages name the setting of a key. -/
def settingOf : Node → String
  | .scalar _ _ text => text
  | _ => "?"

/-- The node that a node stands for. -/
def nodeFor (document : Document) (node : Node) : Except Fault Node :=
  match document.target? node with
  | some target => .ok target
  | none => .error .malformed

/-- Reads the entries of a mapping that begins at `place`; `given` are the settings so far. -/
def readEntries (document : Document) (place : Place) (given : List String) (config : Config) :
    List (Node × Node) → Except Fault Config
  | [] => .ok config
  | (key, value) :: rest => do
    let name ← textOf "field identifier" none (← nodeFor document key)
    match settings.find? (·.name == name) with
    | some setting =>
      if given.contains name then .error (.invalid none (.duplicate name) place)
      let put ← setting.read place (some (settingOf key)) (← nodeFor document value)
      readEntries document place (name :: given) (put config) rest
    | none => readEntries document place given config rest

/-- The configuration of a document; an empty one has the defaults only. -/
def ofDocument (document : Document) : Except Fault Config :=
  match document.root with
  | none => .ok default
  | some (.mapping header entries) => readEntries document header.place [] default entries
  | some (.scalar _ .plain "") => .ok default
  | some other => refuse "struct ExportConfig" none other

/-- The configuration that a text spells. -/
def ofText (text : String) : Except Fault Config :=
  if Text.isAllBlank text then .ok default
  else
    match Document.ofText? text with
    | some document => ofDocument document
    | none => .error .malformed

end Galley.Config
