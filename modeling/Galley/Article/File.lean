import Galley.Article.Basic
import Galley.Host.Action
/-!
# Article files
-/
namespace Galley.Article

open Galley.Host (Action)

/-- Why a file gives no article. -/
inductive FileFault where
  | unreadable (reason : Host.Failure)
  /-- The text is not an article of JSON. -/
  | invalid (fault : Json.Fault) (text : String)

/-- What is wrong in itself, without saying with what. -/
def FileFault.cause : FileFault → String
  | .unreadable reason => reason.message
  | .invalid fault text => fault.message text

def FileFault.message : FileFault → String
  | .unreadable reason => "Failed to read article file: " ++ reason.message
  | .invalid fault text => "Invalid article JSON: " ++ fault.message text

/-- The article that a file's text spells. -/
def ofFileText (text : String) : Except FileFault Article :=
  (ofText text).mapError (.invalid · text)

/-- Reads an article file. -/
def load (path : String) : Action (Except FileFault Article) := do
  match ← Action.readText path with
  | .ok text => return ofFileText text
  | .error reason => return .error (.unreadable reason)

end Galley.Article
