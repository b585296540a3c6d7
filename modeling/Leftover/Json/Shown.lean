/-
# Values in messages

How a message shows a value of a document that is not what it should be.

* `Json.shown` : the value with its texts in quotes
* `Json.told` : a text as it is, any other value as it is shown
-/
import Leftover.Decimal.Shortest
import Leftover.Json.Value
import Leftover.Text.Quoted

namespace Leftover
namespace Json

mutual

/-- A value as a message shows it. -/
def shown : Json → String
  | null => "None"
  | flag b => if b then "True" else "False"
  | whole n => toString n
  | measure x => shortestText x
  | text t => quoted t
  | list items => bracketed (shownItems items)
  | record fields => "\x7b" ++ ", ".intercalate (shownFields fields) ++ "\x7d"

/-- Each value of a list. -/
def shownItems : List Json → List String
  | [] => []
  | v :: rest => shown v :: shownItems rest

/-- Each field of an object. -/
def shownFields : List (Text × Json) → List String
  | [] => []
  | (key, v) :: rest => (quoted key ++ ": " ++ shown v) :: shownFields rest

end

/-- A text as it is, any other value as a message shows it. -/
def told : Json → Text
  | text t => t
  | v => shown v

end Json
end Leftover
