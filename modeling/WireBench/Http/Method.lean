import WireBench.Text.LetterCase

/-!
# Request methods

The five methods that are understood. A method is read in any letter case and written in capitals.
-/

namespace WireBench.Http

inductive Method where
  | get
  | head
  | post
  | put
  | delete
  deriving DecidableEq, Repr

namespace Method

def token : Method → String
  | .get => "GET"
  | .head => "HEAD"
  | .post => "POST"
  | .put => "PUT"
  | .delete => "DELETE"

def all : List Method := [.get, .head, .post, .put, .delete]

/-- The method that a word stands for, whatever the case of its letters. -/
def ofToken? (word : String) : Option Method :=
  all.find? fun m => m.token == Text.inCapitals word

def unknownMessage (word : String) : String :=
  "Unknown HTTP method: " ++ word

@[simp] theorem ofToken?_token (m : Method) : ofToken? m.token = some m := by
  cases m <;> decide +kernel

end Method

end WireBench.Http
