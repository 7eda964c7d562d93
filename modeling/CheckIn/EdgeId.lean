/-
# Edge identifiers

The identifier under which the controller knows the agent is sent with every request, and its
bytes are the key of the tunnel credentials.
-/
import CheckIn.Json.Reader
import CheckIn.Json.Writer

namespace CheckIn

/-- The identifier of an agent, a text shared with the controller. -/
structure EdgeId where
  text : String
deriving DecidableEq, Repr, Inhabited

namespace EdgeId

/-- The key material for tunnel credentials. -/
def key (id : EdgeId) : List UInt8 := utf8 id.text

/-- Reads an identifier. -/
def read : Json.Reader EdgeId := do return ⟨← Json.text "a string"⟩

/-- Writes an identifier. -/
def write (id : EdgeId) : List Char := Json.Text.write id.text

end EdgeId

end CheckIn
