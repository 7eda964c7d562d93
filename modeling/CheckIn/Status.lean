/-
# Tunnel status

Each answer of the controller says whether a reverse tunnel is wanted.  Only two words have a
meaning; any other text is kept as it is and asks for nothing.
-/
import CheckIn.Json.Reader

namespace CheckIn

/-- What the controller asks of the tunnel. -/
inductive Status
  /-- No tunnel is wanted. -/
  | idle
  /-- A tunnel has to be there. -/
  | required
  /-- Any other text; nothing is done about the tunnel. -/
  | other (text : String)
deriving DecidableEq, Repr

namespace Status

/-- The status that a text stands for. -/
def ofText (text : String) : Status :=
  if text = "IDLE" then idle
  else if text = "REQUIRED" then required
  else other text

/-- The text of a status. -/
def text : Status → String
  | idle => "IDLE"
  | required => "REQUIRED"
  | other text => text

/-- The status of an answer that does not speak of it. -/
def unspecified : Status := other ""

instance : Inhabited Status := ⟨unspecified⟩

/-- Every text is the text of its status. -/
@[simp] theorem text_ofText (s : String) : (ofText s).text = s := by
  unfold ofText
  split
  · next h => exact h.symm
  · split
    · next h => exact h.symm
    · rfl

/-- Reads a status; `null` leaves it unspecified. -/
def read : Json.Reader Status := do
  match ← Json.optional (Json.text "a string") with
  | some text => return ofText text
  | none => return unspecified

end Status

end CheckIn
