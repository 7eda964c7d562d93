/-
# Credentials of a tunnel

The controller sends the credentials encrypted with the identifier of the agent and written in
base64.  Any way of decryption can be used; the one given here takes the key off the front, and
has a way back.
-/
import CheckIn.EdgeId
import CheckIn.Error

namespace CheckIn

/-- Decrypts a text with a key, or says why it cannot. -/
abbrev Decryptor := (ciphertext key : List UInt8) → Except String (List UInt8)

/-- What follows a prefix. -/
def afterPrefix? : (front bytes : List UInt8) → Option (List UInt8)
  | [], bytes => some bytes
  | _ :: _, [] => none
  | a :: front, b :: bytes => if a = b then afterPrefix? front bytes else none

theorem afterPrefix?_append (front bytes : List UInt8) :
    afterPrefix? front (front ++ bytes) = some bytes := by
  induction front with
  | nil => rfl
  | cons a front ih => simp [afterPrefix?, ih]

theorem eq_append_of_afterPrefix? {front bytes rest : List UInt8}
    (h : afterPrefix? front bytes = some rest) : bytes = front ++ rest := by
  induction front generalizing bytes with
  | nil => exact Option.some.inj h
  | cons a front ih =>
    cases bytes with
    | nil => cases h
    | cons b bytes =>
      rw [afterPrefix?] at h
      split at h
      · next hab => rw [hab, ih h, List.cons_append]
      · cases h

/-- The ciphertext is the key followed by the plain text. -/
def leadingKeyDecryptor : Decryptor := fun ciphertext key =>
  match afterPrefix? key ciphertext with
  | some plain => .ok plain
  | none => .error "message authentication failed"

/-- Credentials as `leadingKeyDecryptor` expects them. -/
def encodeCredentials (id : EdgeId) (credentials : String) : String :=
  Base64.encode (utf8 (id.text ++ credentials))

/-- The credentials that were sent, or the first of the three things that can be wrong. -/
def decodeCredentials (decrypt : Decryptor) (id : EdgeId) (sent : String) :
    Except TunnelError String := do
  let ciphertext ← (Base64.decode (utf8 sent)).mapError .credentialEncoding
  let plain ← (decrypt ciphertext id.key).mapError .decrypt
  match ofUtf8? plain with
  | some credentials => return credentials
  | none => throw .credentialText

end CheckIn
