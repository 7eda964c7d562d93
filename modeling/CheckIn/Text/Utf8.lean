/-
# Text as bytes

Bodies, credentials and files arrive as bytes.  This file names the two directions between text
and its UTF-8 bytes, as lists, and states that one undoes the other.
-/

namespace CheckIn

/-- The UTF-8 bytes of a text. -/
def utf8 (s : String) : List UInt8 := s.toList.flatMap String.utf8EncodeChar

/-- The text whose UTF-8 bytes these are, if there is one. -/
def ofUtf8? (bytes : List UInt8) : Option String := String.fromUTF8? bytes.toByteArray

theorem toByteArray_utf8 (s : String) : (utf8 s).toByteArray = s.toByteArray := by
  have h := String.ofList_toList (s := s)
  rw [String.ofList] at h
  exact congrArg String.toByteArray h

/-- Reading the bytes of a text gives the text. -/
@[simp] theorem ofUtf8?_utf8 (s : String) : ofUtf8? (utf8 s) = some s := by
  simp only [ofUtf8?, toByteArray_utf8, String.fromUTF8?]
  rw [dif_pos s.isValidUTF8]
  rfl

/-- Only the bytes of a text read as that text. -/
theorem utf8_of_ofUtf8? {bytes : List UInt8} {s : String} (h : ofUtf8? bytes = some s) :
    utf8 s = bytes := by
  simp only [ofUtf8?, String.fromUTF8?] at h
  split at h
  · have hs : s.toByteArray = bytes.toByteArray := by
      rw [← Option.some.inj h]; rfl
    have := toByteArray_utf8 s
    rw [hs] at this
    have := congrArg (fun b : ByteArray => b.data.toList) this
    simpa using this
  · exact absurd h (by simp)

theorem ofUtf8?_eq_some_iff {bytes : List UInt8} {s : String} :
    ofUtf8? bytes = some s ↔ bytes = utf8 s :=
  ⟨fun h => (utf8_of_ofUtf8? h).symm, fun h => h ▸ ofUtf8?_utf8 s⟩

/-- Different texts have different bytes. -/
@[simp] theorem utf8_inj {s t : String} : utf8 s = utf8 t ↔ s = t := by
  constructor
  · intro h
    have ht := ofUtf8?_utf8 t
    rwa [← h, ofUtf8?_utf8, Option.some.injEq] at ht
  · rintro rfl
    rfl

theorem utf8_append (s t : String) : utf8 (s ++ t) = utf8 s ++ utf8 t := by
  simp [utf8]

end CheckIn
