/-
# Which credentials are accepted

With the key at the front of the ciphertext, an agent accepts of all texts exactly the ones that
are written for its own key, and reads each as what was written
(`decodeCredentials_leadingKeyDecryptor`).

Credentials for another key can be accepted too: when the other key and its credentials, one
after the other, begin with the agent's own key.  What is left over is then taken for the
credentials.  It is a text, since taking a text off the front of a text leaves one
(`isValidUTF8_utf8_append_iff`), which is why credentials that were written at all are never
refused for any other reason than a wrong key.
-/
import CheckIn.Proofs.Base64
import CheckIn.Tunnel.Credentials

namespace CheckIn

/-! ## Taking off the front -/

lemma afterPrefix?_eq_some_iff {front bytes rest : List UInt8} :
    afterPrefix? front bytes = some rest ↔ bytes = front ++ rest := by
  constructor
  · exact eq_append_of_afterPrefix?
  · rintro rfl
    exact afterPrefix?_append front rest

lemma isValidUTF8_utf8Encode_append_iff {cs : List Char} {bytes : ByteArray} :
    (cs.utf8Encode ++ bytes).IsValidUTF8 ↔ bytes.IsValidUTF8 := by
  induction cs with
  | nil => simp
  | cons c cs ih =>
    rw [List.utf8Encode_cons, ByteArray.append_assoc,
      ByteArray.isValidUTF8_utf8Encode_singleton_append_iff, ih]

/-- Taking a text off the front of a text leaves a text. -/
lemma exists_eq_utf8_of_append {s t : String} {rest : List UInt8} (h : utf8 t = utf8 s ++ rest) :
    ∃ r, rest = utf8 r := by
  have hvalid : rest.toByteArray.IsValidUTF8 := by
    have ht := t.isValidUTF8
    rw [← toByteArray_utf8, h, List.toByteArray_append] at ht
    exact isValidUTF8_utf8Encode_append_iff.mp ht
  refine ⟨String.ofByteArray rest.toByteArray hvalid, (utf8_of_ofUtf8? ?_).symm⟩
  rw [ofUtf8?, String.fromUTF8?, dif_pos hvalid]
  rfl

lemma utf8_eq_append_iff {s t : String} {rest : List UInt8} :
    utf8 t = utf8 s ++ rest ↔ ∃ r, rest = utf8 r ∧ t = s ++ r := by
  constructor
  · intro h
    obtain ⟨r, rfl⟩ := exists_eq_utf8_of_append h
    rw [← utf8_append, utf8_inj] at h
    exact ⟨r, rfl, h⟩
  · rintro ⟨r, rfl, rfl⟩
    exact utf8_append s r

/-! ## Decoding -/

/-- Texts that are written in base64 are refused for one of two reasons only. -/
lemma decodeCredentials_encode (decrypt : Decryptor) (id : EdgeId) (ciphertext : List UInt8) :
    decodeCredentials decrypt id (Base64.encode ciphertext) =
      match decrypt ciphertext id.key with
      | .error reason => .error (.decrypt reason)
      | .ok plain =>
        match ofUtf8? plain with
        | some credentials => .ok credentials
        | none => .error .credentialText := by
  have hread := Base64.decode_utf8_eq_ok_iff.mpr (rfl : Base64.encode ciphertext = _)
  rw [decodeCredentials, hread]
  cases hplain : decrypt ciphertext id.key with
  | error reason => simp [Except.mapError, bind, Except.bind, hplain]
  | ok plain =>
    simp only [Except.mapError, bind, Except.bind, hplain]
    cases ofUtf8? plain <;> rfl

/-- Texts that are not written in base64 are refused before anything else is looked at. -/
lemma decodeCredentials_of_fault (decrypt : Decryptor) (id : EdgeId) {sent : String}
    {fault : Base64.Fault} (h : Base64.decode (utf8 sent) = .error fault) :
    decodeCredentials decrypt id sent = .error (.credentialEncoding fault) := by
  rw [decodeCredentials, h]
  rfl

/-- Every text is base64 or has a fault. -/
lemma eq_encode_or_fault (sent : String) :
    (∃ ciphertext, sent = Base64.encode ciphertext) ∨
      ∃ fault, Base64.decode (utf8 sent) = .error fault := by
  cases h : Base64.decode (utf8 sent) with
  | error fault => exact .inr ⟨fault, rfl⟩
  | ok ciphertext => exact .inl ⟨ciphertext, Base64.decode_utf8_eq_ok_iff.mp h⟩

/-- What is accepted, for any way of decryption: what is written for a ciphertext that decrypts
to a text. -/
lemma decodeCredentials_eq_ok_iff {decrypt : Decryptor} {id : EdgeId} {sent credentials : String} :
    decodeCredentials decrypt id sent = .ok credentials ↔
      ∃ ciphertext, sent = Base64.encode ciphertext ∧
        decrypt ciphertext id.key = .ok (utf8 credentials) := by
  constructor
  · intro h
    obtain ⟨ciphertext, rfl⟩ | ⟨fault, hfault⟩ := eq_encode_or_fault sent
    · refine ⟨ciphertext, rfl, ?_⟩
      rw [decodeCredentials_encode] at h
      split at h
      · cases h
      · next plain hplain =>
        split at h
        · next text htext =>
          cases h
          rw [hplain, utf8_of_ofUtf8? htext]
        · cases h
    · rw [decodeCredentials_of_fault _ _ hfault] at h
      cases h
  · rintro ⟨ciphertext, rfl, hplain⟩
    simp [decodeCredentials_encode, hplain]

/-! ## With the key in front -/

/-- The key is taken off the front if it stands there. -/
lemma leadingKeyDecryptor_eq_ok_iff {ciphertext key plain : List UInt8} :
    leadingKeyDecryptor ciphertext key = .ok plain ↔ ciphertext = key ++ plain := by
  rw [← afterPrefix?_eq_some_iff, leadingKeyDecryptor]
  cases afterPrefix? key ciphertext <;> simp

/-- What is written for the agent's key is accepted, and nothing else. -/
lemma accepts_iff {id : EdgeId} {sent credentials : String} :
    decodeCredentials leadingKeyDecryptor id sent = .ok credentials ↔
      sent = encodeCredentials id credentials := by
  simp only [decodeCredentials_eq_ok_iff, leadingKeyDecryptor_eq_ok_iff, encodeCredentials,
    EdgeId.key, ← utf8_append]
  constructor
  · rintro ⟨ciphertext, rfl, rfl⟩
    rfl
  · rintro rfl
    exact ⟨_, rfl, rfl⟩

/-- Keys and credentials are written alike if together they are the same text. -/
lemma encodeCredentials_eq_iff {id other : EdgeId} {credentials rest : String} :
    encodeCredentials other credentials = encodeCredentials id rest ↔
      other.text ++ credentials = id.text ++ rest := by
  rw [encodeCredentials, encodeCredentials, Base64.encode_injective.eq_iff, utf8_inj]

/-- Credentials for any key are read by taking the agent's own key off the front of the text that
the other key and the credentials make up. -/
lemma decodeCredentials_encodeCredentials (id other : EdgeId) (credentials : String) :
    (decodeCredentials leadingKeyDecryptor id (encodeCredentials other credentials) =
        .error (.decrypt "message authentication failed") ∧
      ∀ rest, other.text ++ credentials ≠ id.text ++ rest) ∨
    ∃ rest, decodeCredentials leadingKeyDecryptor id (encodeCredentials other credentials) =
        .ok rest ∧ other.text ++ credentials = id.text ++ rest := by
  rw [encodeCredentials, decodeCredentials_encode, leadingKeyDecryptor, EdgeId.key]
  cases hrest : afterPrefix? (utf8 id.text) (utf8 (other.text ++ credentials)) with
  | none =>
    refine .inl ⟨rfl, fun rest heq => ?_⟩
    rw [heq, utf8_append, afterPrefix?_append] at hrest
    cases hrest
  | some plain =>
    obtain ⟨rest, rfl, heq⟩ := utf8_eq_append_iff.mp (afterPrefix?_eq_some_iff.mp hrest)
    exact .inr ⟨rest, by simp, heq⟩

/-- Decoding accepts exactly what is written for the agent's key and undoes the writing, so no
two texts stand for the same credentials and none has anything in it but symbols of the alphabet.
What is written for another key is accepted exactly if the agent's key begins it, and otherwise
refused as not belonging to the key. -/
theorem decodeCredentials_leadingKeyDecryptor (id : EdgeId) :
    (∀ sent credentials, decodeCredentials leadingKeyDecryptor id sent = .ok credentials ↔
      sent = encodeCredentials id credentials) ∧
    (∀ credentials, (encodeCredentials id credentials).toList ⊆ Base64.alphabet) ∧
    ∀ other credentials,
      (∀ rest, decodeCredentials leadingKeyDecryptor id (encodeCredentials other credentials) =
        .ok rest ↔ other.text ++ credentials = id.text ++ rest) ∧
      ((∃ reason, decodeCredentials leadingKeyDecryptor id (encodeCredentials other credentials) =
        .error (.decrypt reason)) ↔ ∀ rest, other.text ++ credentials ≠ id.text ++ rest) ∧
      (∀ fault, decodeCredentials leadingKeyDecryptor id (encodeCredentials other credentials) ≠
        .error (.credentialEncoding fault)) ∧
      decodeCredentials leadingKeyDecryptor id (encodeCredentials other credentials) ≠
        .error .credentialText := by
  refine ⟨fun sent credentials => accepts_iff,
    fun credentials c hc => Base64.mem_alphabet_of_mem_encode hc, fun other credentials => ?_⟩
  refine ⟨fun rest => accepts_iff.trans encodeCredentials_eq_iff, ?_⟩
  obtain ⟨hread, hno⟩ | ⟨rest, hread, heq⟩ :=
    decodeCredentials_encodeCredentials id other credentials
  · rw [hread]
    exact ⟨⟨fun _ => hno, fun _ => ⟨_, rfl⟩⟩, nofun, nofun⟩
  · rw [hread]
    exact ⟨⟨nofun, fun hno => absurd heq (hno rest)⟩, nofun, nofun⟩

end CheckIn
