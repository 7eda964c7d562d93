/-
# Reading base64 accepts exactly what writing produces

A text stands for some bytes if and only if it is what is written for them
(`Base64.decode_eq_ok_iff`): the reader tolerates no padding, no foreign symbol, no symbol that is
left over and no stray bits in the last one, so every sequence of bytes has one written form.

Both directions go group by group.  A symbol and its value determine each other
(`sextet?_eq_some_iff`), and so do four values and three bytes; of the last group, which may be
shorter, the values that are accepted are those whose surplus bits are zero.
-/
import CheckIn.Error
import CheckIn.Text.Utf8
import Mathlib.Data.List.Basic
import Mathlib.Tactic.Common

namespace CheckIn.Base64

/-! ## Symbols and their values -/

/-- The standard alphabet, in the order of the values. -/
def alphabet : List Char :=
  "ABCDEFGHIJKLMNOPQRSTUVWXYZabcdefghijklmnopqrstuvwxyz0123456789+/".toList

/-- The symbol of a value is the one at its place in the alphabet. -/
lemma symbol_mem_alphabet {value : Nat} (h : value < 64) :
    Char.ofNat (symbol value).toNat ∈ alphabet := by
  revert value
  decide

/-- A byte with a value is the symbol of it. -/
lemma symbol_of_sextet? {byte : UInt8} {value : Nat} (h : sextet? byte = some value) :
    symbol value = byte := by
  have hbyte : UInt8.ofNat byte.toNat = byte := UInt8.ofNat_toNat
  simp only [sextet?] at h
  split at h
  · next hrange =>
    obtain rfl := Option.some.inj h
    rw [symbol, if_pos (by omega), Nat.sub_add_cancel hrange.1, hbyte]
  split at h
  · next hrange =>
    obtain rfl := Option.some.inj h
    rw [symbol, if_neg (by omega), if_pos (by omega), Nat.sub_add_cancel (by omega), hbyte]
  split at h
  · next hrange =>
    obtain rfl := Option.some.inj h
    rw [symbol, if_neg (by omega), if_neg (by omega), if_pos (by omega), Nat.add_sub_cancel, hbyte]
  split at h
  · next heq =>
    obtain rfl := Option.some.inj h
    rw [← hbyte, heq]
    rfl
  split at h
  · next heq =>
    obtain rfl := Option.some.inj h
    rw [← hbyte, heq]
    rfl
  · cases h

/-- A symbol and its value determine each other. -/
lemma sextet?_eq_some_iff {byte : UInt8} {value : Nat} :
    sextet? byte = some value ↔ value < 64 ∧ byte = symbol value := by
  constructor
  · intro h
    exact ⟨sextet?_lt h, (symbol_of_sextet? h).symm⟩
  · rintro ⟨h, rfl⟩
    exact sextet?_symbol h

lemma sextetAt_eq_ok_iff {offset : Nat} {byte : UInt8} {value : Nat} :
    sextetAt offset byte = .ok value ↔ value < 64 ∧ byte = symbol value := by
  rw [← sextet?_eq_some_iff, sextetAt]
  cases sextet? byte <;> simp

/-- What fills the last group up is no symbol. -/
lemma symbol_ne_paddingSymbol {value : Nat} (h : value < 64) : symbol value ≠ paddingSymbol := by
  revert value
  decide

/-! ## Four values and three bytes -/

lemma toNat_ofNat_of_lt {n : Nat} (h : n < 256) : (UInt8.ofNat n).toNat = n := by
  rw [UInt8.toNat_ofNat']
  exact Nat.mod_eq_of_lt h

/-- The symbols of a complete group of values. -/
lemma encodeBytes_group {p q r s : Nat} (hp : p < 64) (hq : q < 64) (hr : r < 64) (hs : s < 64)
    (rest : List UInt8) :
    encodeBytes (UInt8.ofNat (p * 4 + q / 16) :: UInt8.ofNat (q % 16 * 16 + r / 4) ::
      UInt8.ofNat (r % 4 * 64 + s) :: rest) =
      symbol p :: symbol q :: symbol r :: symbol s :: encodeBytes rest := by
  have ha : p * 4 + q / 16 < 256 := by omega
  have hb : q % 16 * 16 + r / 4 < 256 := by omega
  have hc : r % 4 * 64 + s < 256 := by omega
  rw [encodeBytes, toNat_ofNat_of_lt ha, toNat_ofNat_of_lt hb, toNat_ofNat_of_lt hc]
  congr <;> omega

/-- Every three bytes are those of a complete group of values. -/
lemma exists_group (a b c : UInt8) : ∃ p q r s, p < 64 ∧ q < 64 ∧ r < 64 ∧ s < 64 ∧
    a = UInt8.ofNat (p * 4 + q / 16) ∧ b = UInt8.ofNat (q % 16 * 16 + r / 4) ∧
      c = UInt8.ofNat (r % 4 * 64 + s) := by
  have ha := a.toNat_lt
  have hb := b.toNat_lt
  have hc := c.toNat_lt
  refine ⟨a.toNat / 4, a.toNat % 4 * 16 + b.toNat / 16, b.toNat % 16 * 4 + c.toNat / 64,
    c.toNat % 64, by omega, by omega, by omega, by omega, ?_, ?_, ?_⟩
  · rw [show a.toNat / 4 * 4 + (a.toNat % 4 * 16 + b.toNat / 16) / 16 = a.toNat by omega,
      UInt8.ofNat_toNat]
  · rw [show (a.toNat % 4 * 16 + b.toNat / 16) % 16 * 16 +
      (b.toNat % 16 * 4 + c.toNat / 64) / 4 = b.toNat by omega, UInt8.ofNat_toNat]
  · rw [show (b.toNat % 16 * 4 + c.toNat / 64) % 4 * 64 + c.toNat % 64 = c.toNat by omega,
      UInt8.ofNat_toNat]

/-! ## The last group -/

/-- Once padding has begun the group counts as filled up. -/
lemma padded_of_lastSextets {offset index first : Nat} {bytes : List UInt8}
    {values : List Nat} {padded : Bool}
    (h : lastSextets offset index (some first) bytes = .ok (values, padded)) : padded = true := by
  induction bytes generalizing index first with
  | nil =>
    cases h
    rfl
  | cons byte rest ih =>
    rw [lastSextets] at h
    split at h
    · split at h
      · cases h
      · exact ih h
    · cases h

/-- The last group is read without padding if its bytes are symbols. -/
lemma lastSextets_eq_ok_iff {offset index : Nat} {bytes : List UInt8} {values : List Nat} :
    lastSextets offset index none bytes = .ok (values, false) ↔
      (∀ value ∈ values, value < 64) ∧ bytes = values.map symbol := by
  induction bytes generalizing index values with
  | nil => cases values <;> simp [lastSextets]
  | cons byte rest ih =>
    rw [lastSextets]
    by_cases hpad : byte = paddingSymbol
    · rw [if_pos hpad]
      constructor
      · intro h
        split at h
        · cases h
        · exact absurd (padded_of_lastSextets h) Bool.false_ne_true
      · rintro ⟨hlt, hbytes⟩
        cases values with
        | nil => cases hbytes
        | cons value values =>
          obtain ⟨hbyte, -⟩ := List.cons.inj hbytes
          exact absurd (hbyte.symm.trans hpad) (symbol_ne_paddingSymbol (hlt value (by simp)))
    · rw [if_neg hpad]
      simp only [bind_eq_ok_iff, sextetAt_eq_ok_iff]
      constructor
      · rintro ⟨value, ⟨hvalue, rfl⟩, ⟨more, padded⟩, hmore, hresult⟩
        obtain ⟨rfl, rfl⟩ := Prod.mk.inj (Except.ok.inj hresult)
        obtain ⟨hlt, rfl⟩ := ih.mp hmore
        exact ⟨List.forall_mem_cons.mpr ⟨hvalue, hlt⟩, rfl⟩
      · rintro ⟨hlt, hbytes⟩
        cases values with
        | nil => cases hbytes
        | cons value values =>
          obtain ⟨hvalue, hlt⟩ := List.forall_mem_cons.mp hlt
          obtain ⟨rfl, rfl⟩ := List.cons.inj hbytes
          exact ⟨value, ⟨hvalue, rfl⟩, (values, false), ih.mpr ⟨hlt, rfl⟩, rfl⟩

/-- What the values of a last group, of at most four symbols, stand for. -/
inductive LastGroup : List Nat → List UInt8 → Prop
  | two {a b : Nat} (ha : a < 64) (hb : b < 64) (h : b % 16 = 0) :
      LastGroup [a, b] [UInt8.ofNat (a * 4 + b / 16)]
  | three {a b c : Nat} (ha : a < 64) (hb : b < 64) (hc : c < 64) (h : c % 4 = 0) :
      LastGroup [a, b, c] [UInt8.ofNat (a * 4 + b / 16), UInt8.ofNat (b % 16 * 16 + c / 4)]
  | four {a b c d : Nat} (ha : a < 64) (hb : b < 64) (hc : c < 64) (hd : d < 64) :
      LastGroup [a, b, c, d] [UInt8.ofNat (a * 4 + b / 16), UInt8.ofNat (b % 16 * 16 + c / 4),
        UInt8.ofNat (c % 4 * 64 + d)]

lemma LastGroup.lt {values : List Nat} {out : List UInt8} (h : LastGroup values out) :
    ∀ value ∈ values, value < 64 := by
  cases h <;> simp_all

/-- A last group that is filled up is refused, whatever its values. -/
lemma decodeLast_ne_ok_of_padded {offset : Nat} {bytes out : List UInt8} {values : List Nat}
    (h : lastSextets offset 0 none bytes = .ok (values, true)) :
    decodeLast offset bytes ≠ .ok out := by
  intro hout
  simp only [decodeLast, h, bind, Except.bind] at hout
  split at hout <;> cases hout

/-- The values of the last group decide: they have to be those of one, two or three bytes. -/
lemma decodeLast_of_values {offset : Nat} {bytes out : List UInt8} {values : List Nat}
    (h : lastSextets offset 0 none bytes = .ok (values, false))
    (hlt : ∀ value ∈ values, value < 64) (hlength : values.length ≤ 4) :
    decodeLast offset bytes = .ok out ↔ LastGroup values out := by
  simp only [decodeLast, h, bind, Except.bind]
  match values, hlt, hlength with
  | [], _, _ =>
    constructor
    · nofun
    · nofun
  | [_], _, _ =>
    constructor
    · nofun
    · nofun
  | [a, b], hlt, _ =>
    simp only [List.forall_mem_cons] at hlt
    obtain ⟨ha, hb, -⟩ := hlt
    rw [if_neg (by simp), if_neg (by simp)]
    dsimp only
    split
    · next hbits =>
      constructor
      · nofun
      · rintro ⟨⟩
        contradiction
    · next hbits =>
      constructor
      · rintro ⟨⟩
        exact .two ha hb (not_not.mp hbits)
      · rintro ⟨⟩
        rfl
  | [a, b, c], hlt, _ =>
    simp only [List.forall_mem_cons] at hlt
    obtain ⟨ha, hb, hc, -⟩ := hlt
    rw [if_neg (by simp), if_neg (by simp)]
    dsimp only
    split
    · next hbits =>
      constructor
      · nofun
      · rintro ⟨⟩
        contradiction
    · next hbits =>
      constructor
      · rintro ⟨⟩
        exact .three ha hb hc (not_not.mp hbits)
      · rintro ⟨⟩
        rfl
  | [a, b, c, d], hlt, _ =>
    simp only [List.forall_mem_cons] at hlt
    obtain ⟨ha, hb, hc, hd, -⟩ := hlt
    rw [if_neg (by simp), if_neg (by simp)]
    constructor
    · rintro ⟨⟩
      exact .four ha hb hc hd
    · rintro ⟨⟩
      rfl

lemma decodeLast_eq_ok_iff {offset : Nat} {bytes out : List UInt8} (h : bytes.length ≤ 4) :
    decodeLast offset bytes = .ok out ↔
      ∃ values, LastGroup values out ∧ bytes = values.map symbol := by
  constructor
  · intro hout
    have hread := hout
    simp only [decodeLast, bind_eq_ok_iff] at hread
    obtain ⟨⟨values, padded⟩, hvalues, -⟩ := hread
    cases padded with
    | true => exact absurd hout (decodeLast_ne_ok_of_padded hvalues)
    | false =>
      obtain ⟨hlt, rfl⟩ := lastSextets_eq_ok_iff.mp hvalues
      rw [List.length_map] at h
      exact ⟨values, (decodeLast_of_values hvalues hlt h).mp hout, rfl⟩
  · rintro ⟨values, hgroup, rfl⟩
    rw [List.length_map] at h
    exact (decodeLast_of_values (lastSextets_eq_ok_iff.mpr ⟨hgroup.lt, rfl⟩) hgroup.lt h).mpr hgroup

/-- The symbols of a last group are the ones written for the bytes it stands for. -/
lemma LastGroup.encodeBytes_eq {values : List Nat} {out : List UInt8} (h : LastGroup values out) :
    encodeBytes out = values.map symbol := by
  cases h with
  | @two a b ha hb hbits =>
    rw [encodeBytes, toNat_ofNat_of_lt (by omega), show (a * 4 + b / 16) / 4 = a by omega,
      show (a * 4 + b / 16) % 4 * 16 = b by omega]
    rfl
  | @three a b c ha hb hc hbits =>
    rw [encodeBytes, toNat_ofNat_of_lt (by omega), toNat_ofNat_of_lt (by omega),
      show (a * 4 + b / 16) / 4 = a by omega,
      show (a * 4 + b / 16) % 4 * 16 + (b % 16 * 16 + c / 4) / 16 = b by omega,
      show (b % 16 * 16 + c / 4) % 16 * 4 = c by omega]
    rfl
  | four ha hb hc hd => rw [encodeBytes_group ha hb hc hd, encodeBytes, List.map, List.map,
      List.map, List.map, List.map]

/-- One, two or three bytes are written as one group. -/
lemma exists_lastGroup {out : List UInt8} (h : out ≠ []) (hlength : out.length ≤ 3) :
    ∃ values, LastGroup values out := by
  match out, h, hlength with
  | [a], _, _ =>
    have ha := a.toNat_lt
    have hgroup := LastGroup.two (a := a.toNat / 4) (b := a.toNat % 4 * 16) (by omega) (by omega)
      (by omega)
    rw [show a.toNat / 4 * 4 + a.toNat % 4 * 16 / 16 = a.toNat by omega,
      UInt8.ofNat_toNat] at hgroup
    exact ⟨_, hgroup⟩
  | [a, b], _, _ =>
    have ha := a.toNat_lt
    have hb := b.toNat_lt
    have hgroup := LastGroup.three (a := a.toNat / 4) (b := a.toNat % 4 * 16 + b.toNat / 16)
      (c := b.toNat % 16 * 4) (by omega) (by omega) (by omega) (by omega)
    rw [show a.toNat / 4 * 4 + (a.toNat % 4 * 16 + b.toNat / 16) / 16 = a.toNat by omega,
      show (a.toNat % 4 * 16 + b.toNat / 16) % 16 * 16 + b.toNat % 16 * 4 / 4 = b.toNat by omega,
      UInt8.ofNat_toNat, UInt8.ofNat_toNat] at hgroup
    exact ⟨_, hgroup⟩
  | [a, b, c], _, _ =>
    obtain ⟨p, q, r, s, hp, hq, hr, hs, rfl, rfl, rfl⟩ := exists_group a b c
    exact ⟨_, .four hp hq hr hs⟩

/-! ## All groups -/

/-- As many symbols as complete groups and the last group have. -/
lemma length_encodeBytes (bytes : List UInt8) :
    (encodeBytes bytes).length = (4 * bytes.length + 2) / 3 := by
  induction bytes using encodeBytes.induct with
  | case1 a b c rest ih =>
    rw [encodeBytes]
    simp only [List.length_cons, ih]
    omega
  | case2 | case3 | case4 => simp [encodeBytes]

lemma eq_nil_of_encodeBytes {bytes : List UInt8} (h : encodeBytes bytes = []) : bytes = [] := by
  have hlength := length_encodeBytes bytes
  rw [h, List.length_nil] at hlength
  exact List.eq_nil_of_length_eq_zero (by omega)

/-- Nothing but the symbols of some bytes is read as these bytes. -/
lemma decodeFrom_eq_ok_iff {offset : Nat} {bytes out : List UInt8} :
    decodeFrom offset bytes = .ok out ↔ bytes = encodeBytes out := by
  induction offset, bytes using decodeFrom.induct generalizing out with
  | case1 offset a b c d e rest ih =>
    rw [decodeFrom]
    simp only [bind_eq_ok_iff, sextetAt_eq_ok_iff, ih]
    constructor
    · rintro ⟨p, ⟨hp, rfl⟩, q, ⟨hq, rfl⟩, r, ⟨hr, rfl⟩, s, ⟨hs, rfl⟩, more, hmore, hout⟩
      cases hout
      rw [encodeBytes_group hp hq hr hs, ← hmore]
    · intro h
      match out, h with
      | x :: y :: z :: more, h =>
        obtain ⟨p, q, r, s, hp, hq, hr, hs, rfl, rfl, rfl⟩ := exists_group x y z
        rw [encodeBytes_group hp hq hr hs] at h
        simp only [List.cons.injEq] at h
        obtain ⟨ha, hb, hc, hd, hmore⟩ := h
        exact ⟨p, ⟨hp, ha⟩, q, ⟨hq, hb⟩, r, ⟨hr, hc⟩, s, ⟨hs, hd⟩, more, by simpa using hmore, rfl⟩
  | case2 offset =>
    rw [decodeFrom]
    constructor
    · rintro ⟨⟩
      rfl
    · intro h
      rw [eq_nil_of_encodeBytes h.symm]
  | case3 offset last hlong hnil =>
    have hlength : last.length ≤ 4 := by
      match last, hlong with
      | [], _ | [_], _ | [_, _], _ | [_, _, _], _ | [_, _, _, _], _ => simp
      | a :: b :: c :: d :: e :: rest, hlong => exact absurd rfl (hlong a b c d e rest)
    rw [decodeFrom.eq_3 offset last hlong hnil, decodeLast_eq_ok_iff hlength]
    constructor
    · rintro ⟨values, hgroup, rfl⟩
      exact hgroup.encodeBytes_eq.symm
    · rintro rfl
      rw [length_encodeBytes] at hlength
      have hout : out ≠ [] := fun h => hnil (by rw [h, encodeBytes])
      obtain ⟨values, hgroup⟩ := exists_lastGroup hout (by omega)
      exact ⟨values, hgroup, hgroup.encodeBytes_eq⟩

/-- Reading accepts exactly what writing produces, and undoes it. -/
theorem decode_eq_ok_iff {bytes out : List UInt8} :
    decode bytes = .ok out ↔ bytes = encodeBytes out := by
  rw [decode]
  constructor
  · intro h
    split at h
    · cases h
    · exact decodeFrom_eq_ok_iff.mp h
  · intro h
    have hlength : bytes.length % 4 ≠ 1 := by
      rw [h, length_encodeBytes]
      omega
    rw [strayEnd?, if_neg hlength]
    exact decodeFrom_eq_ok_iff.mpr h

/-! ## As text -/

lemma exists_symbol_of_mem_last {out : List UInt8} {byte : UInt8} (hout : out ≠ [])
    (hlength : out.length ≤ 3) (h : byte ∈ encodeBytes out) :
    ∃ value < 64, byte = symbol value := by
  obtain ⟨values, hgroup⟩ := exists_lastGroup hout hlength
  rw [hgroup.encodeBytes_eq] at h
  obtain ⟨value, hvalue, rfl⟩ := List.mem_map.mp h
  exact ⟨value, hgroup.lt value hvalue, rfl⟩

/-- Every byte that is written is the symbol of a value. -/
lemma exists_symbol_of_mem {bytes : List UInt8} {byte : UInt8} (h : byte ∈ encodeBytes bytes) :
    ∃ value < 64, byte = symbol value := by
  induction bytes using encodeBytes.induct with
  | case1 a b c rest ih =>
    obtain ⟨p, q, r, s, hp, hq, hr, hs, rfl, rfl, rfl⟩ := exists_group a b c
    rw [encodeBytes_group hp hq hr hs] at h
    simp only [List.mem_cons] at h
    obtain rfl | rfl | rfl | rfl | h := h
    · exact ⟨p, hp, rfl⟩
    · exact ⟨q, hq, rfl⟩
    · exact ⟨r, hr, rfl⟩
    · exact ⟨s, hs, rfl⟩
    · exact ih h
  | case2 a b => exact exists_symbol_of_mem_last (List.cons_ne_nil a [b]) (by simp) h
  | case3 a => exact exists_symbol_of_mem_last (List.cons_ne_nil a []) (by simp) h
  | case4 => cases h

/-- A symbol is a character of one byte. -/
lemma utf8EncodeChar_symbol {value : Nat} (h : value < 64) :
    String.utf8EncodeChar (Char.ofNat (symbol value).toNat) = [symbol value] := by
  revert value
  decide

/-- The bytes of a written text are its symbols. -/
lemma utf8_encode (bytes : List UInt8) : utf8 (encode bytes) = encodeBytes bytes := by
  rw [encode, utf8, String.toList_ofList, List.flatMap_map]
  have hone : ∀ byte ∈ encodeBytes bytes,
      String.utf8EncodeChar (Char.ofNat byte.toNat) = [byte] := by
    intro byte hbyte
    obtain ⟨value, hvalue, rfl⟩ := exists_symbol_of_mem hbyte
    exact utf8EncodeChar_symbol hvalue
  rw [List.flatMap_congr hone, List.flatMap_singleton']

/-- A text stands for some bytes if and only if it is the one that is written for them. -/
theorem decode_utf8_eq_ok_iff {text : String} {bytes : List UInt8} :
    decode (utf8 text) = .ok bytes ↔ text = encode bytes := by
  rw [decode_eq_ok_iff, ← utf8_encode, utf8_inj]

/-- Writing can be undone. -/
theorem encode_injective : Function.Injective encode := by
  intro bytes other h
  have hread := decode_utf8_eq_ok_iff.mpr h
  rw [decode_utf8_eq_ok_iff.mpr rfl] at hread
  exact Except.ok.inj hread

/-- A written text has symbols of the alphabet only. -/
theorem mem_alphabet_of_mem_encode {bytes : List UInt8} {c : Char}
    (h : c ∈ (encode bytes).toList) : c ∈ alphabet := by
  rw [encode, String.toList_ofList] at h
  obtain ⟨byte, hbyte, rfl⟩ := List.mem_map.mp h
  obtain ⟨value, hvalue, rfl⟩ := exists_symbol_of_mem hbyte
  exact symbol_mem_alphabet hvalue

/-- No symbol of a written text is left over. -/
theorem length_encode (bytes : List UInt8) :
    (encode bytes).toList.length = (4 * bytes.length + 2) / 3 := by
  rw [encode, String.toList_ofList, List.length_map, length_encodeBytes]

end CheckIn.Base64
