import InfraPins.Text.Percent

namespace InfraPins.Text

theorem toNat_lt_of_isAlphanum {c : Char} (letter : c.isAlphanum = true) : c.toNat < 0x80 := by
  unfold Char.isAlphanum Char.isAlpha Char.isUpper Char.isLower Char.isDigit at letter
  simp only [Bool.or_eq_true, Bool.and_eq_true, decide_eq_true_eq, UInt32.le_iff_toNat_le] at letter
  have code : c.toNat = c.val.toNat := rfl
  have last : 'z'.val.toNat = 122 := rfl
  have capital : 'Z'.val.toNat = 90 := rfl
  have digit : '9'.val.toNat = 57 := rfl
  omega

theorem Utf8.encode_injective : Function.Injective Utf8.encode := by
  intro left right same
  have octets : left.utf8Encode = right.utf8Encode := congrArg List.toByteArray same
  have read : left.utf8Encode.utf8Decode? = some left.toArray := List.utf8Decode?_utf8Encode
  rw [octets, List.utf8Decode?_utf8Encode] at read
  exact (Array.toList_inj.mpr (Option.some.inj read)).symm

namespace Percent

/-- The value of a hexadecimal digit. -/
def hexValue (c : Char) : Nat :=
  if c.toNat < 0x41 then c.toNat - 0x30 else c.toNat - 0x41 + 10

/-- The octets that an encoded text stands for. -/
def octets : List Char → List UInt8
  | '%' :: high :: low :: rest => UInt8.ofNat (hexValue high * 16 + hexValue low) :: octets rest
  | c :: rest => UInt8.ofNat c.toNat :: octets rest
  | [] => []

theorem hexValue_digit {value : Nat} (small : value < 16) : hexValue (digit value) = value := by
  have all : ∀ value : Fin 16, hexValue (digit value) = value.val := by decide
  exact all ⟨value, small⟩

theorem octets_encodeOctet (octet : UInt8) (rest : List Char) :
    octets (encodeOctet octet ++ rest) = octet :: octets rest := by
  have bound := octet.toNat_lt
  show UInt8.ofNat (hexValue (digit (octet.toNat / 16)) * 16 + hexValue (digit (octet.toNat % 16))) ::
    octets rest = _
  rw [hexValue_digit (by omega), hexValue_digit (by omega)]
  have whole : octet.toNat / 16 * 16 + octet.toNat % 16 = octet.toNat := by omega
  rw [whole, UInt8.ofNat_toNat]

theorem octets_encodeOctets (encoded : List UInt8) (rest : List Char) :
    octets (encoded.flatMap encodeOctet ++ rest) = encoded ++ octets rest := by
  induction encoded with
  | nil => rfl
  | cons octet encoded ih =>
    rw [List.flatMap_cons, List.append_assoc, octets_encodeOctet, ih, List.cons_append]

/-- What stands for itself is in ASCII and is no percent sign. -/
theorem of_isUnreserved {c : Char} (kept : isUnreserved c = true) : c.toNat < 0x80 ∧ c ≠ '%' := by
  constructor
  · simp only [isUnreserved, Bool.or_eq_true, beq_iff_eq] at kept
    rcases kept with (((letter | rfl) | rfl) | rfl) | rfl
    · exact toNat_lt_of_isAlphanum letter
    all_goals decide
  · rintro rfl
    exact absurd kept (by decide)

theorem octets_kept {c : Char} (kept : isUnreserved c = true) (rest : List Char) :
    octets (c :: rest) = String.utf8EncodeChar c ++ octets rest := by
  obtain ⟨ascii, apart⟩ := of_isUnreserved kept
  have single : String.utf8EncodeChar c = [UInt8.ofNat c.toNat] := by
    unfold String.utf8EncodeChar
    exact if_pos (Nat.le_of_lt_succ ascii)
  rw [single, octets]
  · rfl
  · intro _ _ _ same
    exact absurd same apart

theorem octets_encode (text : List Char) : octets (encode isUnreserved text) = Utf8.encode text := by
  unfold encode Utf8.encode
  induction text with
  | nil => rfl
  | cons c text ih =>
    rw [List.flatMap_cons, List.flatMap_cons, ← ih]
    by_cases kept : isUnreserved c = true
    · rw [if_pos kept]
      exact octets_kept kept _
    · rw [if_neg kept]
      exact octets_encodeOctets _ _

theorem segment_injective : Function.Injective segment := by
  intro left right same
  have encoded : encode isUnreserved left.toList = encode isUnreserved right.toList :=
    String.ofList_injective same
  have octet : Utf8.encode left.toList = Utf8.encode right.toList := by
    rw [← octets_encode, ← octets_encode, encoded]
  exact String.toList_injective (Utf8.encode_injective octet)

end Percent

end InfraPins.Text
