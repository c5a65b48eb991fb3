import InfraPins.Text.Base64

namespace InfraPins.Text.Base64

/-- A value below 64 has a character of its own, which is no padding. -/
theorem symbol_told {value : Nat} (small : value < 64) :
    value? (symbol value) = some value ∧ symbol value ≠ padding := by
  have all : ∀ value : Fin 64, value? (symbol value) = some value.val ∧ symbol value ≠ padding := by
    decide +kernel
  exact all ⟨value, small⟩

/-- What a character of the alphabet does at its place of a group. -/
theorem decodeFrom_symbol {value : Nat} (small : value < 64) (group : Group) (text : List Char) :
    decodeFrom group (symbol value :: text) =
      match group.place with
      | 0 => decodeFrom ⟨1, value, 0⟩ text
      | 1 => (decodeFrom ⟨2, value % 16, 0⟩ text).map (UInt8.ofNat (group.rest * 4 + value / 16) :: ·)
      | 2 => (decodeFrom ⟨3, value % 4, 0⟩ text).map (UInt8.ofNat (group.rest * 16 + value / 4) :: ·)
      | _ => (decodeFrom ⟨0, 0, 0⟩ text).map (UInt8.ofNat (group.rest * 64 + value) :: ·) := by
  obtain ⟨told, apart⟩ := symbol_told small
  obtain ⟨place, rest, paddings⟩ := group
  rcases place with _ | _ | _ | place
  all_goals simp only [decodeFrom, apart, told, if_false]

theorem ofNat_eq {octet : UInt8} {value : Nat} (same : value = octet.toNat) : UInt8.ofNat value = octet := by
  rw [same, UInt8.ofNat_toNat]

theorem decode_encode (octets : List UInt8) : decode (encode octets) = some octets := by
  unfold decode
  -- A group has one octet, or two, or three; only the last may have less than three.
  fun_induction encode octets with
  | case1 => rfl
  | case2 a =>
    have bound := a.toNat_lt
    have front : a.toNat / 4 < 64 := by omega
    have back : a.toNat % 4 * 16 < 64 := by omega
    have first : UInt8.ofNat (a.toNat / 4 * 4 + a.toNat % 4 * 16 / 16) = a := ofNat_eq (by omega)
    simp only [decodeFrom_symbol front, decodeFrom_symbol back, first]
    rfl
  | case3 a b =>
    have bound := a.toNat_lt
    have bound' := b.toNat_lt
    have front : a.toNat / 4 < 64 := by omega
    have middle : a.toNat % 4 * 16 + b.toNat / 16 < 64 := by omega
    have back : b.toNat % 16 * 4 < 64 := by omega
    have first : UInt8.ofNat (a.toNat / 4 * 4 + (a.toNat % 4 * 16 + b.toNat / 16) / 16) = a :=
      ofNat_eq (by omega)
    have second : UInt8.ofNat ((a.toNat % 4 * 16 + b.toNat / 16) % 16 * 16 + b.toNat % 16 * 4 / 4) = b :=
      ofNat_eq (by omega)
    simp only [decodeFrom_symbol front, decodeFrom_symbol middle, decodeFrom_symbol back, first, second]
    rfl
  | case4 a b c rest ih =>
    have bound := a.toNat_lt
    have bound' := b.toNat_lt
    have bound'' := c.toNat_lt
    have front : a.toNat / 4 < 64 := by omega
    have middle : a.toNat % 4 * 16 + b.toNat / 16 < 64 := by omega
    have middle' : b.toNat % 16 * 4 + c.toNat / 64 < 64 := by omega
    have back : c.toNat % 64 < 64 := by omega
    have first : UInt8.ofNat (a.toNat / 4 * 4 + (a.toNat % 4 * 16 + b.toNat / 16) / 16) = a :=
      ofNat_eq (by omega)
    have second : UInt8.ofNat ((a.toNat % 4 * 16 + b.toNat / 16) % 16 * 16 +
        (b.toNat % 16 * 4 + c.toNat / 64) / 4) = b := ofNat_eq (by omega)
    have third : UInt8.ofNat ((b.toNat % 16 * 4 + c.toNat / 64) % 4 * 64 + c.toNat % 64) = c :=
      ofNat_eq (by omega)
    simp only [decodeFrom_symbol front, decodeFrom_symbol middle, decodeFrom_symbol middle',
      decodeFrom_symbol back, first, second, third, ih]
    rfl

end InfraPins.Text.Base64
