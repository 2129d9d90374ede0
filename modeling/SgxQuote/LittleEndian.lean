import SgxQuote.Rust
import Mathlib.Algebra.BigOperators.Fin
import Mathlib.Tactic.Ring

/-!
# `little_endian_decode`

`little_endian_decode` (`sgx_register_utils.rs:82-97`) reads at most eight bytes, least
significant first. It does not multiply each byte by `256 ^ i`: it splits the byte into its two
hex digits and weights them by `16 ^ (2 * i)` and `16 ^ (2 * i + 1)`, all in `u64`. The decoder
applies it to the four-byte auth-data size, the two-byte SVN and product-id fields and the
two- and four-byte length fields of the authentication data, and casts the result to `u16` or
`u32`.

`leValue` is the value the loop is meant to compute, `Σ b[i] * 256 ^ i`, and `toLeBytes` its
inverse, Rust's `to_le_bytes`, used to put the decoded integer fields back into bytes. The loop
is proved one turn at a time (`littleEndianDecodeStep_eq`), then over the whole slice
(`littleEndianDecodeLoop_eq`): no checked operation overflows and the result is `leValue`.
At every width up to 8 the decoder and `toLeBytes` are inverse (`littleEndianDecode_toLeBytes`).
-/

namespace SgxQuote

/-! ## The value of a little-endian byte string -/

/-- `Σ b[i] * 256 ^ i`. -/
def leValue : Bytes → Nat
  | [] => 0
  | b :: bs => b.toNat + 256 * leValue bs

/-- The `w` low bytes of `n`, least significant first: `n.to_le_bytes()` for a `w`-byte `n`. -/
def toLeBytes : Nat → Nat → Bytes
  | 0, _ => []
  | w + 1, n => UInt8.ofNat n :: toLeBytes w (n / 256)

@[simp] theorem leValue_nil : leValue [] = 0 := rfl

@[simp] theorem leValue_cons (b : UInt8) (bs : Bytes) :
    leValue (b :: bs) = b.toNat + 256 * leValue bs := rfl

theorem toNat_uInt8_ofNat (n : Nat) : (UInt8.ofNat n).toNat = n % 256 := rfl

theorem toNat_lt_256 (x : UInt8) : x.toNat < 256 := x.toNat_lt_size

@[simp] theorem length_toLeBytes (w n : Nat) : (toLeBytes w n).length = w := by
  induction w generalizing n with
  | zero => rfl
  | succ w ih => simp [toLeBytes, ih]

theorem leValue_lt (b : Bytes) : leValue b < 256 ^ b.length := by
  induction b with
  | nil => simp
  | cons x xs ih =>
    have hx := toNat_lt_256 x
    rw [leValue_cons, List.length_cons, pow_succ]
    omega

theorem leValue_toLeBytes (w n : Nat) : leValue (toLeBytes w n) = n % 256 ^ w := by
  induction w generalizing n with
  | zero => simp [toLeBytes, Nat.mod_one]
  | succ w ih =>
    rw [toLeBytes, leValue_cons, ih, toNat_uInt8_ofNat, pow_succ', Nat.mod_mul]

theorem leValue_toLeBytes_of_lt {w n : Nat} (h : n < 256 ^ w) : leValue (toLeBytes w n) = n := by
  rw [leValue_toLeBytes, Nat.mod_eq_of_lt h]

/-- A byte string is the `to_le_bytes` of its own little-endian value. -/
theorem toLeBytes_leValue (b : Bytes) : toLeBytes b.length (leValue b) = b := by
  induction b with
  | nil => rfl
  | cons x xs ih =>
    have hx := toNat_lt_256 x
    have hmod : (x.toNat + 256 * leValue xs) % 256 = x.toNat := by omega
    have hdiv : (x.toNat + 256 * leValue xs) / 256 = leValue xs := by omega
    rw [List.length_cons, toLeBytes, leValue_cons, hdiv, ih]
    congr 1
    exact UInt8.toNat.inj (by rw [toNat_uInt8_ofNat, hmod])

theorem toLeBytes_leValue_of_length {b : Bytes} {w : Nat} (h : b.length = w) :
    toLeBytes w (leValue b) = b := by
  rw [← h, toLeBytes_leValue]

theorem leValue_eq_sum (b : Bytes) :
    leValue b = ∑ i : Fin b.length, (b.get i).toNat * 256 ^ (i : Nat) := by
  induction b with
  | nil => simp
  | cons x xs ih =>
    show _ = ∑ i : Fin (xs.length + 1), _
    rw [leValue_cons, ih, Fin.sum_univ_succ, Finset.mul_sum]
    simp only [List.get_eq_getElem, Fin.val_zero, List.getElem_cons_zero, pow_zero, mul_one,
      Fin.val_succ, List.getElem_cons_succ, pow_succ]
    congr 1
    refine Finset.sum_congr rfl fun i _ => ?_
    ring

/-- Two bytes read as a `u16` and put back little-endian are the same two bytes. -/
theorem toLeBytes_uInt16_ofNat {b : Bytes} (h : b.length = 2) :
    toLeBytes 2 (UInt16.ofNat (leValue b)).toNat = b := by
  have hlt := leValue_lt b
  rw [h] at hlt
  rw [UInt16.toNat_ofNat_of_lt (by simpa using hlt), ← h, toLeBytes_leValue]

/-! ## The loop -/

/-- The body of the `for (i, byte) in encoded.iter().enumerate()` loop
    (`sgx_register_utils.rs:86-93`): the byte's two hex digits, weighted by `16 ^ (2 * i)` and
    `16 ^ (2 * i + 1)`, added to the running sum `decoded`. The exponents are cast `as u32`. -/
def littleEndianDecodeStep (i decoded : Nat) (byte : UInt8) : Except Panic Nat := do
  let digits := byte.toNat
  let upperDigit := digits / 16
  let lowerDigit := digits % 16
  let acc ← mulChecked lowerDigit (← powChecked 16 ((← mulChecked 2 i) % 2 ^ 32))
  let acc ← addChecked acc
    (← mulChecked upperDigit
      (← powChecked 16 ((← addChecked (← mulChecked 2 i) 1) % 2 ^ 32)))
  addChecked decoded acc

/-- The loop of `little_endian_decode` from position `i` on, with running sum `decoded`. -/
def littleEndianDecodeLoop : Nat → Nat → Bytes → Except Panic Nat
  | _, decoded, [] => .ok decoded
  | i, decoded, byte :: rest => do
    let decoded ← littleEndianDecodeStep i decoded byte
    littleEndianDecodeLoop (i + 1) decoded rest

/-- `little_endian_decode` (`sgx_register_utils.rs:82-97`). -/
def littleEndianDecode (encoded : Bytes) : Except Panic Nat := do
  assert (encoded.length ≤ 8) "encoded bytes should be less than 8"
  littleEndianDecodeLoop 0 0 encoded

/-- One turn at a position below 8 adds `256 ^ i * byte`, and none of its eight checked
    operations overflows: the largest term, `15 * 16 ^ 15`, and the running sum, below
    `256 ^ (i + 1)`, both stay under `2 ^ 64`. -/
theorem littleEndianDecodeStep_eq {i decoded : Nat} (byte : UInt8) (hi : i < 8)
    (hd : decoded < 256 ^ i) :
    littleEndianDecodeStep i decoded byte = .ok (decoded + 256 ^ i * byte.toNat) := by
  have hb := toNat_lt_256 byte
  have hX : 16 ^ (2 * i) ≤ 16 ^ 14 := Nat.pow_le_pow_right (by norm_num) (by omega)
  have hsucc : 16 ^ (2 * i + 1) = 16 * 16 ^ (2 * i) := pow_succ' 16 (2 * i)
  have hpow : 256 ^ i = 16 ^ (2 * i) := by rw [pow_mul]; norm_num
  simp only [littleEndianDecodeStep, mulChecked_of_lt (show 2 * i < 2 ^ 64 by omega), ok_bind,
    addChecked_of_lt (show 2 * i + 1 < 2 ^ 64 by omega),
    Nat.mod_eq_of_lt (show 2 * i < 2 ^ 32 by omega),
    Nat.mod_eq_of_lt (show 2 * i + 1 < 2 ^ 32 by omega),
    powChecked_of_lt (show 16 ^ (2 * i) < 2 ^ 64 by omega),
    powChecked_of_lt (show 16 ^ (2 * i + 1) < 2 ^ 64 by omega), hsucc, hpow]
  rw [hpow] at hd
  generalize 16 ^ (2 * i) = X at hX hd ⊢
  have hlo : byte.toNat % 16 * X ≤ 15 * X := Nat.mul_le_mul_right X (by omega)
  have hup : byte.toNat / 16 * (16 * X) ≤ 15 * (16 * X) := Nat.mul_le_mul_right _ (by omega)
  have hsum : byte.toNat % 16 * X + byte.toNat / 16 * (16 * X) = X * byte.toNat := by
    calc byte.toNat % 16 * X + byte.toNat / 16 * (16 * X)
        = X * (byte.toNat % 16 + 16 * (byte.toNat / 16)) := by ring
      _ = X * byte.toNat := by rw [Nat.mod_add_div]
  have hacc : X * byte.toNat ≤ X * 255 := Nat.mul_le_mul_left X (by omega)
  rw [mulChecked_of_lt (by omega), ok_bind, mulChecked_of_lt (by omega), ok_bind,
    addChecked_of_lt (by omega), ok_bind, hsum, addChecked_of_lt (by omega)]

/-- The loop from position `i`, with a running sum below `256 ^ i`, adds `256 ^ i` times the
    value of the bytes left, as long as they end by position 8. -/
theorem littleEndianDecodeLoop_eq (rest : Bytes) :
    ∀ i decoded, i + rest.length ≤ 8 → decoded < 256 ^ i →
      littleEndianDecodeLoop i decoded rest = .ok (decoded + 256 ^ i * leValue rest) := by
  induction rest with
  | nil => intro i decoded _ _; simp [littleEndianDecodeLoop]
  | cons byte rest ih =>
    intro i decoded hlen hd
    have hb := toNat_lt_256 byte
    have hnext : decoded + 256 ^ i * byte.toNat < 256 ^ (i + 1) := by
      have : 256 ^ i * byte.toNat ≤ 256 ^ i * 255 := Nat.mul_le_mul_left _ (by omega)
      rw [pow_succ]; omega
    simp only [List.length_cons] at hlen
    rw [littleEndianDecodeLoop, littleEndianDecodeStep_eq byte (by omega) hd, ok_bind,
      ih (i + 1) _ (by omega) hnext, leValue_cons, pow_succ]
    congr 1
    ring

theorem littleEndianDecode_of_le {b : Bytes} (h : b.length ≤ 8) :
    littleEndianDecode b = .ok (leValue b) := by
  rw [littleEndianDecode, assert, if_pos h, ok_bind,
    littleEndianDecodeLoop_eq b 0 0 (by omega) (by norm_num)]
  simp

theorem littleEndianDecode_of_gt {b : Bytes} (h : 8 < b.length) :
    littleEndianDecode b = .error (.assertion "encoded bytes should be less than 8") := by
  rw [littleEndianDecode, assert, if_neg (by omega), error_bind]

theorem littleEndianDecode_eq_ok {b : Bytes} {v : Nat} :
    littleEndianDecode b = .ok v ↔ b.length ≤ 8 ∧ leValue b = v := by
  by_cases h : b.length ≤ 8
  · simp [littleEndianDecode_of_le h, h]
  · simp [littleEndianDecode_of_gt (by omega : 8 < b.length), h]

/-- `little_endian_decode` panics exactly on more than eight bytes, with the message of its
    assertion; eight bytes pass, although the message says less than 8. -/
theorem littleEndianDecode_eq_error {b : Bytes} {e : Panic} :
    littleEndianDecode b = .error e ↔
      8 < b.length ∧ e = .assertion "encoded bytes should be less than 8" := by
  by_cases h : b.length ≤ 8
  · simp [littleEndianDecode_of_le h, h]
  · simp [littleEndianDecode_of_gt (by omega : 8 < b.length), eq_comm, h]
    omega

/-- `little_endian_decode` inverts `to_le_bytes` at every width up to 8: the `w` little-endian
    bytes of `v < 256 ^ w` decode to `v`, and every `w`-byte input that decodes to `v` is those
    bytes. -/
theorem littleEndianDecode_toLeBytes {w v : Nat} (hw : w ≤ 8) (hv : v < 256 ^ w) :
    littleEndianDecode (toLeBytes w v) = .ok v ∧
      ∀ b : Bytes, b.length = w → littleEndianDecode b = .ok v → b = toLeBytes w v := by
  refine ⟨by rw [littleEndianDecode_of_le (by simp [hw]), leValue_toLeBytes_of_lt hv], ?_⟩
  rintro b rfl hb
  obtain ⟨-, rfl⟩ := littleEndianDecode_eq_ok.1 hb
  exact (toLeBytes_leValue b).symm

/-- The four-byte length field of a 748-byte authentication-data section. -/
theorem littleEndianDecode_toLeBytes_sample :
    littleEndianDecode (toLeBytes 4 748) = .ok 748 ∧
      ∀ b : Bytes, b.length = 4 → littleEndianDecode b = .ok 748 → b = toLeBytes 4 748 :=
  littleEndianDecode_toLeBytes (by decide) (by decide)

/-- `little_endian_decode` on at most eight bytes: the nibble loop overflows nowhere and
    returns `Σ b[i] * 256 ^ i`, which is below `256 ^ |b|`; so its `as u16` cast on two bytes
    and its `as u32` cast on four bytes keep the value. -/
theorem littleEndianDecode_sum (b : Bytes) (h : b.length ≤ 8) :
    littleEndianDecode b = .ok (∑ i : Fin b.length, (b.get i).toNat * 256 ^ (i : Nat)) ∧
      (∑ i : Fin b.length, (b.get i).toNat * 256 ^ (i : Nat)) < 256 ^ b.length ∧
      (b.length = 2 → (UInt16.ofNat (∑ i : Fin b.length, (b.get i).toNat * 256 ^ (i : Nat))).toNat =
        ∑ i : Fin b.length, (b.get i).toNat * 256 ^ (i : Nat)) ∧
      (b.length = 4 → (UInt32.ofNat (∑ i : Fin b.length, (b.get i).toNat * 256 ^ (i : Nat))).toNat =
        ∑ i : Fin b.length, (b.get i).toNat * 256 ^ (i : Nat)) := by
  have hlt := leValue_lt b
  rw [← leValue_eq_sum]
  refine ⟨littleEndianDecode_of_le h, hlt, fun h2 => ?_, fun h4 => ?_⟩
  · rw [h2] at hlt; exact UInt16.toNat_ofNat_of_lt (by simpa using hlt)
  · rw [h4] at hlt; exact UInt32.toNat_ofNat_of_lt (by simpa using hlt)

/-- The sample of the spec: `[0x01, 0x02]` decodes to 513. -/
theorem littleEndianDecode_sum_sample :
    [(0x01 : UInt8), 0x02].length ≤ 8 ∧ littleEndianDecode [0x01, 0x02] = .ok 513 :=
  ⟨by decide,
    by simpa [Fin.sum_univ_two] using (littleEndianDecode_sum [0x01, 0x02] (by decide)).1⟩

end SgxQuote
