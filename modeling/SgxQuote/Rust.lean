import Mathlib.Data.List.Basic
import Mathlib.Algebra.Group.Nat.Basic

/-!
# The Rust runtime under `sgx_register_utils.rs`

The quote decoder of `provers/sgx/prover/src/sgx_register_utils.rs` has no error path of its
own: a malformed quote stops it with a panic, raised by an `assert!` or `assert_eq!`, by a range
index past the end of a slice, by an `unwrap` of a library error, or, in a debug build, by `u64`
or `usize` arithmetic that overflows. `Panic` records which, with the values its message prints,
and every step of the decoder is a function into `Except Panic`. `usize` is 64 bits wide, as on
the hosts the prover runs on, so both integer types are the naturals below `2 ^ 64`.

Byte strings are lists; `slice s lo hi` is the window `s[lo..hi]` and `indexRange` the checked
Rust index that produces it. Rust arrays `[T; N]`, and alloy's `FixedBytes<N>` over them, are
`FixedArray`, which carries its length.

The slice panics are those of the standard library of the code's time: indexing by a `Range`
checks `lo ≤ hi` first ("slice index starts at `lo` but ends at `hi`") and then `hi ≤ len`
("range end index `hi` out of range for slice of length `len`"). Later versions check `lo`
against the length first, and report "range start index `lo` out of range" when `lo` is past
the end. Both panic on the same ranges; only that message differs.
-/

namespace SgxQuote

/-- A byte string: `&[u8]`, `Vec<u8>` and alloy's `Bytes`. -/
abbrev Bytes := List UInt8

/-- What stops the decoder. The fields are the values the Rust panic message prints. -/
inductive Panic where
  /-- `assert!(cond, msg)` with a false condition. -/
  | assertion (msg : String)
  /-- `assert_eq!(left, right)`, with `msg` when the call gives one, on unequal values. -/
  | assertEq (left right : Nat) (msg : Option String)
  /-- "slice index starts at `start` but ends at `stop`". -/
  | sliceIndexOrder (start stop : Nat)
  /-- "range end index `stop` out of range for slice of length `len`". -/
  | sliceEndIndexLen (stop len : Nat)
  /-- "range start index `start` out of range for slice of length `len`". -/
  | sliceStartIndexLen (start len : Nat)
  /-- "index out of bounds: the len is `len` but the index is `index`". -/
  | indexOutOfBounds (len index : Nat)
  /-- "source slice length (`src`) does not match destination slice length (`dst`)", raised by
      `copy_from_slice` inside `FixedBytes::from_slice`. -/
  | copyFromSliceLen (src dst : Nat)
  /-- "called `Result::unwrap()` on an `Err` value" at the call named. -/
  | unwrap (call : String)
  /-- "attempt to `op` with overflow", a debug build's check on `u64` and `usize`. -/
  | overflow (op : String)
  deriving DecidableEq, Repr

section Except

variable {ε α β : Type}

@[simp] theorem ok_bind (a : α) (f : α → Except ε β) : (Except.ok a >>= f) = f a := rfl

@[simp] theorem error_bind (e : ε) (f : α → Except ε β) :
    (Except.error e >>= f) = .error e := rfl

@[simp] theorem pure_eq_ok (a : α) : (pure a : Except ε α) = .ok a := rfl

/-- A bind that returned `.ok` ran its first step to `.ok`. -/
theorem bind_eq_ok {x : Except ε α} {f : α → Except ε β} {b : β} :
    x >>= f = .ok b ↔ ∃ a, x = .ok a ∧ f a = .ok b := by
  cases x <;> simp

end Except

/-! ## Assertions -/

/-- `assert!(cond, msg)`. -/
def assert (cond : Prop) [Decidable cond] (msg : String) : Except Panic Unit :=
  if cond then .ok () else .error (.assertion msg)

/-- `assert_eq!(left, right)`, or `assert_eq!(left, right, msg)`. -/
def assertEq (left right : Nat) (msg : Option String) : Except Panic Unit :=
  if left = right then .ok () else .error (.assertEq left right msg)

/-- `result.unwrap()` on a library call's result, `none` standing for its `Err`. -/
def unwrap {α : Type} (call : String) : Option α → Except Panic α
  | some a => .ok a
  | none => .error (.unwrap call)

theorem unwrap_eq_ok {α : Type} {call : String} {o : Option α} {a : α} :
    unwrap call o = .ok a ↔ o = some a := by
  cases o <;> simp [unwrap]

/-! ## Debug-build integer arithmetic -/

/-- `a + b` on `u64` or `usize`. -/
def addChecked (a b : Nat) : Except Panic Nat :=
  if a + b < 2 ^ 64 then .ok (a + b) else .error (.overflow "add")

/-- `a - b` on `u64` or `usize`. -/
def subChecked (a b : Nat) : Except Panic Nat :=
  if b ≤ a then .ok (a - b) else .error (.overflow "subtract")

/-- `a * b` on `u64` or `usize`. -/
def mulChecked (a b : Nat) : Except Panic Nat :=
  if a * b < 2 ^ 64 then .ok (a * b) else .error (.overflow "multiply")

/-- `a.pow(e)` on `u64`. Square-and-multiply squares the base only while the exponent left is
    at least two, so every intermediate value divides `a ^ e` and the call overflows exactly
    when `a ^ e` does. -/
def powChecked (a e : Nat) : Except Panic Nat :=
  if a ^ e < 2 ^ 64 then .ok (a ^ e) else .error (.overflow "multiply")

theorem addChecked_of_lt {a b : Nat} (h : a + b < 2 ^ 64) : addChecked a b = .ok (a + b) :=
  if_pos h

theorem subChecked_of_le {a b : Nat} (h : b ≤ a) : subChecked a b = .ok (a - b) :=
  if_pos h

theorem mulChecked_of_lt {a b : Nat} (h : a * b < 2 ^ 64) : mulChecked a b = .ok (a * b) :=
  if_pos h

theorem powChecked_of_lt {a e : Nat} (h : a ^ e < 2 ^ 64) : powChecked a e = .ok (a ^ e) :=
  if_pos h

/-! ## Slices -/

section Slice

variable {α : Type} {s : List α} {lo mid hi : Nat}

/-- The window `s[lo..hi]`. -/
def slice (s : List α) (lo hi : Nat) : List α := (s.drop lo).take (hi - lo)

/-- `&s[lo..hi]`: panics unless `lo ≤ hi ≤ s.len()`, checked in that order, as the standard
    library of the code's time checks them. -/
def indexRange (s : List α) (lo hi : Nat) : Except Panic (List α) :=
  if hi < lo then .error (.sliceIndexOrder lo hi)
  else if s.length < hi then .error (.sliceEndIndexLen hi s.length)
  else .ok (slice s lo hi)

/-- `&s[lo..]`: panics when `lo` is past the end. -/
def indexFrom (s : List α) (lo : Nat) : Except Panic (List α) :=
  if s.length < lo then .error (.sliceStartIndexLen lo s.length) else .ok (s.drop lo)

@[simp] theorem length_slice (s : List α) (lo hi : Nat) :
    (slice s lo hi).length = min (hi - lo) (s.length - lo) := by
  simp [slice]

theorem length_slice_of_le (h : hi ≤ s.length) : (slice s lo hi).length = hi - lo := by
  rw [length_slice]; omega

theorem indexRange_of_le (h₁ : lo ≤ hi) (h₂ : hi ≤ s.length) :
    indexRange s lo hi = .ok (slice s lo hi) := by
  simp [indexRange, Nat.not_lt.mpr h₁, Nat.not_lt.mpr h₂]

theorem indexRange_of_lt (h : s.length < hi) (h₁ : lo ≤ hi) :
    indexRange s lo hi = .error (.sliceEndIndexLen hi s.length) := by
  simp [indexRange, Nat.not_lt.mpr h₁, h]

theorem indexFrom_of_le (h : lo ≤ s.length) : indexFrom s lo = .ok (s.drop lo) := by
  simp [indexFrom, Nat.not_lt.mpr h]

theorem slice_zero (s : List α) (n : Nat) : slice s 0 n = s.take n := by
  simp [slice]

/-- Two adjacent windows make up the window that spans both. -/
theorem slice_append_slice (h₁ : lo ≤ mid) (h₂ : mid ≤ hi) :
    slice s lo mid ++ slice s mid hi = slice s lo hi := by
  have e : hi - lo = (mid - lo) + (hi - mid) := by omega
  rw [slice, slice, slice, e, List.take_add, List.drop_drop, Nat.add_sub_cancel' h₁]

/-- A window inside a prefix is the window of the whole list. -/
theorem slice_take {n : Nat} (h : hi ≤ n) : slice (s.take n) lo hi = slice s lo hi := by
  rw [slice, slice, List.drop_take, List.take_take, Nat.min_eq_left (by omega)]

theorem slice_append_left {x y : List α} (h : hi ≤ x.length) :
    slice (x ++ y) lo hi = slice x lo hi := by
  by_cases hlo : lo ≤ x.length
  · rw [slice, slice, List.drop_append_of_le_length hlo,
      List.take_append_of_le_length (by rw [List.length_drop]; omega)]
  · simp [slice, show hi - lo = 0 by omega]

theorem slice_append_right {x y : List α} (h : x.length ≤ lo) :
    slice (x ++ y) lo hi = slice y (lo - x.length) (hi - x.length) := by
  rw [slice, slice, List.drop_append_eq_append_drop, List.drop_eq_nil_of_le h, List.nil_append]
  congr 1
  omega

theorem slice_eq_self {x : List α} (h₁ : lo = 0) (h₂ : x.length ≤ hi) :
    slice x lo hi = x := by
  subst h₁
  rw [slice_zero, List.take_of_length_le h₂]

end Slice

/-! ## Arrays -/

/-- A Rust array `[T; N]`: exactly `n` elements. -/
structure FixedArray (α : Type) (n : Nat) where
  toList : List α
  length_eq : toList.length = n
  deriving DecidableEq, Repr

/-- alloy's `FixedBytes<N>`, the Solidity `bytesN`: a newtype over `[u8; N]`. -/
abbrev FixedBytes (n : Nat) := FixedArray UInt8 n

namespace FixedArray

variable {α : Type} {n : Nat}

@[ext] theorem ext {a b : FixedArray α n} (h : a.toList = b.toList) : a = b := by
  cases a; cases b; cases h; rfl

/-- `FixedBytes::<N>::from_slice(src)`: `copy_from_slice` into a zeroed array, which panics
    unless the lengths agree. -/
def fromSlice (n : Nat) (src : List α) : Except Panic (FixedArray α n) :=
  if h : src.length = n then .ok ⟨src, h⟩ else .error (.copyFromSliceLen src.length n)

/-- `<[T; N]>::try_from(vec).unwrap()`: the conversion hands the vector back as its error when
    its length is not `N`, and the `unwrap` panics on it. -/
def tryFrom (n : Nat) (v : List α) : Except Panic (FixedArray α n) :=
  if h : v.length = n then .ok ⟨v, h⟩ else .error (.unwrap "try_into")

/-- `a[i] = x`: panics when `i` is not below `N`. -/
def set (a : FixedArray α n) (i : Nat) (x : α) : Except Panic (FixedArray α n) :=
  if i < n then .ok ⟨a.toList.set i x, by simp [a.length_eq]⟩
  else .error (.indexOutOfBounds n i)

theorem set_of_lt {a : FixedArray α n} {i : Nat} {x : α} (h : i < n) :
    a.set i x = .ok ⟨a.toList.set i x, by simp [a.length_eq]⟩ :=
  if_pos h

theorem fromSlice_of_length {src : List α} (h : src.length = n) :
    fromSlice n src = .ok ⟨src, h⟩ :=
  dif_pos h

theorem tryFrom_of_length {v : List α} (h : v.length = n) : tryFrom n v = .ok ⟨v, h⟩ :=
  dif_pos h

@[simp] theorem tryFrom_toList (a : FixedArray α n) : tryFrom n a.toList = .ok a :=
  tryFrom_of_length a.length_eq

end FixedArray

end SgxQuote
