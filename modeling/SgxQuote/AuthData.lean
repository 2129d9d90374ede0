import SgxQuote.Report

/-!
# The authentication data

`parse_quote_auth_data` (`sgx_register_utils.rs:162-204`) reads the section that starts at
offset 436 of the quote. Up to byte 578 its layout is fixed. There the QE auth-data size `p`
moves every later offset, and the certificate data size `c` read after it bounds the PEM window
handed to `parse_cerification_chain_bytes` (`sgx_register_utils.rs:152-160`). Both sizes come
from the input; the code checks neither, and relies on Rust's bounds check of each slice.

`AuthDataAccepted` says when the decoder returns, over unbounded naturals, and
`AuthDataReadFrom` what it returns: every field is the window at its offset.
`parseQuoteAuthData_of_accepted` and `accepted_of_parseQuoteAuthData` are the two directions.
The certificate loop is proved from any start position (`fillCertArray_of_le`); after the
count assertion it never indexes past the array (`parseCerificationChainBytes_eq_error`).
-/

namespace SgxQuote

/-! ## The certificate chain -/

/-- The loop `for (i, pem) in pems.iter().enumerate()` of `parse_cerification_chain_bytes`
    (`sgx_register_utils.rs:156-158`), from position `i` on. -/
def fillCertArray : Nat → FixedArray Bytes 3 → List Pem → Except Panic (FixedArray Bytes 3)
  | _, decodedCertDataArray, [] => .ok decodedCertDataArray
  | i, decodedCertDataArray, pem :: pems => do
    let decodedCertDataArray ← decodedCertDataArray.set i pem.contents
    fillCertArray (i + 1) decodedCertDataArray pems

/-- `parse_cerification_chain_bytes` (`sgx_register_utils.rs:152-160`). -/
def parseCerificationChainBytes (parseMany : Bytes → Option (List Pem)) (pemBytes : Bytes) :
    Except Panic (FixedArray Bytes 3) := do
  let pems ← unwrap "parse_many" (parseMany pemBytes)
  assertEq pems.length 3 none
  fillCertArray 0 ⟨[[], [], []], rfl⟩ pems

/-- The loop from position `i` writes the contents of the blocks over positions `i`, `i + 1`, …
    and leaves the other positions as they were, when all of them lie below 3. -/
theorem fillCertArray_of_le {i : Nat} {a : FixedArray Bytes 3} {pems : List Pem}
    (h : i + pems.length ≤ 3) :
    ∃ a', fillCertArray i a pems = .ok a' ∧ a'.toList =
      a.toList.take i ++ pems.map Pem.contents ++ a.toList.drop (i + pems.length) := by
  induction pems generalizing i a with
  | nil => exact ⟨a, rfl, by simp⟩
  | cons pem pems ih =>
    rw [List.length_cons] at h
    have hi : i < a.toList.length := by rw [a.length_eq]; omega
    obtain ⟨a', h', ha'⟩ := ih (i := i + 1)
      (a := ⟨a.toList.set i pem.contents, by simp [a.length_eq]⟩) (by omega)
    refine ⟨a', by rw [fillCertArray, FixedArray.set_of_lt (by omega), ok_bind, h'], ?_⟩
    rw [ha', List.take_succ, List.set_take, List.set_eq_of_length_le (by simp),
      List.getElem?_set_self hi, List.drop_set_of_lt _ _ (by omega), List.length_cons,
      ← Nat.add_assoc, Nat.add_right_comm i 1]
    simp

/-- The extractor returns exactly when `parse_many` finds three blocks, and then their contents
    in input order. -/
theorem parseCerificationChainBytes_eq_ok {parseMany : Bytes → Option (List Pem)} {w : Bytes}
    {arr : FixedArray Bytes 3} :
    parseCerificationChainBytes parseMany w = .ok arr ↔
      ∃ pems, parseMany w = some pems ∧ pems.length = 3 ∧
        arr.toList = pems.map Pem.contents := by
  unfold parseCerificationChainBytes
  cases parseMany w with
  | none => simp [unwrap]
  | some pems =>
    simp only [unwrap, ok_bind, Option.some.injEq, exists_eq_left']
    by_cases h3 : pems.length = 3
    · obtain ⟨a, h, ha⟩ := fillCertArray_of_le (a := ⟨[[], [], []], rfl⟩)
        (by omega : 0 + pems.length ≤ 3)
      rw [h3] at ha
      simp [assertEq, h3, h, ha, FixedArray.ext_iff, eq_comm]
    · simp [assertEq, h3]

theorem parseCerificationChainBytes_of_none {parseMany : Bytes → Option (List Pem)} {w : Bytes}
    (h : parseMany w = none) :
    parseCerificationChainBytes parseMany w = .error (.unwrap "parse_many") := by
  simp [parseCerificationChainBytes, h, unwrap]

theorem parseCerificationChainBytes_of_length_ne {parseMany : Bytes → Option (List Pem)}
    {w : Bytes} {pems : List Pem} (h : parseMany w = some pems) (h3 : pems.length ≠ 3) :
    parseCerificationChainBytes parseMany w = .error (.assertEq pems.length 3 none) := by
  simp [parseCerificationChainBytes, h, unwrap, assertEq, h3]

/-- The extractor panics only at the `unwrap` of `parse_many` and at the count assertion: after
    the `assert_eq!`, no index of the loop reaches the end of the array. -/
theorem parseCerificationChainBytes_eq_error {parseMany : Bytes → Option (List Pem)} {w : Bytes}
    {e : Panic} :
    parseCerificationChainBytes parseMany w = .error e ↔
      parseMany w = none ∧ e = .unwrap "parse_many" ∨
      ∃ pems, parseMany w = some pems ∧ pems.length ≠ 3 ∧ e = .assertEq pems.length 3 none := by
  cases hw : parseMany w with
  | none => simp [parseCerificationChainBytes_of_none hw, eq_comm]
  | some pems =>
    by_cases h3 : pems.length = 3
    · have hok : parseCerificationChainBytes parseMany w =
          .ok ⟨pems.map Pem.contents, by simp [h3]⟩ :=
        parseCerificationChainBytes_eq_ok.2 ⟨pems, hw, h3, rfl⟩
      simp [hok, h3]
    · simp [parseCerificationChainBytes_of_length_ne hw h3, h3, eq_comm]

/-! ## The variable-length section -/

/-- `parse_quote_auth_data` (`sgx_register_utils.rs:162-204`), on the quote from offset 436. -/
def parseQuoteAuthData (parseMany : Bytes → Option (List Pem)) (quoteBytes : Bytes) :
    Except Panic ECDSAQuoteV3AuthData := do
  -- qeAuthData
  let parsedDataSize ← littleEndianDecode (← indexRange quoteBytes 576 578)
  let data ← indexRange quoteBytes 578 (← addChecked 578 parsedDataSize)
  -- cert
  let offset ← addChecked 578 parsedDataSize
  let certType ← littleEndianDecode (← indexRange quoteBytes offset (← addChecked offset 2))
  let offset ← addChecked offset 2
  let certDataSize ←
    littleEndianDecode (← indexRange quoteBytes offset (← addChecked offset 4))
  let offset ← addChecked offset 4
  let certData ← indexRange quoteBytes offset (← addChecked offset certDataSize)
  let decodedCertDataArray ← parseCerificationChainBytes parseMany certData
  let ecdsaSig ← indexRange quoteBytes 0 64
  let ecdsaAttestationKey ← indexRange quoteBytes 64 128
  let rawQeReport ← indexRange quoteBytes 128 512
  let pckSignedQeReport ← parseQuoteEnclaveReport rawQeReport
  let qeReportSignature ← indexRange quoteBytes 512 576
  return {
    ecdsa256BitSignature := ecdsaSig
    ecdsaAttestationKey := ecdsaAttestationKey
    pckSignedQeReport := pckSignedQeReport
    qeReportSignature := qeReportSignature
    qeAuthData := { parsedDataSize := UInt16.ofNat parsedDataSize, data := data }
    certification := {
      certType := UInt16.ofNat certType
      certDataSize := UInt32.ofNat certDataSize
      decodedCertDataArray := ← FixedArray.tryFrom 3 decodedCertDataArray.toList } }

/-- `parsed_data_size`: the little-endian value of bytes 576..578 of the section. -/
def parsedDataSizeOf (A : Bytes) : Nat := leValue (slice A 576 578)

/-- `cert_data_size`: the little-endian value of the four bytes after the QE auth data and the
    two-byte cert type. -/
def certDataSizeOf (A : Bytes) : Nat :=
  leValue (slice A (580 + parsedDataSizeOf A) (584 + parsedDataSizeOf A))

/-- `cert_data`, the window handed to the PEM parser. -/
def certDataOf (A : Bytes) : Bytes :=
  slice A (584 + parsedDataSizeOf A) (584 + parsedDataSizeOf A + certDataSizeOf A)

/-- When `parse_quote_auth_data` returns, over unbounded naturals: the fixed part is there, the
    cert type and size fit after the QE auth data, the certificate window fits after them, and
    the PEM parser splits it into three blocks. -/
structure AuthDataAccepted (parseMany : Bytes → Option (List Pem)) (A : Bytes) : Prop where
  fixed : 578 ≤ A.length
  certHeader : 584 + parsedDataSizeOf A ≤ A.length
  certData : 584 + parsedDataSizeOf A + certDataSizeOf A ≤ A.length
  threePems : ∃ pems, parseMany (certDataOf A) = some pems ∧ pems.length = 3

/-- What `parse_quote_auth_data` returns on the section `A`: every field is the window at its
    offset, and the decoded certificates are the blocks the PEM parser finds in `cert_data`. -/
structure AuthDataReadFrom (parseMany : Bytes → Option (List Pem)) (A : Bytes)
    (a : ECDSAQuoteV3AuthData) : Prop where
  ecdsa256BitSignature : a.ecdsa256BitSignature = slice A 0 64
  ecdsaAttestationKey : a.ecdsaAttestationKey = slice A 64 128
  pckSignedQeReport : a.pckSignedQeReport.WellFormed ∧
    a.pckSignedQeReport.encode = slice A 128 512
  qeReportSignature : a.qeReportSignature = slice A 512 576
  parsedDataSize : a.qeAuthData.parsedDataSize.toNat = parsedDataSizeOf A
  data : a.qeAuthData.data = slice A 578 (578 + parsedDataSizeOf A)
  certType : toLeBytes 2 a.certification.certType.toNat =
    slice A (578 + parsedDataSizeOf A) (580 + parsedDataSizeOf A)
  certDataSize : a.certification.certDataSize.toNat = certDataSizeOf A
  decodedCertDataArray : ∃ pems, parseMany (certDataOf A) = some pems ∧
    a.certification.decodedCertDataArray.toList = pems.map Pem.contents

theorem parsedDataSizeOf_lt (A : Bytes) (h : 578 ≤ A.length) : parsedDataSizeOf A < 2 ^ 16 := by
  have := leValue_lt (slice A 576 578)
  rwa [length_slice_of_le h] at this

theorem certDataSizeOf_lt (A : Bytes) (h : 584 + parsedDataSizeOf A ≤ A.length) :
    certDataSizeOf A < 2 ^ 32 := by
  have := leValue_lt (slice A (580 + parsedDataSizeOf A) (584 + parsedDataSizeOf A))
  rwa [length_slice_of_le h, Nat.add_sub_add_right] at this

/-- On an accepted section the decoder returns, and what it returns is read from the section. -/
theorem parseQuoteAuthData_of_accepted {parseMany : Bytes → Option (List Pem)} {A : Bytes}
    (h : AuthDataAccepted parseMany A) :
    ∃ a, parseQuoteAuthData parseMany A = .ok a ∧ AuthDataReadFrom parseMany A a := by
  obtain ⟨h1, h2, h3, pems, hpems, hlen⟩ := h
  have hp := parsedDataSizeOf_lt A h1
  have hc := certDataSizeOf_lt A h2
  obtain ⟨arr, harr⟩ : ∃ arr,
      parseCerificationChainBytes parseMany (certDataOf A) = .ok arr ∧
        arr.toList = pems.map Pem.contents := by
    have e : (pems.map Pem.contents).length = 3 := by simp [hlen]
    exact ⟨⟨_, e⟩, parseCerificationChainBytes_eq_ok.2 ⟨pems, hpems, hlen, rfl⟩, rfl⟩
  obtain ⟨r, hr, hrwf, hrenc⟩ :=
    parseQuoteEnclaveReport_of_le (w := slice A 128 512) (by rw [length_slice_of_le]; omega)
  unfold certDataOf certDataSizeOf parsedDataSizeOf at *
  have e2 : 578 + leValue (slice A 576 578) + 2 = 580 + leValue (slice A 576 578) := by omega
  have e4 : 580 + leValue (slice A 576 578) + 4 = 584 + leValue (slice A 576 578) := by omega
  simp (disch := omega) only [parseQuoteAuthData, indexRange_of_le, littleEndianDecode_slice,
    addChecked_of_lt, ok_bind, e2, e4]
  rw [harr.1, ok_bind, hr, ok_bind, show FixedArray.tryFrom 3 arr.toList = .ok arr from
    FixedArray.tryFrom_toList arr]
  refine ⟨_, rfl, ?_⟩
  constructor <;> simp only [parsedDataSizeOf, certDataSizeOf, certDataOf]
  · exact ⟨hrwf, hrenc.trans (List.take_of_length_le (by rw [length_slice_of_le (by omega)]))⟩
  · exact UInt16.toNat_ofNat_of_lt hp
  · exact toLeBytes_uInt16_ofNat (by rw [length_slice_of_le (by omega)]; omega)
  · exact UInt32.toNat_ofNat_of_lt hc
  · exact ⟨pems, hpems, harr.2⟩

/-! ## The panics -/

/-- The panic `parse_quote_auth_data` stops with on the section `A`, if any: the first check the
    section fails, in the order the code makes them. Every one is a bounds check of a slice or
    one of the two checks of the certificate chain; none is an arithmetic overflow. -/
def authDataPanic (parseMany : Bytes → Option (List Pem)) (A : Bytes) : Option Panic :=
  if A.length < 578 then some (.sliceEndIndexLen 578 A.length)
  else if A.length < 578 + parsedDataSizeOf A then
    some (.sliceEndIndexLen (578 + parsedDataSizeOf A) A.length)
  else if A.length < 580 + parsedDataSizeOf A then
    some (.sliceEndIndexLen (580 + parsedDataSizeOf A) A.length)
  else if A.length < 584 + parsedDataSizeOf A then
    some (.sliceEndIndexLen (584 + parsedDataSizeOf A) A.length)
  else if A.length < 584 + parsedDataSizeOf A + certDataSizeOf A then
    some (.sliceEndIndexLen (584 + parsedDataSizeOf A + certDataSizeOf A) A.length)
  else match parseMany (certDataOf A) with
    | none => some (.unwrap "parse_many")
    | some pems => if pems.length = 3 then none else some (.assertEq pems.length 3 none)

theorem authDataPanic_eq_none {parseMany : Bytes → Option (List Pem)} {A : Bytes} :
    authDataPanic parseMany A = none ↔ AuthDataAccepted parseMany A := by
  unfold authDataPanic
  constructor
  · intro h
    split_ifs at h with h1 h2 h3 h4 h5
    split at h
    · cases h
    · rename_i pems hpems
      split_ifs at h with h6
      exact ⟨by omega, by omega, by omega, pems, hpems, h6⟩
  · rintro ⟨h1, h2, h3, pems, hpems, h6⟩
    simp [Nat.not_lt.mpr h1, Nat.not_lt.mpr h2, Nat.not_lt.mpr h3, hpems, h6,
      show ¬ A.length < 578 + parsedDataSizeOf A by omega,
      show ¬ A.length < 580 + parsedDataSizeOf A by omega]

/-- On a section that fails a check, the decoder stops with that check's panic. The checks are
    taken in the code's order: each one passed gives its value, the first one failed its panic. -/
theorem parseQuoteAuthData_of_panic {parseMany : Bytes → Option (List Pem)} {A : Bytes}
    {e : Panic} (h : authDataPanic parseMany A = some e) :
    parseQuoteAuthData parseMany A = .error e := by
  unfold authDataPanic certDataOf certDataSizeOf parsedDataSizeOf at h
  unfold parseQuoteAuthData
  -- `parsed_data_size`
  by_cases h1 : A.length < 578
  · rw [if_pos h1] at h; cases h
    rw [indexRange_of_lt h1 (by omega : 576 ≤ 578), error_bind]
  rw [if_neg h1] at h
  have hp := parsedDataSizeOf_lt A (by omega)
  unfold parsedDataSizeOf at hp
  generalize hP : leValue (slice A 576 578) = p at h hp
  simp only [indexRange_of_le (by omega : 576 ≤ 578) (by omega : 578 ≤ A.length), ok_bind,
    littleEndianDecode_slice (by omega : 578 ≤ A.length) (by omega : 578 - 576 ≤ 8), hP,
    addChecked_of_lt (by omega : 578 + p < 2 ^ 64)]
  -- `data`
  by_cases h2 : A.length < 578 + p
  · rw [if_pos h2] at h; cases h
    rw [indexRange_of_lt h2 (by omega : 578 ≤ 578 + p), error_bind]
  rw [if_neg h2] at h
  simp only [indexRange_of_le (by omega : 578 ≤ 578 + p) (by omega : 578 + p ≤ A.length), ok_bind,
    addChecked_of_lt (by omega : 578 + p + 2 < 2 ^ 64), show 578 + p + 2 = 580 + p by omega]
  -- `cert_type`
  by_cases h3 : A.length < 580 + p
  · rw [if_pos h3] at h; cases h
    rw [indexRange_of_lt h3 (by omega : 578 + p ≤ 580 + p), error_bind]
  rw [if_neg h3] at h
  simp only [indexRange_of_le (by omega : 578 + p ≤ 580 + p) (by omega : 580 + p ≤ A.length),
    ok_bind, littleEndianDecode_slice (by omega : 580 + p ≤ A.length)
      (by omega : 580 + p - (578 + p) ≤ 8),
    addChecked_of_lt (by omega : 580 + p + 4 < 2 ^ 64), show 580 + p + 4 = 584 + p by omega]
  -- `cert_data_size`
  by_cases h4 : A.length < 584 + p
  · rw [if_pos h4] at h; cases h
    rw [indexRange_of_lt h4 (by omega : 580 + p ≤ 584 + p), error_bind]
  rw [if_neg h4] at h
  have hc := leValue_lt (slice A (580 + p) (584 + p))
  rw [length_slice_of_le (by omega), show 584 + p - (580 + p) = 4 by omega] at hc
  generalize hC : leValue (slice A (580 + p) (584 + p)) = c at h hc
  simp only [indexRange_of_le (by omega : 580 + p ≤ 584 + p) (by omega : 584 + p ≤ A.length),
    ok_bind, littleEndianDecode_slice (by omega : 584 + p ≤ A.length)
      (by omega : 584 + p - (580 + p) ≤ 8), hC,
    addChecked_of_lt (by omega : 584 + p + c < 2 ^ 64)]
  -- `cert_data` and the certificate chain
  by_cases h5 : A.length < 584 + p + c
  · rw [if_pos h5] at h; cases h
    rw [indexRange_of_lt h5 (by omega : 584 + p ≤ 584 + p + c), error_bind]
  rw [if_neg h5] at h
  rw [indexRange_of_le (by omega : 584 + p ≤ 584 + p + c) (by omega : 584 + p + c ≤ A.length),
    ok_bind]
  split at h
  · rename_i hpm
    cases h
    rw [parseCerificationChainBytes_of_none hpm, error_bind]
  · rename_i pems hpm
    split_ifs at h with h6
    cases h
    rw [parseCerificationChainBytes_of_length_ne hpm h6, error_bind]

theorem authDataPanic_ne_overflow (parseMany : Bytes → Option (List Pem)) (A : Bytes)
    (op : String) : authDataPanic parseMany A ≠ some (.overflow op) := by
  unfold authDataPanic
  split_ifs <;> try split
  all_goals try split_ifs
  all_goals simp

/-! ## Acceptance -/

/-- A section the decoder returns on is accepted: on any other, one of its checks panics. -/
theorem accepted_of_parseQuoteAuthData {parseMany : Bytes → Option (List Pem)} {A : Bytes}
    {a : ECDSAQuoteV3AuthData} (h : parseQuoteAuthData parseMany A = .ok a) :
    AuthDataAccepted parseMany A := by
  refine authDataPanic_eq_none.1 ?_
  cases hpanic : authDataPanic parseMany A with
  | none => rfl
  | some e => rw [parseQuoteAuthData_of_panic hpanic] at h; cases h

/-- Whatever `parse_quote_auth_data` returns is read from the section. -/
theorem readFrom_of_parseQuoteAuthData {parseMany : Bytes → Option (List Pem)} {A : Bytes}
    {a : ECDSAQuoteV3AuthData} (h : parseQuoteAuthData parseMany A = .ok a) :
    AuthDataReadFrom parseMany A a := by
  obtain ⟨a', h', hread⟩ := parseQuoteAuthData_of_accepted (accepted_of_parseQuoteAuthData h)
  cases h.symm.trans h'
  exact hread

end SgxQuote
