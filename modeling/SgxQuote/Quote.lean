import SgxQuote.AuthData

/-!
# `parse_quote`

`parse_quote` (`sgx_register_utils.rs:206-225`) hex-decodes the quote string, reads the header
and the local enclave report from the fixed part, checks the self-declared length of the
authentication data at bytes 432..436 against what is left after byte 436, and hands that rest
to `parse_quote_auth_data`. `parseQuoteBytes` is its body after the hex decoding.

`QuoteAccepted` is the acceptance condition over unbounded naturals, and
`parseQuote_ok_iff` the theorem that `parse_quote` returns exactly on it. What it returns is
`QuoteReadFrom`: each field of the result encodes the window of the input it was read from.
-/

namespace SgxQuote

/-- The body of `parse_quote` (`sgx_register_utils.rs:208-224`), on the decoded quote bytes. -/
def parseQuoteBytes (parseMany : Bytes → Option (List Pem)) (quoteBytes : Bytes) :
    Except Panic ParsedV3QuoteStruct := do
  let header ← parseQuoteHeader quoteBytes
  let localEnclaveReport ← parseQuoteEnclaveReport (← indexRange quoteBytes 48 432)
  let localAuthDataSize ← littleEndianDecode (← indexRange quoteBytes 432 436)
  assertEq (← subChecked quoteBytes.length 436) localAuthDataSize (some "quote length mismatch")
  let v3AuthData ← parseQuoteAuthData parseMany (← indexFrom quoteBytes 436)
  return { header, localEnclaveReport, v3AuthData }

/-- `parse_quote` (`sgx_register_utils.rs:206-225`). -/
def parseQuote (libs : Libs) (quoteStr : String) : Except Panic ParsedV3QuoteStruct := do
  let quoteBytes ← unwrap "hex::decode" (libs.hexDecode quoteStr)
  parseQuoteBytes libs.parseMany quoteBytes

/-- When the body of `parse_quote` returns on the bytes `B`: the fixed part is there, the
    declared auth-data size is what is left after byte 436, and the rest is an accepted
    authentication-data section. -/
structure QuoteBytesAccepted (parseMany : Bytes → Option (List Pem)) (B : Bytes) : Prop where
  length : 436 ≤ B.length
  authDataSize : leValue (slice B 432 436) = B.length - 436
  authData : AuthDataAccepted parseMany (B.drop 436)

/-- What the body of `parse_quote` returns on `B`: the header and the local report encode
    their windows, and the authentication data is read from the rest. -/
structure QuoteReadFrom (parseMany : Bytes → Option (List Pem)) (B : Bytes)
    (q : ParsedV3QuoteStruct) : Prop where
  header : q.header.encode = slice B 0 48
  localEnclaveReport : q.localEnclaveReport.WellFormed ∧
    q.localEnclaveReport.encode = slice B 48 432
  v3AuthData : AuthDataReadFrom parseMany (B.drop 436) q.v3AuthData

theorem parseQuoteBytes_of_accepted {parseMany : Bytes → Option (List Pem)} {B : Bytes}
    (h : QuoteBytesAccepted parseMany B) :
    ∃ q, parseQuoteBytes parseMany B = .ok q ∧ QuoteReadFrom parseMany B q := by
  obtain ⟨hlen, hsize, hauth⟩ := h
  have hauth' := hauth.fixed
  rw [List.length_drop] at hauth'
  obtain ⟨hd, hhd, hhdenc⟩ := parseQuoteHeader_of_lt (b := B) (by omega)
  obtain ⟨r, hr, hrwf, hrenc⟩ :=
    parseQuoteEnclaveReport_of_le (w := slice B 48 432) (by rw [length_slice_of_le]; omega)
  obtain ⟨a, ha, hread⟩ := parseQuoteAuthData_of_accepted hauth
  simp (disch := omega) only [parseQuoteBytes, hhd, indexRange_of_le, ok_bind, hr,
    littleEndianDecode_slice, subChecked_of_le, indexFrom_of_le, ha]
  rw [hsize, assertEq, if_pos rfl, ok_bind]
  refine ⟨_, rfl, ?_, ⟨hrwf, ?_⟩, hread⟩
  · rw [hhdenc, slice_zero]
  · rw [hrenc, List.take_of_length_le (by rw [length_slice_of_le (by omega)])]

theorem parseQuote_eq_ok {libs : Libs} {s : String} {q : ParsedV3QuoteStruct} :
    parseQuote libs s = .ok q ↔
      ∃ B, libs.hexDecode s = some B ∧ parseQuoteBytes libs.parseMany B = .ok q := by
  simp only [parseQuote, bind_eq_ok, unwrap_eq_ok]

/-! ## The panics -/

/-- The panic the body of `parse_quote` stops with on `B`, if any: the first check `B` fails,
    in the order the code makes them. -/
def quoteBytesPanic (parseMany : Bytes → Option (List Pem)) (B : Bytes) : Option Panic :=
  if B.length ≤ 48 then some (.assertion "quote bytes should be at least 48")
  else if B.length < 432 then some (.sliceEndIndexLen 432 B.length)
  else if B.length < 436 then some (.sliceEndIndexLen 436 B.length)
  else if B.length - 436 ≠ leValue (slice B 432 436) then
    some (.assertEq (B.length - 436) (leValue (slice B 432 436)) (some "quote length mismatch"))
  else authDataPanic parseMany (B.drop 436)

/-- The panic `parse_quote` stops with on `s`, if any. -/
def quotePanic (libs : Libs) (s : String) : Option Panic :=
  match libs.hexDecode s with
  | none => some (.unwrap "hex::decode")
  | some B => quoteBytesPanic libs.parseMany B

theorem parseQuoteBytes_of_panic {parseMany : Bytes → Option (List Pem)} {B : Bytes} {e : Panic}
    (h : quoteBytesPanic parseMany B = some e) : parseQuoteBytes parseMany B = .error e := by
  unfold quoteBytesPanic at h
  split_ifs at h with h1 h2 h3 h4
  · obtain rfl := Option.some.inj h
    rw [parseQuoteBytes, parseQuoteHeader_of_le h1, error_bind]
  all_goals obtain ⟨hd, hhd, -⟩ := parseQuoteHeader_of_lt (b := B) (by omega)
  · obtain rfl := Option.some.inj h
    simp (disch := omega) only [parseQuoteBytes, hhd, ok_bind, indexRange_of_lt, error_bind]
  all_goals obtain ⟨r, hr, -⟩ :=
    parseQuoteEnclaveReport_of_le (w := slice B 48 432) (by rw [length_slice_of_le]; omega)
  · obtain rfl := Option.some.inj h
    simp (disch := omega) only [parseQuoteBytes, hhd, ok_bind, indexRange_of_le, hr,
      indexRange_of_lt, error_bind]
  · obtain rfl := Option.some.inj h
    simp (disch := omega) only [parseQuoteBytes, hhd, ok_bind, indexRange_of_le, hr,
      littleEndianDecode_slice, subChecked_of_le]
    rw [assertEq, if_neg h4, error_bind]
  · simp (disch := omega) only [parseQuoteBytes, hhd, ok_bind, indexRange_of_le, hr,
      littleEndianDecode_slice, subChecked_of_le, indexFrom_of_le]
    rw [assertEq, if_pos (not_not.1 h4), ok_bind, parseQuoteAuthData_of_panic h, error_bind]

theorem quoteBytesPanic_eq_none {parseMany : Bytes → Option (List Pem)} {B : Bytes} :
    quoteBytesPanic parseMany B = none ↔ QuoteBytesAccepted parseMany B := by
  unfold quoteBytesPanic
  constructor
  · intro h
    split_ifs at h with h1 h2 h3 h4
    exact ⟨by omega, (not_not.1 h4).symm, authDataPanic_eq_none.1 h⟩
  · rintro ⟨h1, h2, h3⟩
    rw [if_neg (by omega), if_neg (by omega), if_neg (by omega), if_neg (not_not.2 h2.symm),
      authDataPanic_eq_none.2 h3]

/-- The body of `parse_quote` stops exactly with the panic of the first check `B` fails. -/
theorem parseQuoteBytes_eq_error {parseMany : Bytes → Option (List Pem)} {B : Bytes}
    {e : Panic} :
    parseQuoteBytes parseMany B = .error e ↔ quoteBytesPanic parseMany B = some e := by
  cases hpanic : quoteBytesPanic parseMany B with
  | none =>
    obtain ⟨q, hq, -⟩ := parseQuoteBytes_of_accepted (quoteBytesPanic_eq_none.1 hpanic)
    simp [hq]
  | some e' => simp [parseQuoteBytes_of_panic hpanic]

theorem quoteBytesPanic_ne_overflow (parseMany : Bytes → Option (List Pem)) (B : Bytes)
    (op : String) : quoteBytesPanic parseMany B ≠ some (.overflow op) := by
  unfold quoteBytesPanic
  split_ifs
  all_goals first | exact authDataPanic_ne_overflow parseMany _ op | simp

/-! ## Acceptance -/

/-- Bytes the body returns on are accepted: on any other, one of its checks panics. -/
theorem accepted_of_parseQuoteBytes {parseMany : Bytes → Option (List Pem)} {B : Bytes}
    {q : ParsedV3QuoteStruct} (h : parseQuoteBytes parseMany B = .ok q) :
    QuoteBytesAccepted parseMany B := by
  refine quoteBytesPanic_eq_none.1 ?_
  cases hpanic : quoteBytesPanic parseMany B with
  | none => rfl
  | some e => rw [parseQuoteBytes_of_panic hpanic] at h; cases h

theorem readFrom_of_parseQuoteBytes {parseMany : Bytes → Option (List Pem)} {B : Bytes}
    {q : ParsedV3QuoteStruct} (h : parseQuoteBytes parseMany B = .ok q) :
    QuoteReadFrom parseMany B q := by
  obtain ⟨q', h', hread⟩ := parseQuoteBytes_of_accepted (accepted_of_parseQuoteBytes h)
  cases h.symm.trans h'
  exact hread

/-! ## `parse_quote` -/

/-- The condition under which `parse_quote` returns on `s`, over unbounded naturals: `s`
    hex-decodes to `B`, `|B| ≥ 436`, the length field at 432..436 reads `|B| - 436`, and in the
    rest `A` the fixed part, the cert type and size after the `p` bytes of QE auth data and the
    `c`-byte certificate window all fit, and the PEM parser splits that window into exactly
    three blocks. -/
def QuoteAccepted (libs : Libs) (s : String) : Prop :=
  ∃ B, libs.hexDecode s = some B ∧ 436 ≤ B.length ∧
    leValue (slice B 432 436) = B.length - 436 ∧
    let A := B.drop 436
    let p := leValue (slice A 576 578)
    let c := leValue (slice A (580 + p) (584 + p))
    578 ≤ A.length ∧ 584 + p ≤ A.length ∧ 584 + p + c ≤ A.length ∧
      ∃ pems, libs.parseMany (slice A (584 + p) (584 + p + c)) = some pems ∧ pems.length = 3

/-- `parse_quote` returns exactly on the accepted strings. On every other string it panics, and
    never by an arithmetic overflow: the subtraction `|B| - 436` is reached only when
    `|B| ≥ 436`, and no cursor sum leaves `u64`. Each rejected input's panic is the bounds check
    of a slice, an assertion or an `unwrap`, so no slice is read past the end of `B`. -/
theorem parseQuote_ok_iff (libs : Libs) (s : String) :
    ((∃ q, parseQuote libs s = .ok q) ↔ QuoteAccepted libs s) ∧
      ∀ op, parseQuote libs s ≠ .error (.overflow op) := by
  refine ⟨⟨?_, ?_⟩, ?_⟩
  · rintro ⟨q, h⟩
    obtain ⟨B, hB, hq⟩ := parseQuote_eq_ok.1 h
    obtain ⟨h1, h2, h3, h4, h5, h6⟩ := accepted_of_parseQuoteBytes hq
    exact ⟨B, hB, h1, h2, h3, h4, h5, h6⟩
  · rintro ⟨B, hB, h1, h2, h3, h4, h5, h6⟩
    obtain ⟨q, hq, -⟩ := parseQuoteBytes_of_accepted ⟨h1, h2, h3, h4, h5, h6⟩
    exact ⟨q, parseQuote_eq_ok.2 ⟨B, hB, hq⟩⟩
  · intro op h
    cases hB : libs.hexDecode s with
    | none => simp [parseQuote, hB, unwrap] at h
    | some B =>
      rw [parseQuote, hB, unwrap, ok_bind, parseQuoteBytes_eq_error] at h
      exact quoteBytesPanic_ne_overflow _ B op h

/-- `parse_quote` stops exactly with the panic of the first check its input fails, in the order
    the code makes them: the hex decoding, the header's length assertion, the bounds of the fixed
    slices, the length field, then the checks of the authentication data. -/
theorem parseQuote_eq_error {libs : Libs} {s : String} {e : Panic} :
    parseQuote libs s = .error e ↔ quotePanic libs s = some e := by
  unfold parseQuote quotePanic
  cases libs.hexDecode s with
  | none => simp [unwrap]
  | some B => rw [unwrap, ok_bind, parseQuoteBytes_eq_error]

end SgxQuote
