import SgxQuote.Layout

/-!
# The fixed-width sections: header and enclave report

`parse_quote_header` (`sgx_register_utils.rs:99-118`) and `parse_quote_enclave_report`
(`sgx_register_utils.rs:120-150`) cut fixed windows out of the slice they are given and copy
them into the struct fields. Their `Result`s are always `Ok`: they fail only by panicking, and
the `unwrap`s of their callers never fire.

Each decoder gets one lemma for the slices it accepts, which says that the value it returns
re-encodes to the window it was read from, and the header one lemma for the slices it rejects.
From them, each decoder is characterised by the layout of `Layout.lean`: it returns a value
exactly on that value's bytes followed by bytes it never reads (`parseQuoteHeader_eq_ok`,
`parseQuoteEnclaveReport_eq_ok`).
-/

namespace SgxQuote

/-- `parse_quote_header` (`sgx_register_utils.rs:99-118`). -/
def parseQuoteHeader (quoteBytes : Bytes) : Except Panic Header := do
  assert (quoteBytes.length > 48) "quote bytes should be at least 48"
  let version ← indexRange quoteBytes 0 2
  let attestationKeyType ← indexRange quoteBytes 2 4
  let teeType ← indexRange quoteBytes 4 8
  let qeSvn ← indexRange quoteBytes 8 10
  let pceSvn ← indexRange quoteBytes 10 12
  let qeVendorId ← indexRange quoteBytes 12 28
  let userData ← indexRange quoteBytes 28 48
  return {
    version := ← FixedArray.fromSlice 2 version
    attestationKeyType := ← FixedArray.fromSlice 2 attestationKeyType
    teeType := ← FixedArray.fromSlice 4 teeType
    qeSvn := ← FixedArray.fromSlice 2 qeSvn
    pceSvn := ← FixedArray.fromSlice 2 pceSvn
    qeVendorId := ← FixedArray.fromSlice 16 qeVendorId
    userData := ← FixedArray.fromSlice 20 userData }

/-- `parse_quote_enclave_report` (`sgx_register_utils.rs:120-150`). -/
def parseQuoteEnclaveReport (enclaveReportBytes : Bytes) : Except Panic EnclaveReport := do
  let cpuSvn ← indexRange enclaveReportBytes 0 16
  let miscSelect ← indexRange enclaveReportBytes 16 20
  let reserved1 ← indexRange enclaveReportBytes 20 48
  let attributes ← indexRange enclaveReportBytes 48 64
  let mrEnclave ← indexRange enclaveReportBytes 64 96
  let reserved2 ← indexRange enclaveReportBytes 96 128
  let mrSigner ← indexRange enclaveReportBytes 128 160
  let reserved3 ← indexRange enclaveReportBytes 160 256
  let isvProdId ← indexRange enclaveReportBytes 256 258
  let isvSvn ← indexRange enclaveReportBytes 258 260
  let reserved4 ← indexRange enclaveReportBytes 260 320
  let reportData ← indexRange enclaveReportBytes 320 384
  return {
    cpuSvn := ← FixedArray.fromSlice 16 cpuSvn
    miscSelect := ← FixedArray.fromSlice 4 miscSelect
    reserved1 := ← FixedArray.fromSlice 28 reserved1
    attributes := ← FixedArray.fromSlice 16 attributes
    mrEnclave := ← FixedArray.fromSlice 32 mrEnclave
    reserved2 := ← FixedArray.fromSlice 32 reserved2
    mrSigner := ← FixedArray.fromSlice 32 mrSigner
    reserved3 := reserved3
    isvProdId := UInt16.ofNat (← littleEndianDecode isvProdId)
    isvSvn := UInt16.ofNat (← littleEndianDecode isvSvn)
    reserved4 := reserved4
    reportData := reportData }

/-- A window of a long enough slice copies into `FixedBytes` of its width. -/
theorem fromSlice_slice {s : Bytes} {lo hi n : Nat} (h : hi ≤ s.length) (hn : hi - lo = n) :
    FixedArray.fromSlice n (slice s lo hi) =
      .ok ⟨slice s lo hi, by rw [length_slice_of_le h, hn]⟩ :=
  FixedArray.fromSlice_of_length _

theorem littleEndianDecode_slice {s : Bytes} {lo hi : Nat} (h : hi ≤ s.length)
    (h8 : hi - lo ≤ 8) :
    littleEndianDecode (slice s lo hi) = .ok (leValue (slice s lo hi)) :=
  littleEndianDecode_of_le (by rw [length_slice_of_le h]; exact h8)

/-- On more than 48 bytes the header decoder returns the header its first 48 bytes encode. -/
theorem parseQuoteHeader_of_lt {b : Bytes} (h : 48 < b.length) :
    ∃ hd, parseQuoteHeader b = .ok hd ∧ hd.encode = b.take 48 := by
  simp (disch := omega) only [parseQuoteHeader, assert, if_pos h, ok_bind, indexRange_of_le,
    fromSlice_slice]
  refine ⟨_, rfl, ?_⟩
  simp (disch := omega) only [Header.encode, slice_append_slice]
  exact slice_zero b 48

/-- The header decoder panics on 48 bytes or fewer, although its message asks for at least 48. -/
theorem parseQuoteHeader_of_le {b : Bytes} (h : b.length ≤ 48) :
    parseQuoteHeader b = .error (.assertion "quote bytes should be at least 48") := by
  simp [parseQuoteHeader, assert, Nat.not_lt.mpr h]

/-- On at least 384 bytes the report decoder returns a well-formed report that encodes the first
    384 bytes. -/
theorem parseQuoteEnclaveReport_of_le {w : Bytes} (h : 384 ≤ w.length) :
    ∃ r, parseQuoteEnclaveReport w = .ok r ∧ r.WellFormed ∧ r.encode = w.take 384 := by
  simp (disch := omega) only [parseQuoteEnclaveReport, indexRange_of_le, ok_bind, fromSlice_slice,
    littleEndianDecode_slice]
  refine ⟨_, rfl, ⟨?_, ?_, ?_⟩, ?_⟩
  · exact length_slice_of_le (by omega)
  · exact length_slice_of_le (by omega)
  · exact length_slice_of_le (by omega)
  · simp (disch := first | omega | exact length_slice_of_le (by omega)) only
      [EnclaveReport.encode, toLeBytes_uInt16_ofNat, slice_append_slice]
    exact slice_zero w 384

/-! ## The decoders invert the layout -/

/-- The report decoder returns only on at least 384 bytes: its last window ends there. -/
theorem le_length_of_parseQuoteEnclaveReport {w : Bytes} {r : EnclaveReport}
    (h : parseQuoteEnclaveReport w = .ok r) : 384 ≤ w.length := by
  by_contra hlt
  simp only [parseQuoteEnclaveReport, bind_eq_ok] at h
  obtain ⟨_, -, _, -, _, -, _, -, _, -, _, -, _, -, _, -, _, -, _, -, _, -, _, h12, -⟩ := h
  rw [indexRange_of_lt (by omega : w.length < 384) (by omega : 320 ≤ 384)] at h12
  cases h12

/-- `parse_quote_header` returns `h` exactly on the 48 bytes of `h` followed by at least one more
    byte: its assertion asks for more than 48 bytes, and nothing after byte 48 is read. -/
theorem parseQuoteHeader_eq_ok {b : Bytes} {h : Header} :
    parseQuoteHeader b = .ok h ↔ ∃ rest, rest ≠ [] ∧ b = h.encode ++ rest := by
  constructor
  · intro hb
    have hl : 48 < b.length := by
      by_contra hl
      rw [parseQuoteHeader_of_le (by omega)] at hb
      cases hb
    obtain ⟨hd, hhd, henc⟩ := parseQuoteHeader_of_lt hl
    cases hb.symm.trans hhd
    exact ⟨b.drop 48, List.length_pos.1 (by rw [List.length_drop]; omega),
      by rw [henc, List.take_append_drop]⟩
  · rintro ⟨rest, hrest, rfl⟩
    obtain ⟨hd, hhd, henc⟩ := parseQuoteHeader_of_lt (b := h.encode ++ rest)
      (by simpa [Header.length_encode] using List.length_pos.2 hrest)
    rw [hhd, Header.encode_injective (henc.trans (List.take_left' (Header.length_encode h)))]

/-- `parse_quote_enclave_report` returns `r` exactly on the 384 bytes of a well-formed `r`
    followed by any bytes: nothing after byte 384 is read. -/
theorem parseQuoteEnclaveReport_eq_ok {w : Bytes} {r : EnclaveReport} :
    parseQuoteEnclaveReport w = .ok r ↔ r.WellFormed ∧ ∃ rest, w = r.encode ++ rest := by
  constructor
  · intro hw
    obtain ⟨r', hr', hwf, henc⟩ :=
      parseQuoteEnclaveReport_of_le (le_length_of_parseQuoteEnclaveReport hw)
    cases hw.symm.trans hr'
    exact ⟨hwf, w.drop 384, by rw [henc, List.take_append_drop]⟩
  · rintro ⟨hwf, rest, rfl⟩
    have hr := EnclaveReport.length_encode hwf
    obtain ⟨r', hr', hwf', henc⟩ :=
      parseQuoteEnclaveReport_of_le (w := r.encode ++ rest) (by simp [hr])
    rw [hr', EnclaveReport.encode_injective hwf' hwf (henc.trans (List.take_left' hr))]

end SgxQuote
