import SgxQuote.Quote
import SgxQuote.Hex

/-!
# The decoder inverts the layout

What the decoder reads determines the quote (`QuoteReadFrom.unique`), every accepted input is the
layout of what is read from it (`encodeQuote_of_readFrom`), and the layout of a well-formed quote
is accepted and read back (`quote_encode`). Together they characterise `parse_quote`
(`sgx_register_utils.rs:206-225`) by the layout of `Layout.lean`: `parseQuoteBytes_eq_ok_iff`,
the body returns `q` on `B` exactly when `q` is well-formed and `B` is
`encodeQuote q certData rest` for a certificate window the PEM parser splits into `q`'s
certificates. `parseQuote_reserialises` reads each field of the result back as its window.

The result fixes every byte of its input but the length field, the text of the certificate
window and what follows it (`parseQuoteBytes_same_result`). The values are checked nowhere: any
432 bytes stand as header and local report (`parseQuoteBytes_replace_fixed`), and the section
decoder reads nothing past the certificate window (`parseQuoteAuthData_reads_prefix`). So a
quote with bytes appended there, its length field raised to match, is accepted with the same
result (`parseQuote_accepts_trailing`), while a change of length alone is caught by the length
check (`parseQuoteBytes_length_changed`). The witnesses run the decoder on a small quote built
from the layout and hex-encoded.
-/

namespace SgxQuote

/-! ## What the decoder reads determines the result -/

theorem AuthDataReadFrom.unique {parseMany : Bytes → Option (List Pem)} {A : Bytes}
    {a a' : ECDSAQuoteV3AuthData} (h : AuthDataReadFrom parseMany A a)
    (h' : AuthDataReadFrom parseMany A a') : a = a' := by
  obtain ⟨pems, hpems, hcerts⟩ := h.decodedCertDataArray
  obtain ⟨pems', hpems', hcerts'⟩ := h'.decodedCertDataArray
  cases Option.some.inj (hpems.symm.trans hpems')
  obtain ⟨sig, key, rep, qeSig, ⟨pds, data⟩, ⟨ct, cds, arr⟩⟩ := a
  obtain ⟨sig', key', rep', qeSig', ⟨pds', data'⟩, ⟨ct', cds', arr'⟩⟩ := a'
  simp only [ECDSAQuoteV3AuthData.mk.injEq, QEAuthData.mk.injEq, CertificationData.mk.injEq]
  exact ⟨h.ecdsa256BitSignature.trans h'.ecdsa256BitSignature.symm,
    h.ecdsaAttestationKey.trans h'.ecdsaAttestationKey.symm,
    EnclaveReport.encode_injective h.pckSignedQeReport.1 h'.pckSignedQeReport.1
      (h.pckSignedQeReport.2.trans h'.pckSignedQeReport.2.symm),
    h.qeReportSignature.trans h'.qeReportSignature.symm,
    ⟨UInt16.toNat.inj (h.parsedDataSize.trans h'.parsedDataSize.symm),
      h.data.trans h'.data.symm⟩,
    toLeBytes_uInt16_inj (h.certType.trans h'.certType.symm),
    UInt32.toNat.inj (h.certDataSize.trans h'.certDataSize.symm),
    FixedArray.ext (hcerts.trans hcerts'.symm)⟩

theorem QuoteReadFrom.unique {parseMany : Bytes → Option (List Pem)} {B : Bytes}
    {q q' : ParsedV3QuoteStruct} (h : QuoteReadFrom parseMany B q)
    (h' : QuoteReadFrom parseMany B q') : q = q' := by
  obtain ⟨hd, r, a⟩ := q
  obtain ⟨hd', r', a'⟩ := q'
  simp only [ParsedV3QuoteStruct.mk.injEq]
  exact ⟨Header.encode_injective (h.header.trans h'.header.symm),
    EnclaveReport.encode_injective h.localEnclaveReport.1 h'.localEnclaveReport.1
      (h.localEnclaveReport.2.trans h'.localEnclaveReport.2.symm),
    h.v3AuthData.unique h'.v3AuthData⟩

/-- The section decoder returns `a` on `A` exactly when `A` is accepted and `a` is what it
    reads. -/
theorem parseQuoteAuthData_eq_ok_of_readFrom {parseMany : Bytes → Option (List Pem)} {A : Bytes}
    {a : ECDSAQuoteV3AuthData} (hA : AuthDataAccepted parseMany A)
    (ha : AuthDataReadFrom parseMany A a) : parseQuoteAuthData parseMany A = .ok a := by
  obtain ⟨a', h', hread⟩ := parseQuoteAuthData_of_accepted hA
  rw [h', hread.unique ha]

/-- The decoder returns `q` on `B` exactly when `B` is accepted and `q` is what it reads. -/
theorem parseQuoteBytes_eq_ok_of_readFrom {parseMany : Bytes → Option (List Pem)} {B : Bytes}
    {q : ParsedV3QuoteStruct} (hB : QuoteBytesAccepted parseMany B)
    (hq : QuoteReadFrom parseMany B q) : parseQuoteBytes parseMany B = .ok q := by
  obtain ⟨q', h', hread⟩ := parseQuoteBytes_of_accepted hB
  rw [h', hread.unique hq]

/-- Every section the decoder returns is well-formed. -/
theorem AuthDataReadFrom.wellFormed {parseMany : Bytes → Option (List Pem)} {A : Bytes}
    {a : ECDSAQuoteV3AuthData} (hA : AuthDataAccepted parseMany A)
    (h : AuthDataReadFrom parseMany A a) : a.WellFormed := by
  have h2 := hA.certHeader
  refine ⟨?_, ?_, h.pckSignedQeReport.1, ?_, ?_⟩
  · rw [h.ecdsa256BitSignature, length_slice_of_le (by omega)]
  · rw [h.ecdsaAttestationKey, length_slice_of_le (by omega)]
  · rw [h.qeReportSignature, length_slice_of_le (by omega)]
  · rw [h.data, h.parsedDataSize, length_slice_of_le (by omega)]
    omega

/-- Every quote the decoder returns is well-formed. -/
theorem QuoteReadFrom.wellFormed {parseMany : Bytes → Option (List Pem)} {B : Bytes}
    {q : ParsedV3QuoteStruct} (hB : QuoteBytesAccepted parseMany B)
    (h : QuoteReadFrom parseMany B q) : q.WellFormed :=
  ⟨h.localEnclaveReport.1, h.v3AuthData.wellFormed hB.authData⟩

/-! ## The layout is accepted and read back -/

section Encoding

variable {parseMany : Bytes → Option (List Pem)} {a : ECDSAQuoteV3AuthData}
  {certData rest : Bytes}

/-- Each window the decoder reads from an encoded section is the field encoded there. -/
theorem slices_encode (certData rest : Bytes) (ha : a.WellFormed) :
    let A := a.encode ++ certData ++ rest
    let p := a.qeAuthData.parsedDataSize.toNat
    slice A 0 64 = a.ecdsa256BitSignature ∧ slice A 64 128 = a.ecdsaAttestationKey ∧
      slice A 128 512 = a.pckSignedQeReport.encode ∧ slice A 512 576 = a.qeReportSignature ∧
      slice A 576 578 = toLeBytes 2 p ∧ slice A 578 (578 + p) = a.qeAuthData.data ∧
      slice A (578 + p) (580 + p) = toLeBytes 2 a.certification.certType.toNat ∧
      slice A (580 + p) (584 + p) = toLeBytes 4 a.certification.certDataSize.toNat ∧
      slice A (584 + p) (584 + p + certData.length) = certData := by
  have hr := EnclaveReport.length_encode ha.pckSignedQeReport
  have hs := ha.ecdsa256BitSignature
  have hk := ha.ecdsaAttestationKey
  have hq := ha.qeReportSignature
  have hd := ha.data
  simp (disch := (first
      | omega
      | (simp only [List.length_append, length_toLeBytes, hr, hs, hk, hq, hd]; omega)
      | (simp only [List.length_append, length_toLeBytes, hr, hs, hk, hq, hd]; done)
      | fail))
    only [ECDSAQuoteV3AuthData.encode, slice_append_left, slice_append_right, slice_eq_self,
      and_self]

theorem parsedDataSizeOf_encode (ha : a.WellFormed) :
    parsedDataSizeOf (a.encode ++ certData ++ rest) = a.qeAuthData.parsedDataSize.toNat := by
  rw [parsedDataSizeOf, (slices_encode certData rest ha).2.2.2.2.1,
    leValue_toLeBytes_of_lt (w := 2) a.qeAuthData.parsedDataSize.toNat_lt_size]

theorem certDataSizeOf_encode (ha : a.WellFormed) :
    certDataSizeOf (a.encode ++ certData ++ rest) = a.certification.certDataSize.toNat := by
  rw [certDataSizeOf, parsedDataSizeOf_encode ha, (slices_encode certData rest ha).2.2.2.2.2.2.2.1,
    leValue_toLeBytes_of_lt (w := 4) a.certification.certDataSize.toNat_lt_size]

theorem certDataOf_encode (ha : a.WellFormed)
    (hc : certData.length = a.certification.certDataSize.toNat) :
    certDataOf (a.encode ++ certData ++ rest) = certData := by
  rw [certDataOf, certDataSizeOf_encode ha, parsedDataSizeOf_encode ha, ← hc,
    (slices_encode certData rest ha).2.2.2.2.2.2.2.2]

/-- A well-formed section followed by a certificate window the PEM parser splits into the
    section's certificates, and by any bytes, is accepted, and the decoder reads the section back
    from it. -/
theorem authData_encode (rest : Bytes) (ha : a.WellFormed)
    (hc : certData.length = a.certification.certDataSize.toNat) {pems : List Pem}
    (hpems : parseMany certData = some pems)
    (hcerts : a.certification.decodedCertDataArray.toList = pems.map Pem.contents) :
    AuthDataAccepted parseMany (a.encode ++ certData ++ rest) ∧
      AuthDataReadFrom parseMany (a.encode ++ certData ++ rest) a := by
  obtain ⟨h1, h2, h3, h4, -, h6, h7, -, -⟩ := slices_encode certData rest ha
  have hp : parsedDataSizeOf (a.encode ++ certData ++ rest) = _ := parsedDataSizeOf_encode ha
  have hc' : certDataSizeOf (a.encode ++ certData ++ rest) = _ := certDataSizeOf_encode ha
  have hw : parseMany (certDataOf (a.encode ++ certData ++ rest)) = some pems := by
    rw [certDataOf_encode ha hc, hpems]
  have hlen : (a.encode ++ certData ++ rest).length =
      584 + a.qeAuthData.parsedDataSize.toNat + certData.length + rest.length := by
    rw [List.length_append, List.length_append, ECDSAQuoteV3AuthData.length_encode ha]
  have h3pems : pems.length = 3 := by
    simpa using (congrArg List.length hcerts).symm.trans
      a.certification.decodedCertDataArray.length_eq
  refine ⟨⟨by omega, by omega, by omega, pems, hw, h3pems⟩,
    ⟨h1.symm, h2.symm, ⟨ha.pckSignedQeReport, h3.symm⟩, h4.symm, hp.symm, ?_, ?_, hc'.symm,
      pems, hw, hcerts⟩⟩
  · rw [hp, h6]
  · rw [hp, h7]

variable {q : ParsedV3QuoteStruct}

/-- The bytes `encodeQuote q certData rest` of a well-formed quote, whose certificate window the
    PEM parser splits into `q`'s certificates and whose authentication-data section is shorter
    than `2 ^ 32` bytes, are accepted, and the decoder reads `q` back from them. -/
theorem quote_encode (hq : q.WellFormed)
    (hc : certData.length = q.v3AuthData.certification.certDataSize.toNat) {pems : List Pem}
    (hpems : parseMany certData = some pems)
    (hcerts : q.v3AuthData.certification.decodedCertDataArray.toList = pems.map Pem.contents)
    (hsize : (q.v3AuthData.encode ++ certData ++ rest).length < 2 ^ 32) :
    QuoteBytesAccepted parseMany (encodeQuote q certData rest) ∧
      QuoteReadFrom parseMany (encodeQuote q certData rest) q := by
  obtain ⟨hA, hread⟩ := authData_encode rest hq.v3AuthData hc hpems hcerts
  have hr := EnclaveReport.length_encode hq.localEnclaveReport
  have hdrop : (encodeQuote q certData rest).drop 436 = _ := drop_encodeQuote hq.localEnclaveReport
  have hlen : (encodeQuote q certData rest).length = _ := length_encodeQuote hq.localEnclaveReport
  have hslices : slice (encodeQuote q certData rest) 0 48 = q.header.encode ∧
      slice (encodeQuote q certData rest) 48 432 = q.localEnclaveReport.encode ∧
      slice (encodeQuote q certData rest) 432 436 =
        toLeBytes 4 (q.v3AuthData.encode ++ certData ++ rest).length := by
    simp (disch := (first
        | omega
        | (simp only [List.length_append, length_toLeBytes, Header.length_encode, hr]; omega)
        | (simp only [List.length_append, length_toLeBytes, Header.length_encode, hr]; done)
        | fail))
      only [encodeQuote, slice_append_left, slice_append_right, slice_eq_self, and_self]
  refine ⟨⟨by omega, ?_, hdrop ▸ hA⟩,
    ⟨hslices.1.symm, ⟨hq.localEnclaveReport, hslices.2.1.symm⟩, hdrop ▸ hread⟩⟩
  rw [hslices.2.2, leValue_toLeBytes_of_lt (w := 4) hsize]
  omega

end Encoding

/-! ## Every accepted input is a layout -/

section Decoding

variable {parseMany : Bytes → Option (List Pem)} {A B : Bytes} {a : ECDSAQuoteV3AuthData}
  {q : ParsedV3QuoteStruct}

/-- The QE auth-data size the decoder reads, put back little-endian, is the two bytes it was
    read from. -/
theorem AuthDataReadFrom.parsedDataSize_bytes (hA : AuthDataAccepted parseMany A)
    (h : AuthDataReadFrom parseMany A a) :
    toLeBytes 2 a.qeAuthData.parsedDataSize.toNat = slice A 576 578 := by
  rw [h.parsedDataSize, parsedDataSizeOf,
    toLeBytes_leValue_of_length (by rw [length_slice_of_le hA.fixed])]

/-- The certificate data size the decoder reads, put back little-endian, is the four bytes it
    was read from. -/
theorem AuthDataReadFrom.certDataSize_bytes (hA : AuthDataAccepted parseMany A)
    (h : AuthDataReadFrom parseMany A a) :
    toLeBytes 4 a.certification.certDataSize.toNat =
      slice A (580 + parsedDataSizeOf A) (584 + parsedDataSizeOf A) := by
  rw [h.certDataSize, certDataSizeOf,
    toLeBytes_leValue_of_length (by rw [length_slice_of_le hA.certHeader]; omega)]

/-- An accepted section is the encoding of what the decoder reads from it, followed by the
    certificate window and by the bytes after the window. -/
theorem encode_append_of_readFrom (hA : AuthDataAccepted parseMany A)
    (h : AuthDataReadFrom parseMany A a) :
    a.encode ++ certDataOf A ++ A.drop (584 + parsedDataSizeOf A + certDataSizeOf A) = A := by
  have h2 := hA.certHeader
  rw [ECDSAQuoteV3AuthData.encode, h.ecdsa256BitSignature, h.ecdsaAttestationKey,
    h.pckSignedQeReport.2, h.qeReportSignature, h.parsedDataSize_bytes hA, h.data, h.certType,
    h.certDataSize_bytes hA, certDataOf]
  simp (disch := omega) only [slice_append_slice]
  rw [slice_zero, List.take_append_drop]

/-- An accepted quote is the layout of what the decoder reads from it. -/
theorem encodeQuote_of_readFrom (hB : QuoteBytesAccepted parseMany B)
    (h : QuoteReadFrom parseMany B q) :
    encodeQuote q (certDataOf (B.drop 436))
      ((B.drop 436).drop (584 + parsedDataSizeOf (B.drop 436) + certDataSizeOf (B.drop 436))) =
      B := by
  have h436 := hB.length
  rw [encodeQuote, encode_append_of_readFrom hB.authData h.v3AuthData, h.header,
    h.localEnclaveReport.2, List.length_drop, ← hB.authDataSize,
    toLeBytes_leValue_of_length (by rw [length_slice_of_le h436])]
  simp (disch := omega) only [slice_append_slice]
  rw [slice_zero, List.take_append_drop]

/-- What the decoder returns is well-formed, and its input is the returned quote laid out with a
    certificate window the PEM parser splits into the quote's certificates. -/
theorem encodeQuote_of_parseQuoteBytes (h : parseQuoteBytes parseMany B = .ok q) :
    q.WellFormed ∧ ∃ certData rest pems, B = encodeQuote q certData rest ∧
      (q.v3AuthData.encode ++ certData ++ rest).length < 2 ^ 32 ∧
      certData.length = q.v3AuthData.certification.certDataSize.toNat ∧
      parseMany certData = some pems ∧
      q.v3AuthData.certification.decodedCertDataArray.toList = pems.map Pem.contents := by
  have hB := accepted_of_parseQuoteBytes h
  have hread := readFrom_of_parseQuoteBytes h
  obtain ⟨pems, hpems, hcerts⟩ := hread.v3AuthData.decodedCertDataArray
  have h3 := hB.authData.certData
  have hsize : (B.drop 436).length < 2 ^ 32 := by
    have := leValue_lt (slice B 432 436)
    rw [length_slice_of_le hB.length, hB.authDataSize] at this
    rw [List.length_drop]
    exact this
  refine ⟨hread.wellFormed hB, _, _, pems, (encodeQuote_of_readFrom hB hread).symm, ?_, ?_, hpems,
    hcerts⟩
  · rwa [encode_append_of_readFrom hB.authData hread.v3AuthData]
  · rw [certDataOf, length_slice_of_le h3, hread.v3AuthData.certDataSize]
    omega

/-- The decoder inverts the layout: on `encodeQuote q certData rest` it returns `q`. -/
theorem parseQuoteBytes_encodeQuote {certData rest : Bytes} {pems : List Pem}
    (hq : q.WellFormed) (hc : certData.length = q.v3AuthData.certification.certDataSize.toNat)
    (hpems : parseMany certData = some pems)
    (hcerts : q.v3AuthData.certification.decodedCertDataArray.toList = pems.map Pem.contents)
    (hsize : (q.v3AuthData.encode ++ certData ++ rest).length < 2 ^ 32) :
    parseQuoteBytes parseMany (encodeQuote q certData rest) = .ok q :=
  let ⟨hB, hread⟩ := quote_encode hq hc hpems hcerts hsize
  parseQuoteBytes_eq_ok_of_readFrom hB hread

end Decoding

/-! ## The layout of an accepted quote -/

/-- The decoder returns `q` on `B` exactly when `q` is well-formed and `B` is `q` laid out, followed
    by a certificate window that the PEM parser splits into `q`'s certificates and by any bytes
    at all, the authentication-data section being shorter than `2 ^ 32` bytes so that its length
    fits the four-byte field. -/
theorem parseQuoteBytes_eq_ok_iff {parseMany : Bytes → Option (List Pem)} {B : Bytes}
    {q : ParsedV3QuoteStruct} :
    parseQuoteBytes parseMany B = .ok q ↔ q.WellFormed ∧ ∃ certData rest pems,
      B = encodeQuote q certData rest ∧
      (q.v3AuthData.encode ++ certData ++ rest).length < 2 ^ 32 ∧
      certData.length = q.v3AuthData.certification.certDataSize.toNat ∧
      parseMany certData = some pems ∧
      q.v3AuthData.certification.decodedCertDataArray.toList = pems.map Pem.contents := by
  refine ⟨encodeQuote_of_parseQuoteBytes, ?_⟩
  rintro ⟨hq, certData, rest, pems, rfl, hsize, hc, hpems, hcerts⟩
  exact parseQuoteBytes_encodeQuote hq hc hpems hcerts hsize

/-! ## A sample quote

A quote small enough to write down, for the witnesses below. The PEM parser is a stand-in that
agrees with `pem::parse_many` on the sample's certificate window.
-/

/-- One PEM block with an empty body. -/
def samplePemBlock : Bytes :=
  "-----BEGIN CERTIFICATE-----\n-----END CERTIFICATE-----\n".toList.map fun c => UInt8.ofNat c.toNat

/-- The sample certificate window: three blocks. -/
def sampleCertData : Bytes := samplePemBlock ++ samplePemBlock ++ samplePemBlock

/-- A stand-in for `pem::parse_many` that agrees with it on `sampleCertData`, three blocks with
    empty contents, and fails on every other input. -/
def samplePemParser (w : Bytes) : Option (List Pem) :=
  if w = sampleCertData then some [⟨[]⟩, ⟨[]⟩, ⟨[]⟩] else none

def sampleLibs : Libs := ⟨hexDecode, samplePemParser⟩

/-- An enclave report of zero bytes. -/
def sampleReport : EnclaveReport where
  cpuSvn := ⟨_, List.length_replicate 16 0⟩
  miscSelect := ⟨_, List.length_replicate 4 0⟩
  reserved1 := ⟨_, List.length_replicate 28 0⟩
  attributes := ⟨_, List.length_replicate 16 0⟩
  mrEnclave := ⟨_, List.length_replicate 32 0⟩
  reserved2 := ⟨_, List.length_replicate 32 0⟩
  mrSigner := ⟨_, List.length_replicate 32 0⟩
  reserved3 := List.replicate 96 0
  isvProdId := 0
  isvSvn := 0
  reserved4 := List.replicate 60 0
  reportData := List.replicate 64 0

/-- A version-3 quote with an ECDSA-256 attestation key, zero bytes wherever the layout leaves a
    field free, two bytes of QE auth data and a PCK certificate chain (cert type 5) of three
    empty blocks. -/
def sampleQuote : ParsedV3QuoteStruct where
  header := {
    version := ⟨[3, 0], rfl⟩
    attestationKeyType := ⟨[2, 0], rfl⟩
    teeType := ⟨_, List.length_replicate 4 0⟩
    qeSvn := ⟨_, List.length_replicate 2 0⟩
    pceSvn := ⟨_, List.length_replicate 2 0⟩
    qeVendorId := ⟨_, List.length_replicate 16 0⟩
    userData := ⟨_, List.length_replicate 20 0⟩ }
  localEnclaveReport := sampleReport
  v3AuthData := {
    ecdsa256BitSignature := List.replicate 64 0
    ecdsaAttestationKey := List.replicate 64 0
    pckSignedQeReport := sampleReport
    qeReportSignature := List.replicate 64 0
    qeAuthData := ⟨2, [0, 0]⟩
    certification := ⟨5, 162, ⟨[[], [], []], rfl⟩⟩ }

/-- The bytes of the sample quote, with `rest` after the certificate window. -/
def sampleQuoteBytes (rest : Bytes) : Bytes := encodeQuote sampleQuote sampleCertData rest

theorem sampleQuote_wellFormed : sampleQuote.WellFormed :=
  have hr : sampleReport.WellFormed :=
    ⟨List.length_replicate 96 0, List.length_replicate 60 0, List.length_replicate 64 0⟩
  ⟨hr, List.length_replicate 64 0, List.length_replicate 64 0, hr, List.length_replicate 64 0,
    rfl⟩

theorem length_sampleCertData : sampleCertData.length = 162 := rfl

theorem length_sampleQuoteBytes (rest : Bytes) :
    (sampleQuoteBytes rest).length = 1184 + rest.length := by
  rw [sampleQuoteBytes, length_encodeQuote sampleQuote_wellFormed.localEnclaveReport,
    List.length_append, List.length_append,
    ECDSAQuoteV3AuthData.length_encode sampleQuote_wellFormed.v3AuthData, length_sampleCertData]
  have hp : sampleQuote.v3AuthData.qeAuthData.parsedDataSize.toNat = 2 := rfl
  omega

/-- The body of `parse_quote` returns the sample quote on its bytes, whatever bytes follow the
    certificate window. -/
theorem parseQuoteBytes_sampleQuoteBytes (rest : Bytes) (h : 1184 + rest.length < 2 ^ 32 + 436) :
    parseQuoteBytes samplePemParser (sampleQuoteBytes rest) = .ok sampleQuote := by
  have hsize := length_sampleQuoteBytes rest
  rw [sampleQuoteBytes, length_encodeQuote sampleQuote_wellFormed.localEnclaveReport] at hsize
  exact parseQuoteBytes_encodeQuote sampleQuote_wellFormed length_sampleCertData
    (show samplePemParser sampleCertData = some [⟨[]⟩, ⟨[]⟩, ⟨[]⟩] from if_pos rfl) rfl
    (by omega)

/-- `parse_quote` returns the sample quote on its hex text, whatever bytes follow the certificate
    window. -/
theorem parseQuote_sampleQuoteBytes (rest : Bytes) (h : 1184 + rest.length < 2 ^ 32 + 436) :
    parseQuote sampleLibs (hexEncode (sampleQuoteBytes rest)) = .ok sampleQuote :=
  parseQuote_eq_ok.2 ⟨_, hexDecode_hexEncode _, parseQuoteBytes_sampleQuoteBytes rest h⟩

/-! ## What `parse_quote` returns -/

/-- Every quote `parse_quote` returns is well-formed: its `bytes` fields have the widths of the
    layout, and the QE auth data is as long as its size field says. -/
theorem parseQuote_wellFormed {libs : Libs} {s : String} {q : ParsedV3QuoteStruct}
    (h : parseQuote libs s = .ok q) : q.WellFormed :=
  let ⟨_, _, hq⟩ := parseQuote_eq_ok.1 h
  (encodeQuote_of_parseQuoteBytes hq).1

theorem parseQuote_wellFormed_sample :
    parseQuote sampleLibs (hexEncode (sampleQuoteBytes [])) = .ok sampleQuote ∧
      sampleQuote.WellFormed :=
  have h := parseQuote_sampleQuoteBytes [] (by decide)
  ⟨h, parseQuote_wellFormed h⟩

/-- What `parse_quote` returns re-serialises byte for byte to its input up to the end of the
    certificate window: the header and both enclave reports (384 bytes each) are their windows,
    the three raw auth-data fields are theirs, the integer fields put back little-endian are
    theirs, the QE auth data is the `p` bytes after its size, and the certificates are, in
    order, the contents of the blocks the PEM parser finds in the window, which ends inside the
    section. -/
theorem parseQuote_reserialises {libs : Libs} {s : String} {q : ParsedV3QuoteStruct}
    (h : parseQuote libs s = .ok q) :
    ∃ B, libs.hexDecode s = some B ∧
      let A := B.drop 436
      let p := leValue (slice A 576 578)
      let c := leValue (slice A (580 + p) (584 + p))
      slice B 0 48 = q.header.encode ∧
      slice B 48 432 = q.localEnclaveReport.encode ∧
      slice A 128 512 = q.v3AuthData.pckSignedQeReport.encode ∧
      q.localEnclaveReport.encode.length = 384 ∧
      q.v3AuthData.pckSignedQeReport.encode.length = 384 ∧
      slice A 0 64 = q.v3AuthData.ecdsa256BitSignature ∧
      slice A 64 128 = q.v3AuthData.ecdsaAttestationKey ∧
      slice A 512 576 = q.v3AuthData.qeReportSignature ∧
      slice A 576 578 = toLeBytes 2 q.v3AuthData.qeAuthData.parsedDataSize.toNat ∧
      q.v3AuthData.qeAuthData.data = slice A 578 (578 + p) ∧
      q.v3AuthData.qeAuthData.data.length = q.v3AuthData.qeAuthData.parsedDataSize.toNat ∧
      q.v3AuthData.qeAuthData.parsedDataSize.toNat = p ∧
      slice A (578 + p) (580 + p) = toLeBytes 2 q.v3AuthData.certification.certType.toNat ∧
      slice A (580 + p) (584 + p) = toLeBytes 4 q.v3AuthData.certification.certDataSize.toNat ∧
      q.v3AuthData.certification.certDataSize.toNat = c ∧ 584 + p + c ≤ A.length ∧
      ∃ pems, libs.parseMany (slice A (584 + p) (584 + p + c)) = some pems ∧ pems.length = 3 ∧
        q.v3AuthData.certification.decodedCertDataArray.toList = pems.map Pem.contents := by
  obtain ⟨B, hB, hq⟩ := parseQuote_eq_ok.1 h
  have hacc := accepted_of_parseQuoteBytes hq
  have hread := readFrom_of_parseQuoteBytes hq
  have hwf := hread.wellFormed hacc
  obtain ⟨pems, hpems, hcerts⟩ := hread.v3AuthData.decodedCertDataArray
  have hpems3 : pems.length = 3 := by
    simpa using (congrArg List.length hcerts).symm.trans
      q.v3AuthData.certification.decodedCertDataArray.length_eq
  exact ⟨B, hB, hread.header.symm, hread.localEnclaveReport.2.symm,
    hread.v3AuthData.pckSignedQeReport.2.symm, EnclaveReport.length_encode hwf.localEnclaveReport,
    EnclaveReport.length_encode hwf.v3AuthData.pckSignedQeReport,
    hread.v3AuthData.ecdsa256BitSignature.symm, hread.v3AuthData.ecdsaAttestationKey.symm,
    hread.v3AuthData.qeReportSignature.symm,
    (hread.v3AuthData.parsedDataSize_bytes hacc.authData).symm, hread.v3AuthData.data,
    hwf.v3AuthData.data, hread.v3AuthData.parsedDataSize, hread.v3AuthData.certType.symm,
    (hread.v3AuthData.certDataSize_bytes hacc.authData).symm, hread.v3AuthData.certDataSize,
    hacc.authData.certData, pems, hpems, hpems3, hcerts⟩

theorem parseQuote_reserialises_sample :
    parseQuote sampleLibs (hexEncode (sampleQuoteBytes [])) = .ok sampleQuote ∧
    ∃ B, sampleLibs.hexDecode (hexEncode (sampleQuoteBytes [])) = some B ∧
      let A := B.drop 436
      let p := leValue (slice A 576 578)
      let c := leValue (slice A (580 + p) (584 + p))
      slice B 0 48 = sampleQuote.header.encode ∧
      slice B 48 432 = sampleQuote.localEnclaveReport.encode ∧
      slice A 128 512 = sampleQuote.v3AuthData.pckSignedQeReport.encode ∧
      sampleQuote.localEnclaveReport.encode.length = 384 ∧
      sampleQuote.v3AuthData.pckSignedQeReport.encode.length = 384 ∧
      slice A 0 64 = sampleQuote.v3AuthData.ecdsa256BitSignature ∧
      slice A 64 128 = sampleQuote.v3AuthData.ecdsaAttestationKey ∧
      slice A 512 576 = sampleQuote.v3AuthData.qeReportSignature ∧
      slice A 576 578 = toLeBytes 2 sampleQuote.v3AuthData.qeAuthData.parsedDataSize.toNat ∧
      sampleQuote.v3AuthData.qeAuthData.data = slice A 578 (578 + p) ∧
      sampleQuote.v3AuthData.qeAuthData.data.length =
        sampleQuote.v3AuthData.qeAuthData.parsedDataSize.toNat ∧
      sampleQuote.v3AuthData.qeAuthData.parsedDataSize.toNat = p ∧
      slice A (578 + p) (580 + p) =
        toLeBytes 2 sampleQuote.v3AuthData.certification.certType.toNat ∧
      slice A (580 + p) (584 + p) =
        toLeBytes 4 sampleQuote.v3AuthData.certification.certDataSize.toNat ∧
      sampleQuote.v3AuthData.certification.certDataSize.toNat = c ∧ 584 + p + c ≤ A.length ∧
      ∃ pems, sampleLibs.parseMany (slice A (584 + p) (584 + p + c)) = some pems ∧
        pems.length = 3 ∧
        sampleQuote.v3AuthData.certification.decodedCertDataArray.toList =
          pems.map Pem.contents :=
  have h := parseQuote_sampleQuoteBytes [] (by decide)
  ⟨h, parseQuote_reserialises h⟩

/-! ## What the result fixes -/

section Fixed

variable {parseMany : Bytes → Option (List Pem)} {B : Bytes} {q : ParsedV3QuoteStruct}

/-- The windows of the input that the result of the body fixes: the first 432 bytes are the
    header and the local report laid out, the `584 + p` bytes after the length field are the
    authentication data up to the certificate window, and the certificate window is
    `certDataSize` bytes in which the PEM parser finds blocks of the certificates' contents. -/
theorem windows_of_parseQuoteBytes (h : parseQuoteBytes parseMany B = .ok q) :
    slice B 0 432 = q.header.encode ++ q.localEnclaveReport.encode ∧
      slice B 436 (1020 + q.v3AuthData.qeAuthData.parsedDataSize.toNat) = q.v3AuthData.encode ∧
      (certDataOf (B.drop 436)).length = q.v3AuthData.certification.certDataSize.toNat ∧
      ∃ pems, parseMany (certDataOf (B.drop 436)) = some pems ∧
        q.v3AuthData.certification.decodedCertDataArray.toList = pems.map Pem.contents := by
  obtain ⟨hwf, certData, rest, pems, rfl, -, hc, hpems, hcerts⟩ := encodeQuote_of_parseQuoteBytes h
  have hr := hwf.localEnclaveReport
  have hcert : certDataOf ((encodeQuote q certData rest).drop 436) = certData := by
    rw [drop_encodeQuote hr, certDataOf_encode hwf.v3AuthData hc]
  refine ⟨by rw [slice_zero, take_encodeQuote hr], ?_, by rw [hcert, hc], pems,
    by rw [hcert, hpems], hcerts⟩
  rw [slice, drop_encodeQuote hr, List.append_assoc, List.take_left'
    (by rw [ECDSAQuoteV3AuthData.length_encode hwf.v3AuthData]; omega)]

/-- Two inputs on which the body returns the same quote agree on the header, the local report and
    the authentication data up to the certificate window; their certificate windows have the same
    length, and the PEM parser finds blocks of the same contents in both. Only the length field,
    the text of the certificate window and the bytes after it can differ. -/
theorem parseQuoteBytes_same_result {B' : Bytes} (h : parseQuoteBytes parseMany B = .ok q)
    (h' : parseQuoteBytes parseMany B' = .ok q) :
    slice B 0 432 = slice B' 0 432 ∧
      slice B 436 (1020 + q.v3AuthData.qeAuthData.parsedDataSize.toNat) =
        slice B' 436 (1020 + q.v3AuthData.qeAuthData.parsedDataSize.toNat) ∧
      (certDataOf (B.drop 436)).length = (certDataOf (B'.drop 436)).length ∧
      ∃ pems pems', parseMany (certDataOf (B.drop 436)) = some pems ∧
        parseMany (certDataOf (B'.drop 436)) = some pems' ∧
        pems.map Pem.contents = pems'.map Pem.contents := by
  obtain ⟨h1, h2, h3, pems, hpems, hcerts⟩ := windows_of_parseQuoteBytes h
  obtain ⟨h1', h2', h3', pems', hpems', hcerts'⟩ := windows_of_parseQuoteBytes h'
  exact ⟨h1.trans h1'.symm, h2.trans h2'.symm, h3.trans h3'.symm, pems, pems', hpems, hpems',
    hcerts.symm.trans hcerts'⟩

end Fixed

/-- The sample quote with and without a trailing byte: the length fields differ, the rest of
    the fixed part does not. -/
theorem parseQuoteBytes_same_result_sample :
    parseQuoteBytes samplePemParser (sampleQuoteBytes []) = .ok sampleQuote ∧
    parseQuoteBytes samplePemParser (sampleQuoteBytes [0]) = .ok sampleQuote ∧
    slice (sampleQuoteBytes []) 0 432 = slice (sampleQuoteBytes [0]) 0 432 ∧
    slice (sampleQuoteBytes []) 436 (1020 + sampleQuote.v3AuthData.qeAuthData.parsedDataSize.toNat) =
      slice (sampleQuoteBytes [0]) 436
        (1020 + sampleQuote.v3AuthData.qeAuthData.parsedDataSize.toNat) ∧
    (certDataOf ((sampleQuoteBytes []).drop 436)).length =
      (certDataOf ((sampleQuoteBytes [0]).drop 436)).length ∧
    ∃ pems pems', samplePemParser (certDataOf ((sampleQuoteBytes []).drop 436)) = some pems ∧
      samplePemParser (certDataOf ((sampleQuoteBytes [0]).drop 436)) = some pems' ∧
      pems.map Pem.contents = pems'.map Pem.contents :=
  have h := parseQuoteBytes_sampleQuoteBytes [] (by decide)
  have h' := parseQuoteBytes_sampleQuoteBytes [0] (by decide)
  ⟨h, h', parseQuoteBytes_same_result h h'⟩

/-! ## What the decoders do not check -/

section Unchecked

variable {parseMany : Bytes → Option (List Pem)} {B : Bytes} {q : ParsedV3QuoteStruct}

/-- `parse_quote` checks nothing in its first 432 bytes: any 432 bytes in place of the header and
    the local report of an accepted quote are accepted, read as a header and a report that lay
    them out, and the authentication data is read as before. Version, attestation key type, TEE
    type and the measurements in the report are taken as they come. -/
theorem parseQuoteBytes_replace_fixed (h : parseQuoteBytes parseMany B = .ok q) {F : Bytes}
    (hF : F.length = 432) :
    ∃ hd r, hd.encode ++ r.encode = F ∧
      parseQuoteBytes parseMany (F ++ B.drop 432) = .ok ⟨hd, r, q.v3AuthData⟩ := by
  obtain ⟨hwf, certData, rest, pems, rfl, hsize, hc, hpems, hcerts⟩ :=
    encodeQuote_of_parseQuoteBytes h
  obtain ⟨hd, -, hhd⟩ := parseQuoteHeader_of_lt (b := F) (by omega)
  obtain ⟨r, -, hr, hrenc⟩ := parseQuoteEnclaveReport_of_le (w := F.drop 48) (by simp [hF])
  have hF' : hd.encode ++ r.encode = F := by
    rw [hhd, hrenc, List.take_of_length_le (by simp [hF] : (F.drop 48).length ≤ 384),
      List.take_append_drop]
  refine ⟨hd, r, hF', ?_⟩
  have key := parseQuoteBytes_encodeQuote (q := ⟨hd, r, q.v3AuthData⟩) ⟨hr, hwf.v3AuthData⟩ hc
    hpems hcerts hsize
  rw [encodeQuote, List.append_assoc _ (toLeBytes 4 _)] at key
  rwa [encodeQuote, List.append_assoc _ (toLeBytes 4 _), List.drop_left'
    (by rw [List.length_append, Header.length_encode,
      EnclaveReport.length_encode hwf.localEnclaveReport]), ← hF']

/-- The sample quote with every byte of its header and local report set to `0xff`, version and
    key type included. -/
theorem parseQuoteBytes_replace_fixed_sample :
    parseQuoteBytes samplePemParser (sampleQuoteBytes []) = .ok sampleQuote ∧
    (List.replicate 432 (255 : UInt8)).length = 432 ∧
    ∃ hd r, hd.encode ++ r.encode = List.replicate 432 255 ∧
      parseQuoteBytes samplePemParser (List.replicate 432 255 ++ (sampleQuoteBytes []).drop 432) =
        .ok ⟨hd, r, sampleQuote.v3AuthData⟩ :=
  have h := parseQuoteBytes_sampleQuoteBytes [] (by decide)
  ⟨h, List.length_replicate _ _, parseQuoteBytes_replace_fixed h (List.length_replicate _ _)⟩

/-- `parse_quote_auth_data` reads nothing past the certificate window: a section that agrees with
    an accepted one on its first `584 + p + c` bytes (the fixed part, the QE auth data, the cert
    type and size, and the window) decodes to the same result, whatever follows. -/
theorem parseQuoteAuthData_reads_prefix {A A' : Bytes} {a : ECDSAQuoteV3AuthData}
    (h : parseQuoteAuthData parseMany A = .ok a)
    (hA' : A'.take (584 + parsedDataSizeOf A + certDataSizeOf A) =
      A.take (584 + parsedDataSizeOf A + certDataSizeOf A)) :
    parseQuoteAuthData parseMany A' = .ok a := by
  have hA := accepted_of_parseQuoteAuthData h
  have hread := readFrom_of_parseQuoteAuthData h
  have hwf := hread.wellFormed hA
  obtain ⟨pems, hpems, hcerts⟩ := hread.decodedCertDataArray
  have hc : (certDataOf A).length = a.certification.certDataSize.toNat := by
    rw [certDataOf, length_slice_of_le hA.certData, hread.certDataSize]
    omega
  have htake : A.take (584 + parsedDataSizeOf A + certDataSizeOf A) = a.encode ++ certDataOf A :=
    calc A.take (584 + parsedDataSizeOf A + certDataSizeOf A)
        = (a.encode ++ certDataOf A ++
            A.drop (584 + parsedDataSizeOf A + certDataSizeOf A)).take
            (584 + parsedDataSizeOf A + certDataSizeOf A) := by
          rw [encode_append_of_readFrom hA hread]
      _ = a.encode ++ certDataOf A := List.take_left' (by
          rw [List.length_append, ECDSAQuoteV3AuthData.length_encode hwf, hc,
            hread.parsedDataSize, hread.certDataSize])
  rw [← List.take_append_drop (584 + parsedDataSizeOf A + certDataSizeOf A) A', hA', htake]
  obtain ⟨hacc, hread'⟩ := authData_encode _ hwf hc hpems hcerts
  exact parseQuoteAuthData_eq_ok_of_readFrom hacc hread'

end Unchecked

/-- The authentication data of the sample quote, with a byte appended. -/
theorem parseQuoteAuthData_reads_prefix_sample :
    let A := (sampleQuoteBytes []).drop 436
    let n := 584 + parsedDataSizeOf A + certDataSizeOf A
    parseQuoteAuthData samplePemParser A = .ok sampleQuote.v3AuthData ∧
      (A ++ [7]).take n = A.take n ∧
      parseQuoteAuthData samplePemParser (A ++ [7]) = .ok sampleQuote.v3AuthData :=
  have hq := parseQuoteBytes_sampleQuoteBytes [] (by decide)
  have hA := (accepted_of_parseQuoteBytes hq).authData
  have h := parseQuoteAuthData_eq_ok_of_readFrom hA (readFrom_of_parseQuoteBytes hq).v3AuthData
  have htake : ((sampleQuoteBytes []).drop 436 ++ [7]).take
      (584 + parsedDataSizeOf ((sampleQuoteBytes []).drop 436) +
        certDataSizeOf ((sampleQuoteBytes []).drop 436)) =
      ((sampleQuoteBytes []).drop 436).take
      (584 + parsedDataSizeOf ((sampleQuoteBytes []).drop 436) +
        certDataSizeOf ((sampleQuoteBytes []).drop 436)) :=
    List.take_append_of_le_length hA.certData
  ⟨h, htake, parseQuoteAuthData_reads_prefix h htake⟩

/-! ## Bytes after the certificate window -/

/-- `B` with `extra` appended and the length field at 432..436 raised to match. -/
def appendTrailing (B extra : Bytes) : Bytes :=
  slice B 0 432 ++ toLeBytes 4 (B.length - 436 + extra.length) ++ B.drop 436 ++ extra

/-- `parse_quote` reads the authentication-data section only up to the end of the certificate
    window. The sub-sections lie inside the section, but need not fill it: bytes appended after
    it, with the length field at 432..436 raised to match, leave the result unchanged. -/
theorem parseQuote_accepts_trailing {libs : Libs} {s s' : String} {q : ParsedV3QuoteStruct}
    {B extra : Bytes} (h : parseQuote libs s = .ok q) (hB : libs.hexDecode s = some B)
    (hsize : B.length - 436 + extra.length < 2 ^ 32)
    (hs' : libs.hexDecode s' = some (appendTrailing B extra)) :
    584 + q.v3AuthData.qeAuthData.parsedDataSize.toNat +
        q.v3AuthData.certification.certDataSize.toNat ≤ B.length - 436 ∧
      parseQuote libs s' = .ok q := by
  obtain ⟨B₀, hB₀, hq⟩ := parseQuote_eq_ok.1 h
  obtain rfl : B₀ = B := Option.some.inj (hB₀.symm.trans hB)
  obtain ⟨hwf, certData, rest, pems, rfl, -, hc, hpems, hcerts⟩ :=
    encodeQuote_of_parseQuoteBytes hq
  have hr := hwf.localEnclaveReport
  have hlen : (encodeQuote q certData rest).length = _ := length_encodeQuote hr
  have hauth := ECDSAQuoteV3AuthData.length_encode hwf.v3AuthData
  have hn : (encodeQuote q certData rest).length - 436 + extra.length =
      (q.v3AuthData.encode ++ certData ++ (rest ++ extra)).length := by
    simp only [List.length_append] at hlen ⊢
    omega
  have hpadded : appendTrailing (encodeQuote q certData rest) extra =
      encodeQuote q certData (rest ++ extra) := by
    rw [appendTrailing, slice_zero, take_encodeQuote hr, drop_encodeQuote hr, hn, encodeQuote]
    simp only [List.append_assoc]
  refine ⟨?_, parseQuote_eq_ok.2 ⟨_, hs', ?_⟩⟩
  · simp only [List.length_append, hauth] at hlen
    omega
  · rw [hpadded]
    exact parseQuoteBytes_encodeQuote hwf hc hpems hcerts (by rw [← hn]; exact hsize)

theorem parseQuote_accepts_trailing_sample :
    parseQuote sampleLibs (hexEncode (sampleQuoteBytes [])) = .ok sampleQuote ∧
    sampleLibs.hexDecode (hexEncode (sampleQuoteBytes [])) = some (sampleQuoteBytes []) ∧
    (sampleQuoteBytes []).length - 436 + [(0 : UInt8)].length < 2 ^ 32 ∧
    sampleLibs.hexDecode (hexEncode (appendTrailing (sampleQuoteBytes []) [0])) =
      some (appendTrailing (sampleQuoteBytes []) [0]) ∧
    584 + sampleQuote.v3AuthData.qeAuthData.parsedDataSize.toNat +
        sampleQuote.v3AuthData.certification.certDataSize.toNat ≤
      (sampleQuoteBytes []).length - 436 ∧
    parseQuote sampleLibs (hexEncode (appendTrailing (sampleQuoteBytes []) [0])) = .ok sampleQuote :=
  have h := parseQuote_sampleQuoteBytes [] (by decide)
  have hsize : (sampleQuoteBytes []).length - 436 + [(0 : UInt8)].length < 2 ^ 32 := by
    rw [length_sampleQuoteBytes]
    decide
  have hpadded := hexDecode_hexEncode (appendTrailing (sampleQuoteBytes []) [0])
  ⟨h, hexDecode_hexEncode _, hsize, hpadded,
    parseQuote_accepts_trailing h (hexDecode_hexEncode _) hsize hpadded⟩

/-- The sample quote with one byte after its certificate window is accepted, and its sub-sections
    end one byte before the end of its authentication-data section. -/
theorem parseQuote_consumes_counterexample :
    ¬ ∀ (libs : Libs) (s : String) (q : ParsedV3QuoteStruct) (B : Bytes),
      parseQuote libs s = .ok q → libs.hexDecode s = some B →
      B.length - 436 = 584 + q.v3AuthData.qeAuthData.parsedDataSize.toNat +
        q.v3AuthData.certification.certDataSize.toNat := by
  intro h
  have := h sampleLibs _ sampleQuote _ (parseQuote_sampleQuoteBytes [0] (by decide))
    (hexDecode_hexEncode _)
  rw [length_sampleQuoteBytes] at this
  exact absurd this (by decide)

/-- The length check rejects every change of length that leaves the length field alone. A proper
    prefix of an accepted quote panics at the header's assertion up to 48 bytes, at the bound of
    the local report or of the length field up to 436, and at the length check after that; a
    proper extension panics at the length check. -/
theorem parseQuoteBytes_length_changed {parseMany : Bytes → Option (List Pem)} {B : Bytes}
    {q : ParsedV3QuoteStruct} (h : parseQuoteBytes parseMany B = .ok q) :
    (∀ n < B.length, parseQuoteBytes parseMany (B.take n) = .error
      (if n ≤ 48 then .assertion "quote bytes should be at least 48"
        else if n < 432 then .sliceEndIndexLen 432 n
        else if n < 436 then .sliceEndIndexLen 436 n
        else .assertEq (n - 436) (B.length - 436) (some "quote length mismatch"))) ∧
    ∀ extra : Bytes, extra ≠ [] → parseQuoteBytes parseMany (B ++ extra) = .error
      (.assertEq (B.length + extra.length - 436) (B.length - 436) (some "quote length mismatch")) := by
  obtain ⟨h436, hfield, -⟩ := accepted_of_parseQuoteBytes h
  refine ⟨fun n hn => parseQuoteBytes_of_panic ?_, fun extra hne => parseQuoteBytes_of_panic ?_⟩
  · rw [quoteBytesPanic, List.length_take, Nat.min_eq_left hn.le]
    split_ifs with h48 h432 h436 hne
    · rfl
    · rfl
    · rfl
    · rw [slice_take (by omega), hfield]
    · rw [slice_take (by omega), hfield] at hne
      omega
  · have hlen := List.length_pos.2 hne
    rw [quoteBytesPanic, List.length_append, slice_append_left h436, hfield,
      if_neg (by omega), if_neg (by omega), if_neg (by omega), if_pos (by omega)]

theorem parseQuoteBytes_length_changed_sample :
    parseQuoteBytes samplePemParser (sampleQuoteBytes []) = .ok sampleQuote ∧
    parseQuoteBytes samplePemParser ((sampleQuoteBytes []).take 1000) =
      .error (.assertEq 564 748 (some "quote length mismatch")) ∧
    parseQuoteBytes samplePemParser (sampleQuoteBytes [] ++ [0]) =
      .error (.assertEq 749 748 (some "quote length mismatch")) := by
  have h := parseQuoteBytes_sampleQuoteBytes [] (by decide)
  have hlen := length_sampleQuoteBytes []
  refine ⟨h, ?_, ?_⟩
  · rw [(parseQuoteBytes_length_changed h).1 1000 (by omega), hlen]
    rfl
  · rw [(parseQuoteBytes_length_changed h).2 [0] (List.cons_ne_nil 0 []), hlen]
    rfl

end SgxQuote
