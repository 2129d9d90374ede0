import SgxQuote.Types
import SgxQuote.LittleEndian

/-!
# The byte layout of a quote

What the decoder is for: the sections of an ECDSA-P256 quote are its fields laid end to end.
`Header.encode`, `EnclaveReport.encode` and `ECDSAQuoteV3AuthData.encode` put a value back into
the bytes it is read from, integer fields little-endian; the authentication data's encoding
stops in front of the certificate window, whose PEM text the decoded certificates do not
determine.

The `bytes` fields have no width in their Solidity type, so the layout holds only for values
whose `bytes` fields have the widths the decoder gives them, the `WellFormed` ones. On those,
each encoding has its fixed length and determines the value.
-/

namespace SgxQuote

/-! ## Header -/

/-- The 48 header bytes: the fields in order. -/
def Header.encode (h : Header) : Bytes :=
  h.version.toList ++ h.attestationKeyType.toList ++ h.teeType.toList ++ h.qeSvn.toList ++
    h.pceSvn.toList ++ h.qeVendorId.toList ++ h.userData.toList

@[simp] theorem Header.length_encode (h : Header) : h.encode.length = 48 := by
  simp [Header.encode, FixedArray.length_eq]

/-! ## Enclave report -/

/-- The 384 report bytes, `isvProdId` and `isvSvn` as two little-endian bytes each. -/
def EnclaveReport.encode (r : EnclaveReport) : Bytes :=
  r.cpuSvn.toList ++ r.miscSelect.toList ++ r.reserved1.toList ++ r.attributes.toList ++
    r.mrEnclave.toList ++ r.reserved2.toList ++ r.mrSigner.toList ++ r.reserved3 ++
    toLeBytes 2 r.isvProdId.toNat ++ toLeBytes 2 r.isvSvn.toNat ++ r.reserved4 ++ r.reportData

/-- The widths the decoder gives a report's `bytes` fields. -/
structure EnclaveReport.WellFormed (r : EnclaveReport) : Prop where
  reserved3 : r.reserved3.length = 96
  reserved4 : r.reserved4.length = 60
  reportData : r.reportData.length = 64

theorem EnclaveReport.length_encode {r : EnclaveReport} (hr : r.WellFormed) :
    r.encode.length = 384 := by
  simp [EnclaveReport.encode, FixedArray.length_eq, hr.reserved3, hr.reserved4, hr.reportData]

/-- Two-byte little-endian encodings of `u16` values are equal only for equal values. -/
theorem toLeBytes_uInt16_inj {x y : UInt16} (h : toLeBytes 2 x.toNat = toLeBytes 2 y.toNat) :
    x = y := by
  have hx := leValue_toLeBytes_of_lt (w := 2) x.toNat_lt_size
  have hy := leValue_toLeBytes_of_lt (w := 2) y.toNat_lt_size
  exact UInt16.toNat.inj (hx.symm.trans ((congrArg leValue h).trans hy))

/-! ## Authentication data -/

/-- The authentication-data bytes in front of the certificate window, the three integer fields
    little-endian. -/
def ECDSAQuoteV3AuthData.encode (a : ECDSAQuoteV3AuthData) : Bytes :=
  a.ecdsa256BitSignature ++ a.ecdsaAttestationKey ++ a.pckSignedQeReport.encode ++
    a.qeReportSignature ++ toLeBytes 2 a.qeAuthData.parsedDataSize.toNat ++ a.qeAuthData.data ++
    toLeBytes 2 a.certification.certType.toNat ++ toLeBytes 4 a.certification.certDataSize.toNat

/-- The widths the decoder gives the authentication data's `bytes` fields; the QE auth data is
    as long as its size field says. -/
structure ECDSAQuoteV3AuthData.WellFormed (a : ECDSAQuoteV3AuthData) : Prop where
  ecdsa256BitSignature : a.ecdsa256BitSignature.length = 64
  ecdsaAttestationKey : a.ecdsaAttestationKey.length = 64
  pckSignedQeReport : a.pckSignedQeReport.WellFormed
  qeReportSignature : a.qeReportSignature.length = 64
  data : a.qeAuthData.data.length = a.qeAuthData.parsedDataSize.toNat

theorem ECDSAQuoteV3AuthData.length_encode {a : ECDSAQuoteV3AuthData} (ha : a.WellFormed) :
    a.encode.length = 584 + a.qeAuthData.parsedDataSize.toNat := by
  simp only [ECDSAQuoteV3AuthData.encode, List.length_append, length_toLeBytes,
    EnclaveReport.length_encode ha.pckSignedQeReport, ha.ecdsa256BitSignature,
    ha.ecdsaAttestationKey, ha.qeReportSignature, ha.data]
  omega

/-- A well-formed quote: both reports and the authentication data are. -/
structure ParsedV3QuoteStruct.WellFormed (q : ParsedV3QuoteStruct) : Prop where
  localEnclaveReport : q.localEnclaveReport.WellFormed
  v3AuthData : q.v3AuthData.WellFormed

/-- The quote bytes of `q`, with `certData` as the certificate window and `rest` after it: the
    header, the local report, the size of the authentication-data section as four
    little-endian bytes, then that section. -/
def encodeQuote (q : ParsedV3QuoteStruct) (certData rest : Bytes) : Bytes :=
  q.header.encode ++ q.localEnclaveReport.encode ++
    toLeBytes 4 (q.v3AuthData.encode ++ certData ++ rest).length ++
    (q.v3AuthData.encode ++ certData ++ rest)

section EncodeQuote

variable {q : ParsedV3QuoteStruct} {certData rest : Bytes}

theorem length_encodeQuote (hr : q.localEnclaveReport.WellFormed) :
    (encodeQuote q certData rest).length =
      436 + (q.v3AuthData.encode ++ certData ++ rest).length := by
  simp only [encodeQuote, List.length_append, Header.length_encode, EnclaveReport.length_encode hr,
    length_toLeBytes]

/-- The 432 bytes in front of the length field are the header and the local report. -/
theorem take_encodeQuote (hr : q.localEnclaveReport.WellFormed) :
    (encodeQuote q certData rest).take 432 = q.header.encode ++ q.localEnclaveReport.encode := by
  rw [encodeQuote, List.append_assoc _ (toLeBytes 4 _), List.take_left'
    (by rw [List.length_append, Header.length_encode, EnclaveReport.length_encode hr])]

/-- From byte 436 on is the authentication-data section. -/
theorem drop_encodeQuote (hr : q.localEnclaveReport.WellFormed) :
    (encodeQuote q certData rest).drop 436 = q.v3AuthData.encode ++ certData ++ rest :=
  List.drop_left' (by simp [Header.length_encode, EnclaveReport.length_encode hr])

end EncodeQuote

/-! ## Injectivity -/

theorem Header.encode_injective {h h' : Header} (e : h.encode = h'.encode) : h = h' := by
  simp only [Header.encode] at e
  obtain ⟨e, e7⟩ := List.append_inj' e (by simp [FixedArray.length_eq])
  obtain ⟨e, e6⟩ := List.append_inj' e (by simp [FixedArray.length_eq])
  obtain ⟨e, e5⟩ := List.append_inj' e (by simp [FixedArray.length_eq])
  obtain ⟨e, e4⟩ := List.append_inj' e (by simp [FixedArray.length_eq])
  obtain ⟨e, e3⟩ := List.append_inj' e (by simp [FixedArray.length_eq])
  obtain ⟨e1, e2⟩ := List.append_inj' e (by simp [FixedArray.length_eq])
  cases h; cases h'
  simp only [Header.mk.injEq, FixedArray.ext_iff]
  exact ⟨e1, e2, e3, e4, e5, e6, e7⟩

theorem EnclaveReport.encode_injective {r r' : EnclaveReport} (hr : r.WellFormed)
    (hr' : r'.WellFormed) (e : r.encode = r'.encode) : r = r' := by
  simp only [EnclaveReport.encode] at e
  obtain ⟨e, e12⟩ := List.append_inj' e (by rw [hr.reportData, hr'.reportData])
  obtain ⟨e, e11⟩ := List.append_inj' e (by rw [hr.reserved4, hr'.reserved4])
  obtain ⟨e, e10⟩ := List.append_inj' e (by simp)
  obtain ⟨e, e9⟩ := List.append_inj' e (by simp)
  obtain ⟨e, e8⟩ := List.append_inj' e (by rw [hr.reserved3, hr'.reserved3])
  obtain ⟨e, e7⟩ := List.append_inj' e (by simp [FixedArray.length_eq])
  obtain ⟨e, e6⟩ := List.append_inj' e (by simp [FixedArray.length_eq])
  obtain ⟨e, e5⟩ := List.append_inj' e (by simp [FixedArray.length_eq])
  obtain ⟨e, e4⟩ := List.append_inj' e (by simp [FixedArray.length_eq])
  obtain ⟨e, e3⟩ := List.append_inj' e (by simp [FixedArray.length_eq])
  obtain ⟨e1, e2⟩ := List.append_inj' e (by simp [FixedArray.length_eq])
  cases r; cases r'
  simp only [EnclaveReport.mk.injEq, FixedArray.ext_iff]
  exact ⟨e1, e2, e3, e4, e5, e6, e7, e8, toLeBytes_uInt16_inj e9, toLeBytes_uInt16_inj e10, e11,
    e12⟩

end SgxQuote
