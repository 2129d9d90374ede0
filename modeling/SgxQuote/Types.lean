import SgxQuote.Rust

/-!
# The `sol!` structs of the verifier call

The decoder's output is the argument of `SgxVerifier.registerInstance`, declared with alloy's
`sol!` macro (`sgx_register_utils.rs:11-80`). Solidity `bytesN` is alloy's `FixedBytes<N>`,
`bytes` is `Bytes`, `bytes[3]` is `[Bytes; 3]`, `uint16` is `u16` and `uint32` is `u32`.
Field names are the Solidity ones.

The decoder calls two libraries, `hex::decode` and `pem::parse_many`. Neither is code of this
repository, so they are parameters, `Libs`, and every result about the decoder holds for any
choice of them.
-/

namespace SgxQuote

/-- `struct Header` (`sgx_register_utils.rs:13-21`). -/
structure Header where
  version : FixedBytes 2
  attestationKeyType : FixedBytes 2
  teeType : FixedBytes 4
  qeSvn : FixedBytes 2
  pceSvn : FixedBytes 2
  qeVendorId : FixedBytes 16
  userData : FixedBytes 20
  deriving DecidableEq, Repr

/-- `struct EnclaveReport` (`sgx_register_utils.rs:24-38`). `reserved3`, `reserved4` and
    `reportData` are Solidity `bytes`: their width (96, 60 and 64 bytes) is the decoder's, not
    the type's. -/
structure EnclaveReport where
  cpuSvn : FixedBytes 16
  miscSelect : FixedBytes 4
  reserved1 : FixedBytes 28
  attributes : FixedBytes 16
  mrEnclave : FixedBytes 32
  reserved2 : FixedBytes 32
  mrSigner : FixedBytes 32
  reserved3 : Bytes
  isvProdId : UInt16
  isvSvn : UInt16
  reserved4 : Bytes
  reportData : Bytes
  deriving DecidableEq, Repr

/-- `struct QEAuthData` (`sgx_register_utils.rs:41-44`). -/
structure QEAuthData where
  parsedDataSize : UInt16
  data : Bytes
  deriving DecidableEq, Repr

/-- `struct CertificationData` (`sgx_register_utils.rs:47-54`). -/
structure CertificationData where
  certType : UInt16
  certDataSize : UInt32
  decodedCertDataArray : FixedArray Bytes 3
  deriving DecidableEq, Repr

/-- `struct ECDSAQuoteV3AuthData` (`sgx_register_utils.rs:57-64`). -/
structure ECDSAQuoteV3AuthData where
  ecdsa256BitSignature : Bytes
  ecdsaAttestationKey : Bytes
  pckSignedQeReport : EnclaveReport
  qeReportSignature : Bytes
  qeAuthData : QEAuthData
  certification : CertificationData
  deriving DecidableEq, Repr

/-- `struct ParsedV3QuoteStruct` (`sgx_register_utils.rs:67-71`), the decoder's result. -/
structure ParsedV3QuoteStruct where
  header : Header
  localEnclaveReport : EnclaveReport
  v3AuthData : ECDSAQuoteV3AuthData
  deriving DecidableEq, Repr

/-- A block of `pem::parse_many`'s result. The decoder reads only `pem.contents()`, the
    base64-decoded body. -/
structure Pem where
  contents : Bytes
  deriving DecidableEq, Repr

/-- The library calls of the decoder: `hex::decode` on the quote string and `pem::parse_many` on
    the certificate window. `none` is the `Err` the decoder unwraps. -/
structure Libs where
  hexDecode : String → Option Bytes
  parseMany : Bytes → Option (List Pem)

end SgxQuote
