import SgxQuote.Rust
import SgxQuote.LittleEndian
import SgxQuote.Hex
import SgxQuote.Types
import SgxQuote.Layout
import SgxQuote.Report
import SgxQuote.AuthData
import SgxQuote.Quote
import SgxQuote.RoundTrip
