import Tenancy.Json.Format
import Tenancy.Text.Numeral
import Tenancy.Time.Printer
import Tenancy.Time.Reader
import Tenancy.Uid

/-!
# Wire forms of scalars

Numbers of fixed width, times and identifiers as JSON.
-/

namespace Tenancy

open Json

namespace Json.Format

/-- Sizes and counts. -/
def size : Format Nat := natural "usize" Numeral.maxWord

/-- Unsigned numbers of 64 bits. -/
def word : Format Nat := natural "u64" Numeral.maxWord

/-- Unsigned numbers of 16 bits. -/
def short : Format Nat := natural "u16" 0xffff

/-- Signed numbers of 64 bits. -/
def signed : Format Int := integer "i64" (-0x8000000000000000) 0x7fffffffffffffff

end Json.Format

def Time.format : Format Time :=
  .spelled "an RFC 3339 formatted date and time string"
    (fun s => (Time.read s).mapError Time.Fault.message) Time.wireText

def Uid.format : Format Uid :=
  .spelled "a UUID string"
    (fun s => (Uid.read s).mapError fun fault => "UUID parsing failed: " ++ fault.message) Uid.text

end Tenancy
