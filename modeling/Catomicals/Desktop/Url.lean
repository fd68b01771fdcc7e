import Catomicals.Base.Outcome
import Mathlib.Data.Nat.Notation

/-!
# Texts and URLs of the desktop application

The application sees a URL through the parser of its runtime, which is a parameter here: the parts
of a URL are what that parser serializes. Lengths of texts are in UTF-16 units.
-/
namespace Catomicals.Desktop

open Base

def utf16Length (s : String) : ℕ := (s.toList.map fun c => if c.toNat < 0x10000 then 1 else 2).sum

/-- Whether the runtime counts a character as white space. -/
def isWhiteSpace (c : Char) : Bool :=
  let n := c.toNat
  (0x09 ≤ n && n ≤ 0x0d) || n == 0x20 || n == 0xa0 || n == 0x1680 || (0x2000 ≤ n && n ≤ 0x200a)
    || n == 0x2028 || n == 0x2029 || n == 0x202f || n == 0x205f || n == 0x3000 || n == 0xfeff

def isBlank (s : String) : Bool := s.toList.all isWhiteSpace

/-- The parts of a parsed URL that the application reads. -/
structure Url where
  (protocol hostname port username password pathname search hash origin : String)

/-- Whether a URL is an HTTP origin of this machine, without credentials. -/
def Url.isLoopbackOrigin (url : Url) : Bool :=
  url.protocol == "http:"
    && ["localhost", "127.0.0.1", "[::1]"].contains url.hostname.toLower
    && url.username == "" && url.password == ""
    && (url.pathname == "/" || url.pathname == "")
    && url.search == "" && url.hash == ""

variable (parseUrl : String → Except String Url)

def parseLoopbackWalletEndpoint (value : String) : Except String String := do
  require (utf16Length value ≤ 512) "invalid wallet loopback endpoint"
  let url ← parseUrl value
  require url.isLoopbackOrigin
    "wallet endpoint must be an unauthenticated loopback HTTP origin"
  pure url.origin

def parseLoopbackOrigin (value : String) : Except String Url := do
  let origin ← parseUrl value
  require origin.isLoopbackOrigin
    "wallet RP origin must be an unauthenticated loopback HTTP origin"
  pure origin

end Catomicals.Desktop
