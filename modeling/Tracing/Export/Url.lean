import Tracing.Text.Category
import Tracing.Text.Hex
import Tracing.Text.Integer
import Tracing.Text.Split

/-!
# Absolute URLs

Reading an absolute URL the way browsers do: blanks around it and line breaks in it do not count, any
number of slashes leads in the host of a web address, and a host may be a name, an IPv4 address in several
notations, or an IPv6 address in brackets. A web address is written back in its normal form (`Url.text`),
without credentials.
-/

namespace Tracing

open Text

/-- Why a text is not an absolute URL. -/
inductive UrlError where
  | relative
  | emptyHost
  | badPort
  | badIpv4
  | badIpv6
  | badDomainName
  | badDomainCharacter
deriving DecidableEq, Repr

def UrlError.message : UrlError → String
  | relative => "relative URL without a base"
  | emptyHost => "empty host"
  | badPort => "invalid port number"
  | badIpv4 => "invalid IPv4 address"
  | badIpv6 => "invalid IPv6 address"
  | badDomainName => "invalid international domain name"
  | badDomainCharacter => "invalid domain character"

structure Url where
  scheme : String
  /-- The host in normal form; empty if there is none. -/
  host : String := ""
  /-- The port, unless it is the usual one of the scheme. -/
  port : Option Nat := none
  /-- Path, query and fragment as given. -/
  rest : List Char := []
deriving DecidableEq, Repr

namespace Url

/-! ### Schemes -/

/-- Whether a character may stand in a scheme, behind its first letter. -/
def isSchemeChar (c : Char) : Bool := c.isAlphanum || c == '+' || c == '-' || c == '.'

/-- The scheme in lowercase, and what follows its colon. -/
def splitScheme (text : List Char) : Option (String × List Char) :=
  match splitOnce ':' text with
  | some (scheme, rest) =>
    if (scheme.head?.any Char.isAlpha) && scheme.all isSchemeChar then
      some (String.ofList (scheme.map Char.toLower), rest)
    else none
  | none => none

/-- The usual port of a web scheme. -/
def usualPort? : String → Option Nat
  | "http" => some 80
  | "https" => some 443
  | "ws" => some 80
  | "wss" => some 443
  | "ftp" => some 21
  | _ => none

/-- Whether a scheme is that of a web address. -/
def isWeb (scheme : String) : Bool := (usualPort? scheme).isSome

/-- Whether a character ends the authority of a URL; in a web address a backslash is a slash. -/
def endsAuthority (web : Bool) (c : Char) : Bool :=
  c == '/' || c == '?' || c == '#' || (web && c == '\\')

/-! ### IPv4 addresses -/

/-- The digits of a number in an address, with their base. -/
def ipv4Digits : List Char → Nat × List Char
  | '0' :: 'x' :: digits => (16, digits)
  | '0' :: 'X' :: digits => (16, digits)
  | '0' :: c :: digits => (8, c :: digits)
  | digits => (10, digits)

/-- A number of an address, decimal, octal or hexadecimal. -/
def ipv4Number (text : List Char) : Option Nat :=
  if text.isEmpty then none
  else
    let (base, digits) := ipv4Digits text
    if digits.all fun c => (Hex.digitValue? c).any (· < base) then
      some (digits.foldl (fun n c => n * base + (Hex.digitValue? c).getD 0) 0)
    else none

/-- Whether a host is meant as an IPv4 address: its last part, before a final dot, is a number. -/
def endsInNumber (host : List Char) : Bool :=
  match (splitOn '.' host).reverse with
  | [] :: last :: _ => isNumber last
  | last :: _ => isNumber last
  | [] => false
where
  isNumber (part : List Char) : Bool :=
    (!part.isEmpty && part.all Char.isDigit) || (ipv4Number part).isSome

/-- The address that some numbers make: the last of them fills all the bytes that are left. -/
def ipv4OfNumbers (numbers : List Nat) : Option Nat :=
  match numbers.reverse with
  | [] => none
  | last :: first =>
    let front := first.reverse
    if front.length ≤ 3 ∧ front.all (· ≤ 255) ∧ last < 1 <<< (8 * (4 - front.length)) then
      some (front.foldl (fun n byte => n * 256 + byte) 0 <<< (8 * (4 - front.length)) + last)
    else none

/-- An IPv4 address. -/
def readIpv4 (host : List Char) : Option Nat :=
  let parts := splitOn '.' host
  let parts := if parts.getLast? = some [] then parts.dropLast else parts
  (parts.mapM ipv4Number).bind ipv4OfNumbers

/-- An IPv4 address in normal form. -/
def writeIpv4 (address : Nat) : String :=
  ".".intercalate ([24, 16, 8, 0].map fun shift => toString ((address >>> shift) % 256))

/-! ### IPv6 addresses -/

/-- One piece of an IPv6 address, of one to four digits. -/
def ipv6Piece (text : List Char) : Option Nat :=
  if text.isEmpty ∨ 4 < text.length then none else Hex.readNat text

/-- A byte in decimal without leading zeros. -/
def ipv6Byte (text : List Char) : Option Nat :=
  match text with
  | '0' :: _ :: _ => none
  | _ => (Integer.readNat text).filter (· ≤ 255)

/-- The two pieces that an IPv4 address makes. -/
def ipv6Tail (text : List Char) : Option (List Nat) :=
  match (splitOn '.' text).mapM ipv6Byte with
  | some [a, b, c, d] => some [a * 256 + b, c * 256 + d]
  | _ => none

/-- The pieces between colons; the last may be an IPv4 address. -/
def ipv6Pieces : List (List Char) → Option (List Nat)
  | [] => some []
  | [last] => if '.' ∈ last then ipv6Tail last else (ipv6Piece last).map fun n => [n]
  | piece :: rest => do return (← ipv6Piece piece) :: (← ipv6Pieces rest)

/-- The text before and after the first double colon. -/
def splitGap : List Char → Option (List Char × List Char)
  | ':' :: ':' :: rest => some ([], rest)
  | c :: rest => (splitGap rest).map fun (before, after) => (c :: before, after)
  | [] => none

/-- The pieces of one side of a double colon, which may be empty. -/
def ipv6Side (text : List Char) : Option (List Nat) :=
  if text.isEmpty then some [] else ipv6Pieces (splitOn ':' text)

/-- The eight pieces of an IPv6 address; a double colon stands for one zero piece or more. -/
def readIpv6 (text : List Char) : Option (List Nat) :=
  match splitGap text with
  | none => (ipv6Pieces (splitOn ':' text)).filter (·.length == 8)
  | some (before, after) => do
    let front ← if '.' ∈ before then none else ipv6Side before
    let back ← ipv6Side after
    if front.length + back.length ≤ 7 then
      return front ++ List.replicate (8 - front.length - back.length) 0 ++ back
    else none

/-- The length of the run of zeros at the front. -/
def zeroRun (pieces : List Nat) : Nat := (pieces.takeWhile (· == 0)).length

/-- Where the first longest run of zeros stands, and its length. -/
def longestGap (pieces : List Nat) : Nat × Nat :=
  (List.range pieces.length).foldl
    (fun best i => if best.2 < zeroRun (pieces.drop i) then (i, zeroRun (pieces.drop i)) else best)
    (0, 0)

/-- An IPv6 address in normal form: the first longest run of two zeros or more becomes a double colon. -/
def writeIpv6 (pieces : List Nat) : String :=
  let written (ps : List Nat) := ":".intercalate (ps.map fun n => String.ofList (Hex.writeShort n))
  let (start, length) := longestGap pieces
  if length < 2 then "[" ++ written pieces ++ "]"
  else "[" ++ written (pieces.take start) ++ "::" ++ written (pieces.drop (start + length)) ++ "]"

/-! ### Hosts -/

/-- The bytes of a text with its percent escapes resolved. -/
def percentDecode : List Char → List UInt8
  | '%' :: a :: b :: rest =>
    match Hex.digitValue? a, Hex.digitValue? b with
    | some high, some low => UInt8.ofNat (high * 16 + low) :: percentDecode rest
    | _, _ => 37 :: percentDecode (a :: b :: rest)
  | c :: rest => (String.singleton c).toUTF8.toList ++ percentDecode rest
  | [] => []

/-- The text of a host with its percent escapes resolved, if that is a text at all. -/
def decodeHost (host : List Char) : Option (List Char) :=
  (String.fromUTF8? ⟨(percentDecode host).toArray⟩).map String.toList

/-- Whether a domain name must not hold a character. -/
def isForbidden (c : Char) : Bool :=
  if c.toNat < 0x80 then c.toNat ≤ 0x20 || c.toNat == 0x7f || "#%/:<>?@[\\]^`|".contains c
  else match Category.ofChar c with
    | .cn | .co | .cs | .cc | .zs | .zl | .zp => true
    | _ => false

/-- Whether an opaque host must not hold a character. -/
def isForbiddenOpaque (c : Char) : Bool := c == '\x00' || " #/:<>?@[\\]^|".contains c

/-- What stands in brackets, if the text starts with one. -/
def readBracketed (host : List Char) : Option (Except UrlError String) :=
  match host with
  | '[' :: inner =>
    if inner.getLast? = some ']' then
      match readIpv6 inner.dropLast with
      | some pieces => some (.ok (writeIpv6 pieces))
      | none => some (.error .badIpv6)
    else some (.error .badIpv6)
  | _ => none

/-- The normal form of the host of a web address. -/
def readHost (host : List Char) : Except UrlError String :=
  match readBracketed host with
  | some read => read
  | none =>
    match decodeHost host with
    | none => .error .badDomainName
    | some name =>
      if name.any isForbidden then .error .badDomainName
      else if name.isEmpty then .error .emptyHost
      else if endsInNumber name then
        match readIpv4 name with
        | some address => .ok (writeIpv4 address)
        | none => .error .badIpv4
      else .ok (String.ofList (name.map Char.toLower))

/-- A host that is kept as it is. -/
def readOpaqueHost (host : List Char) : Except UrlError String :=
  match readBracketed host with
  | some read => read
  | none =>
    if host.any isForbiddenOpaque then .error .badDomainCharacter else .ok (String.ofList host)

/-! ### Authorities -/

/-- The text before the last `@`, if there is one, and the text behind it. -/
def splitCredentials (authority : List Char) : Option (List Char) × List Char :=
  match splitOnce '@' authority.reverse with
  | some (host, credentials) => (some credentials.reverse, host.reverse)
  | none => (none, authority)

/-- The host and what follows it, from its colon on; colons in brackets belong to the host. -/
def splitHost : (inBrackets : Bool) → List Char → List Char × List Char
  | _, [] => ([], [])
  | inBrackets, c :: rest =>
    if c = ':' ∧ inBrackets = false then ([], c :: rest)
    else
      let (host, port) := splitHost (c == '[' || (inBrackets && c != ']')) rest
      (c :: host, port)

/-- A port number behind its colon; it may be empty. -/
def readPort (text : List Char) : Except UrlError (Option Nat) :=
  match text with
  | [] => .ok none
  | _ :: [] => .ok none
  | _ :: digits =>
    match Integer.readNat (digits.takeWhile (· != '\\')) with
    | some n => if n < 65536 then .ok (some n) else .error .badPort
    | none => .error .badPort

/-- Reads the authority of a URL and keeps the rest. -/
def readAuthority (scheme : String) (text : List Char) : Except UrlError Url := do
  let web := isWeb scheme
  let authority := text.takeWhile (!endsAuthority web ·)
  let rest := text.dropWhile (!endsAuthority web ·)
  let (credentials, hostAndPort) := splitCredentials authority
  if credentials = some [] ∧ hostAndPort = [] ∧ rest ≠ [] then throw .emptyHost
  let (hostText, portText) := splitHost false hostAndPort
  if hostText.isEmpty ∧ web then throw .emptyHost
  let host ← if web then readHost hostText else readOpaqueHost hostText
  if host.isEmpty ∧ portText ≠ [] then throw .emptyHost
  let port ← readPort portText
  if host.isEmpty ∧ (credentials.any fun c => c ≠ [] ∧ c ≠ [':']) then throw .emptyHost
  return { scheme, host, port := port.filter (usualPort? scheme != some ·), rest }

/-! ### Files -/

def isDrive : List Char → Bool
  | [letter, mark] => letter.isAlpha && (mark == ':' || mark == '|')
  | _ => false

def isSlash (c : Char) : Bool := c == '/' || c == '\\'

/-- Reads what follows the scheme of a file. -/
def readFile (text : List Char) : Except UrlError Url :=
  match text with
  | a :: b :: path =>
    let hostText := path.takeWhile (!endsAuthority true ·)
    if isSlash a && isSlash b && !hostText.isEmpty && !isDrive hostText then do
      let host ← readHost hostText
      return { scheme := "file", host, rest := path.dropWhile (!endsAuthority true ·) }
    else .ok { scheme := "file", rest := text }
  | _ => .ok { scheme := "file", rest := text }

/-! ### Reading -/

/-- Whether a character does not count at the ends of a URL. -/
def isPadding (c : Char) : Bool := c.toNat ≤ 0x20

/-- Whether a character does not count anywhere in a URL. -/
def isSkipped (c : Char) : Bool := c == '\t' || c == '\n' || c == '\r'

/-- The characters of a URL that count. -/
def significant (text : List Char) : List Char :=
  (((text.dropWhile isPadding).reverse.dropWhile isPadding).reverse).filter (!isSkipped ·)

/-- Reads what follows the colon of a scheme. -/
def readBehind (scheme : String) (text : List Char) : Except UrlError Url :=
  if scheme = "file" then readFile text
  else if isWeb scheme then readAuthority scheme (text.dropWhile isSlash)
  else match text with
    | '/' :: '/' :: authority => readAuthority scheme authority
    | _ => .ok { scheme, rest := text }

/-- Reads an absolute URL. -/
def read (text : List Char) : Except UrlError Url :=
  match splitScheme (significant text) with
  | some (scheme, rest) => readBehind scheme rest
  | none => .error .relative

/-! ### Writing web addresses -/

/-- The percent escape of a byte. -/
def escapeByte (b : UInt8) : List Char :=
  '%' :: (Hex.write 2 b.toNat).map Char.toUpper

/-- A character of which others than those given, controls and all beyond ASCII are escaped. -/
def escape (escaped : String) (c : Char) : List Char :=
  if c.toNat < 0x20 ∨ 0x7f ≤ c.toNat ∨ escaped.contains c then
    (String.singleton c).toUTF8.toList.flatMap escapeByte
  else [c]

/-- Whether a segment of a path stands for the same place. -/
def isSingleDot (segment : List Char) : Bool :=
  [".", "%2e"].contains (String.ofList (segment.map Char.toLower))

/-- Whether a segment of a path stands for the place above. -/
def isDoubleDot (segment : List Char) : Bool :=
  ["..", ".%2e", "%2e.", "%2e%2e"].contains (String.ofList (segment.map Char.toLower))

/-- The segments of a path, dots resolved. `done` holds those before, last first. -/
def resolveDots (done : List (List Char)) : List (List Char) → List (List Char)
  | [] => done.reverse
  | [last] =>
    if isDoubleDot last then (([] : List Char) :: done.tail).reverse
    else if isSingleDot last then (([] : List Char) :: done).reverse
    else (last :: done).reverse
  | segment :: rest =>
    if isDoubleDot segment then resolveDots done.tail rest
    else if isSingleDot segment then resolveDots done rest
    else resolveDots (segment :: done) rest

/-- The path of a web address in normal form. -/
def normalPath (path : List Char) : List Char :=
  let path := path.map fun c => if c = '\\' then '/' else c
  let segments := resolveDots [] (splitOn '/' (match path with
    | '/' :: inner => inner
    | inner => inner))
  '/' :: joinWith ['/'] (segments.map fun segment => segment.flatMap (escape " \"<>`#?\x7b\x7d"))

/-- The text before a mark, and the text from it on. -/
def splitAtMark (mark : Char) (text : List Char) : List Char × List Char :=
  (text.takeWhile (· != mark), text.dropWhile (· != mark))

/-- Path and query of a web address: what a request asks for. -/
def target (u : Url) : String :=
  let (path, query) := splitAtMark '?' (splitAtMark '#' u.rest).1
  String.ofList (normalPath path ++ query.flatMap (escape " \"#<>'"))

/-- The fragment of a web address with its mark; empty if there is none. -/
def fragment (u : Url) : String :=
  String.ofList ((splitAtMark '#' u.rest).2.flatMap (escape " \"<>`"))

/-- A web address in normal form. -/
def text (u : Url) : String :=
  u.scheme ++ "://" ++ u.host ++ ((u.port.map fun n => ":" ++ toString n).getD "") ++ u.target
    ++ u.fragment

end Url

end Tracing
