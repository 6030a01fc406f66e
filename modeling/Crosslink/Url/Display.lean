import Crosslink.Text.Blank
import Crosslink.Text.Letter
import Crosslink.Url.Percent
import Crosslink.Url.Punycode

namespace Crosslink
namespace Url

/-!
How a URL is shown to a reader: cut into protocol, user, host, port and the rest,
the host written in Unicode, encoded bytes read back, and put together again.
-/

structure Parts where
  /-- The protocol with its colon. -/
  protocol : Text
  /-- Two slashes follow the protocol. -/
  slashes : Bool
  /-- What stands before `@`. -/
  user : Text
  /-- The host without brackets. -/
  host : Text
  /-- The digits of the port. -/
  port : Text
  /-- Path, query and fragment. -/
  rest : Text
  deriving Repr, DecidableEq

def isProtocolChar (c : Char) : Bool :=
  isLatin c || isAsciiDigit c || c = '.' || c = '+' || c = '-'

/-- Protocols whose host needs two slashes before it. -/
def slashedProtocols : List Text :=
  ["http:", "https:", "ftp:", "gopher:", "file:"]

/-- Protocols whose host may be internationalised. -/
def recodedProtocols : List Text :=
  ["http:", "https:", "mailto:"]

/-- A character that ends the host and the user before it. -/
def endsAuthority (c : Char) : Bool :=
  c = '/' || c = '?' || c = '#'

def endsHost (c : Char) : Bool :=
  ("%/?;#'\x7b\x7d|\\^\x60<>\" \r\n\t" : Text).contains c

def isHostChar (c : Char) : Bool :=
  isAsciiLetter c || isAsciiDigit c || c = '+' || c = '_' || c = '-'

/-- The most characters that a part of a host may have. -/
def longestHostPart : Nat := 63

/-- The most characters that a host may have. -/
def longestHost : Nat := 255

/-- A part of a host is well formed; characters outside ASCII are allowed. -/
def isHostPart (part : Text) : Bool :=
  part.length ≤ longestHostPart && part.all fun c => isHostChar c || 0x7F < c.toNat

/-- Cut a text at the last occurrence of a character before the first one that ends
the authority. -/
def cutUser (text : Text) : Text × Text :=
  let authority := text.takeWhile (!endsAuthority ·)
  if authority.contains '@' then
    let host := (authority.reverse.takeWhile (· != '@')).reverse
    let user := authority.take (authority.length - host.length - 1)
    (user, text.drop (user.length + 1))
  else ([], text)

def cutPort (host : Text) : Text × Text :=
  let digits := (host.reverse.takeWhile isAsciiDigit).reverse
  let before := host.take (host.length - digits.length)
  if Text.endsWith before [':'] then (before.dropLast, digits) else (host, [])

/-- The host that the parts of a name form up to the first ill-formed one, and what is
left of them.  An ill-formed part still gives the host its well-formed beginning. -/
def validHost : List Text → List Text × List Text
  | [] => ([], [])
  | part :: parts =>
    if isHostPart part then
      let (valid, left) := validHost parts
      (part :: valid, left)
    else
      let start := (part.take longestHostPart).takeWhile isHostChar
      ([start], part.drop start.length :: parts)

def isBracketed (host : Text) : Bool :=
  host.startsWith ['['] && host.endsWith [']']

/-- Take the host off a text that begins with one. -/
def cutHost (text : Text) : Text × Text × Text :=
  let named := text.takeWhile (!endsHost ·)
  let authority := if Text.endsWith named [':'] then named.dropLast else named
  let behind := text.drop authority.length
  let (host, port) := cutPort authority
  if isBracketed host then
    ((if longestHost < host.length then [] else host.tail.dropLast), port, behind)
  else
    let (valid, left) := validHost (host.splitOn '.')
    let name := Text.join ['.'] valid
    ((if longestHost < name.length then [] else name), port, Text.join ['.'] left ++ behind)

def split (url : Text) : Parts :=
  let text := url.trim
  let name := text.takeWhile isProtocolChar
  let protocol :=
    if !name.isEmpty && Text.startsWith (text.drop name.length) [':'] then name ++ [':'] else []
  let behind := text.drop protocol.length
  let isHostless : Bool := protocol = "javascript:"
  let slashes := Text.startsWith behind "//" && !isHostless
  let rest := if slashes then behind.drop 2 else behind
  if !isHostless && (slashes || (!protocol.isEmpty && !slashedProtocols.contains protocol)) then
    let (user, named) := cutUser rest
    let (host, port, rest) := cutHost named
    { protocol, slashes, user, host, port, rest }
  else { protocol, slashes, user := [], host := [], port := [], rest }

def isLabelDot (c : Char) : Bool :=
  c = '.' || c = '\u3002' || c = '\uFF0E' || c = '\uFF61'

/-- The ASCII small letter for a capital one. -/
def lowered (text : Text) : Text :=
  text.map Char.toLower

def unicodeLabel? (label : Text) : Option Text :=
  if label.startsWith "xn--" then decodeLabel? (lowered (label.drop 4)) else some label

/-- A host in Unicode; as it is if one of its labels cannot be read. -/
def unicodeHost (host : Text) : Text :=
  let labels := Text.splitOn '.' (host.map fun c => if isLabelDot c then '.' else c)
  match labels.mapM unicodeLabel? with
  | some decoded => Text.join ['.'] decoded
  | none => host

def Parts.render (parts : Parts) : Text :=
  parts.protocol ++ (if parts.slashes then ['/', '/'] else [])
    ++ (if parts.user.isEmpty then [] else parts.user ++ ['@'])
    ++ (if parts.host.contains ':' then '[' :: parts.host ++ [']'] else parts.host)
    ++ (if parts.port.isEmpty then [] else ':' :: parts.port)
    ++ parts.rest

/-- A URL as it is shown to a reader. -/
def displayed (url : Text) : Text :=
  let parts := split url
  let isRecoded := parts.protocol.isEmpty || recodedProtocols.contains parts.protocol
  let host := if isRecoded then unicodeHost parts.host else parts.host
  decode { parts with host }.render

end Url

end Crosslink
