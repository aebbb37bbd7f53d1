import DurableFlow.Number.Power
import DurableFlow.Text.Letters

/-!
# Addresses

Whether a text is an absolute address, by the rules of the URL standard: blanks and
controls around it are dropped, tabs and line ends within it are skipped, and then a
scheme, an authority with host and port, and whatever follows are looked at in turn.
-/

namespace DurableFlow

/-- Why a text is no absolute address. -/
inductive UrlFault where
  | relative
  | emptyHost
  | invalidPort
  | invalidIpv4
  | invalidIpv6
  /-- The host has a character that no host of this scheme may have. -/
  | invalidCharacter
  | invalidDomain
deriving DecidableEq, Repr

def UrlFault.message : UrlFault → String
  | relative => "relative URL without a base"
  | emptyHost => "empty host"
  | invalidPort => "invalid port number"
  | invalidIpv4 => "invalid IPv4 address"
  | invalidIpv6 => "invalid IPv6 address"
  | invalidCharacter => "invalid domain character"
  | invalidDomain => "invalid international domain name"

namespace Url

/-- The kinds of schemes, which read what follows them differently. -/
inductive SchemeKind where
  | file
  /-- The schemes of the web, which always have a host. -/
  | web
  | other
deriving DecidableEq, Repr

def SchemeKind.isSpecial : SchemeKind → Bool
  | other => false
  | file | web => true

def schemeKind (scheme : String) : SchemeKind :=
  if scheme = "file" then .file
  else if scheme ∈ ["http", "https", "ws", "wss", "ftp"] then .web
  else .other

/-- The text without the characters that are dropped around it and skipped within it. -/
def cleaned (text : String) : List Char :=
  let isBlank (c : Char) : Bool := c ≤ ' '
  let cs := text.toList.dropWhile isBlank
  let cs := (cs.reverse.dropWhile isBlank).reverse
  cs.filter fun c => !(c == '\t' || c == '\n' || c == '\r')

def isSchemePart (c : Char) : Bool :=
  c.isAlphanum || c == '+' || c == '-' || c == '.'

/-- The scheme in lower case and the text behind its colon. -/
def scheme? (cs : List Char) : Option (String × List Char) :=
  match cs with
  | c :: _ =>
    if c.isAlpha then
      match cs.dropWhile isSchemePart with
      | ':' :: rest =>
        some (Text.lowerAscii (String.ofList (cs.takeWhile isSchemePart)), rest)
      | _ => none
    else none
  | [] => none

/-- Where the authority of an address ends. -/
def endsAuthority (kind : SchemeKind) (c : Char) : Bool :=
  c == '/' || c == '?' || c == '#' || (kind.isSpecial && c == '\\')

/-- The text behind the last at sign of an authority, and whether a name or a password
stands before it. -/
def userInfo (kind : SchemeKind) (cs : List Char) : Except UrlFault (Bool × List Char) :=
  let authority := cs.takeWhile (!endsAuthority kind ·)
  if authority.contains '@' then
    let behind := (authority.reverse.takeWhile (· != '@')).reverse
    let info := authority.take (authority.length - behind.length - 1)
    let rest := cs.drop (info.length + 1)
    match info with
    | [] => if behind.isEmpty && !rest.isEmpty then .error .emptyHost else .ok (false, rest)
    | [':'] => .ok (false, rest)
    | _ => .ok (true, rest)
  else .ok (false, cs)

/-- The host at the start of a text and the text behind it. A colon within brackets
belongs to the host. -/
def splitHost (kind : SchemeKind) (bracketed : Bool) : List Char → List Char × List Char
  | [] => ([], [])
  | c :: rest =>
    if (c == ':' && !bracketed) || endsAuthority kind c then ([], c :: rest)
    else
      let bracketed := if c == '[' then true else if c == ']' then false else bracketed
      let (host, rest) := splitHost kind bracketed rest
      (c :: host, rest)

def hexValue? (c : Char) : Option Nat :=
  if c.isDigit then some (c.toNat - '0'.toNat)
  else if 'a' ≤ c ∧ c ≤ 'f' then some (c.toNat - 'a'.toNat + 10)
  else if 'A' ≤ c ∧ c ≤ 'F' then some (c.toNat - 'A'.toNat + 10)
  else none

/-- The bytes of a text in which two hexadecimal digits behind a percent sign stand for
the byte that they name. -/
def percentDecoded : List Char → List UInt8
  | '%' :: a :: b :: rest =>
    match hexValue? a, hexValue? b with
    | some x, some y => UInt8.ofNat (x * 16 + y) :: percentDecoded rest
    | _, _ => '%'.toUInt8 :: percentDecoded (a :: b :: rest)
  | c :: rest => (String.singleton c).toUTF8.toList ++ percentDecoded rest
  | [] => []

/-- Characters that no domain has. -/
def forbiddenInDomain (c : Char) : Bool :=
  c ≤ ' ' || c == '\x7f' || "#/:<>?@[\\]^|%".toList.contains c

/-- Characters that the host of another scheme may not have. -/
def forbiddenInHost (c : Char) : Bool :=
  "\x00\t\n\r #/:<>?@[\\]^|".toList.contains c

namespace Ipv6

/-- Up to four hexadecimal digits at the start of a text. -/
def piece (cs : List Char) : List Char := (cs.take 4).takeWhile fun c => (hexValue? c).isSome

/-- The four decimal parts of an address of the older form at the end of a text. -/
def dotted (parts : Nat) (cs : List Char) : Bool :=
  match parts with
  | 0 => cs.isEmpty
  | parts + 1 =>
    let digits := cs.takeWhile Char.isDigit
    let rest := cs.dropWhile Char.isDigit
    let value := digits.foldl (fun n d => n * 10 + (d.toNat - '0'.toNat)) 0
    let wellFormed := !digits.isEmpty && value ≤ 255 &&
      (digits.length = 1 || digits.head? != some '0')
    match parts, rest with
    | 0, [] => wellFormed
    | _ + 1, '.' :: rest => wellFormed && dotted parts rest
    | _, _ => false

/-- Read pieces between colons, `count` of them being read already. `short` tells whether
two colons have stood for a run of zeros. -/
def pieces (fuel count : Nat) (short : Bool) (cs : List Char) : Bool :=
  match fuel with
  | 0 => false
  | fuel + 1 =>
    match cs with
    | [] => if short then count ≤ 8 else count = 8
    | ':' :: rest => !short && count < 8 && pieces fuel (count + 1) true rest
    | _ =>
      if count = 8 then false
      else
        let digits := piece cs
        match cs.drop digits.length with
        | '.' :: _ =>
          !digits.isEmpty && count ≤ 6 && dotted 4 cs && (short || count + 2 = 8)
        | ':' :: rest => !rest.isEmpty && pieces fuel (count + 1) short rest
        | [] => !digits.isEmpty && pieces fuel (count + 1) short []
        | _ :: _ => false

/-- Whether the text between brackets is an address. -/
def isAddress (cs : List Char) : Bool :=
  match cs with
  | ':' :: ':' :: rest => pieces (cs.length + 1) 1 true rest
  | ':' :: _ => false
  | _ => pieces (cs.length + 1) 0 false cs

end Ipv6

namespace Ipv4

/-- A part of an address: decimal, octal behind a zero, hexadecimal behind `0x`. -/
def number? (part : List Char) : Option Nat :=
  let read (base : Nat) (cs : List Char) : Option Nat :=
    cs.foldlM (fun n c => ((hexValue? c).filter (· < base)).map (n * base + ·)) 0
  match part with
  | [] => none
  | '0' :: 'x' :: rest => read 16 rest
  | '0' :: 'X' :: rest => read 16 rest
  | '0' :: c :: rest => read 8 (c :: rest)
  | cs => read 10 cs

/-- Whether a domain ends in a number, so that it has to be an address. -/
def endsInNumber (parts : List (List Char)) : Bool :=
  let last? :=
    match parts.reverse with
    | [] :: last :: _ => some last
    | [[]] => none
    | last :: _ => some last
    | [] => none
  match last? with
  | none => false
  | some last => (!last.isEmpty && last.all Char.isDigit) || (number? last).isSome

/-- Whether the parts of a domain are an address. The last part holds all bytes that the
parts before it leave over. -/
def isAddress (parts : List (List Char)) : Bool :=
  let parts :=
    match parts.reverse with
    | [] :: rest => rest.reverse
    | _ => parts
  if parts.length > 4 then false
  else
    match parts.mapM number? with
    | none => false
    | some numbers =>
      match numbers.reverse with
      | [] => false
      | last :: before => before.all (· ≤ 255) && last < 256 ^ (5 - numbers.length)

end Ipv4

/-- The parts of a text between dots. -/
def splitDots (cs : List Char) : List (List Char) :=
  cs.foldr (fun c parts =>
    if c = '.' then [] :: parts
    else
      match parts with
      | part :: rest => (c :: part) :: rest
      | [] => [[c]]) [[]]

/-- The text between brackets, if the closing one is the last character. -/
def bracketed? (host : List Char) : Option (List Char) :=
  match host.reverse with
  | ']' :: inner => some (inner.reverse.drop 1)
  | _ => none

/-- Whether the host of an address with a special scheme is one. -/
def checkHost (host : List Char) : Except UrlFault Unit :=
  match host with
  | '[' :: _ =>
    match bracketed? host with
    | some inner => if Ipv6.isAddress inner then .ok () else .error .invalidIpv6
    | none => .error .invalidIpv6
  | _ =>
    match String.fromUTF8? ⟨(percentDecoded host).toArray⟩ with
    | none => .error .invalidDomain
    | some domain =>
      let cs := domain.toList
      if cs.any forbiddenInDomain then .error .invalidDomain
      else if cs.isEmpty then .error .emptyHost
      else
        let parts := splitDots cs
        if Ipv4.endsInNumber parts && !Ipv4.isAddress parts then .error .invalidIpv4
        else .ok ()

/-- Whether the host of an address with another scheme is one; it may be empty. -/
def checkOpaqueHost (host : List Char) : Except UrlFault Unit :=
  match host with
  | '[' :: _ => checkHost host
  | _ => if host.any forbiddenInHost then .error .invalidCharacter else .ok ()

/-- Whether a port is a number of sixteen bits. -/
def checkPort (port : Nat) : List Char → Except UrlFault Unit
  | [] => .ok ()
  | c :: rest =>
    if c.isDigit then
      let port := port * 10 + (c.toNat - '0'.toNat)
      if port > 65535 then .error .invalidPort else checkPort port rest
    else if c == '/' || c == '\\' || c == '?' || c == '#' then .ok ()
    else .error .invalidPort

/-- Whether host and port behind two slashes are well formed. -/
def checkAuthority (kind : SchemeKind) (cs : List Char) : Except UrlFault Unit := do
  let (named, rest) ← userInfo kind cs
  let (host, rest) := splitHost kind false rest
  if kind = .web && host.isEmpty then .error .emptyHost
  else
    if kind.isSpecial then checkHost host else checkOpaqueHost host
    match rest with
    | ':' :: port => if host.isEmpty then .error .emptyHost else checkPort 0 port
    | _ => if host.isEmpty && named then .error .emptyHost else .ok ()

/-- Whether the host of a file is one. A drive letter counts as part of the path. -/
def checkFileHost (cs : List Char) : Except UrlFault Unit :=
  let host := cs.takeWhile (!endsAuthority .file ·)
  match host with
  | [] => .ok ()
  | [a, b] => if a.isAlpha && (b == ':' || b == '|') then .ok () else checkHost host
  | _ => checkHost host

/-- Whether a text is an absolute address. -/
def check (text : String) : Except UrlFault Unit :=
  match scheme? (cleaned text) with
  | none => .error .relative
  | some (scheme, rest) =>
    let isSlash (c : Char) : Bool := c == '/' || c == '\\'
    match schemeKind scheme with
    | .web => checkAuthority .web (rest.dropWhile isSlash)
    | .file =>
      match rest with
      | a :: b :: rest => if isSlash a && isSlash b then checkFileHost rest else .ok ()
      | _ => .ok ()
    | .other =>
      match rest with
      | '/' :: '/' :: rest => checkAuthority .other rest
      | _ => .ok ()

end Url

/-- Whether a text may name the method of a request. -/
def isRequestMethod (text : String) : Bool :=
  !text.isEmpty && text.toList.all fun c =>
    c.isAlphanum || "!#$%&'*+-.^_\x60|~".toList.contains c

end DurableFlow
