/-!
# Web addresses

An address names a scheme, a host and what is asked of the host: a path and perhaps a query. A
request line holds the path and the query in a normal form. Segments of one or two dots are worked
off, and every character that must not stand there is replaced by its bytes in hexadecimal. What
follows a hash sign stays with whoever asks.
-/

namespace Orchestration

namespace Http

/-- A text without the slashes at its end. -/
def withoutSlashes (s : String) : String :=
  String.ofList (s.toList.reverse.dropWhile (· = '/')).reverse

structure Address where
  scheme : String
  host : String
  /-- The path with the query. -/
  target : String
deriving DecidableEq, Repr, Inhabited

namespace Address

/-- A digit of a hexadecimal number below 16. -/
def hexDigit (n : Nat) : Char := (Nat.digitChar n).toUpper

/-- A byte in hexadecimal behind a percent sign. -/
def escapeByte (b : UInt8) : List Char := ['%', hexDigit (b.toNat / 16), hexDigit (b.toNat % 16)]

/-- A text in which certain characters, and all that are not ASCII, are escaped. -/
def escape (special : List Char) (cs : List Char) : List Char :=
  cs.flatMap fun c =>
    if c.toNat < 32 || 126 < c.toNat || special.contains c then
      c.toString.toUTF8.toList.flatMap escapeByte
    else [c]

/-- The characters that are escaped in a path. -/
def pathSpecial : List Char := [' ', '"', '#', '<', '>', '?', '\x60', '\x7b', '\x7d', '^']

/-- The characters that are escaped in a query. -/
def querySpecial : List Char := [' ', '"', '#', '<', '>', '\'']

/-- Whether a segment of a path stands for where it is. -/
def isSingleDot (segment : List Char) : Bool :=
  [".", "%2e"].contains (String.ofList (segment.map Char.toLower))

/-- Whether a segment of a path leads one level up. -/
def isDoubleDot (segment : List Char) : Bool :=
  ["..", ".%2e", "%2e.", "%2e%2e"].contains (String.ofList (segment.map Char.toLower))

/-- Cuts a text at every character of a kind. -/
def splitAt (stop : Char → Bool) : List Char → List (List Char)
  | [] => [[]]
  | c :: rest =>
    if stop c then [] :: splitAt stop rest
    else
      match splitAt stop rest with
      | segment :: others => (c :: segment) :: others
      | [] => [[c]]

/-- Works off the segments of dots, the last segment first in `done`. -/
def resolveDots : List (List Char) → List (List Char) → List (List Char)
  | done, [] => done.reverse
  | done, [segment] =>
    if isDoubleDot segment then ([] :: done.tail).reverse
    else if isSingleDot segment then ([] :: done).reverse
    else (segment :: done).reverse
  | done, segment :: rest =>
    if isDoubleDot segment then resolveDots done.tail rest
    else if isSingleDot segment then resolveDots done rest
    else resolveDots (segment :: done) rest

def normalPath (path : List Char) : List Char :=
  let segments := splitAt (fun c => c = '/' || c = '\\') path
  let segments := match segments with
    | [] :: rest => rest
    | _ => segments
  (resolveDots [] segments).flatMap fun segment => '/' :: escape pathSpecial segment

/-- The normal form of what is asked of a host. -/
def normalTarget (cs : List Char) : String :=
  let cs := cs.takeWhile (· ≠ '#')
  let path := cs.takeWhile (· ≠ '?')
  let query := match cs.dropWhile (· ≠ '?') with
    | '?' :: rest => '?' :: escape querySpecial rest
    | _ => []
  String.ofList (normalPath path ++ query)

/-- Whether a text is a host with perhaps a port. -/
def isHost (cs : List Char) : Bool :=
  let port := (cs.dropWhile (· ≠ ':')).drop 1
  let host := cs.takeWhile (· ≠ ':')
  !host.isEmpty && !host.any (fun c => c.toNat ≤ 32 || "<>^|%\"\\".toList.contains c) &&
    port.all Char.isDigit && (port.foldl (fun n c => n * 10 + (c.toNat - 48)) 0) < 65536

/-- The schemes of addresses that name a host, however many slashes stand in front of it. -/
def hostSchemes : List String := ["http", "https", "ws", "wss", "ftp"]

/-- The scheme of an address, in small letters, and what follows its colon. -/
def splitScheme? (cs : List Char) : Option (String × List Char) :=
  let scheme := cs.takeWhile fun c => c.isAlphanum || ['+', '-', '.'].contains c
  match scheme, cs.drop scheme.length with
  | c :: _, ':' :: rest =>
    if c.isAlpha then some (String.ofList (scheme.map Char.toLower), rest) else none
  | _, _ => none

/-- What follows the slashes in front of a host. -/
def afterSlashes? (scheme : String) (cs : List Char) : Option (List Char) :=
  if hostSchemes.contains scheme then some (cs.dropWhile fun c => c = '/' || c = '\\')
  else
    match cs with
    | '/' :: '/' :: rest => some rest
    | _ => none

/-- What follows the last sign of a kind in a text, the whole text if it has none. -/
def afterLast (stop : Char) (cs : List Char) : List Char :=
  (cs.reverse.takeWhile (· ≠ stop)).reverse

/-- The address that a text spells. What names a user in front of the host is left out. -/
def parse? (s : String) : Option Address := do
  let isMargin (c : Char) := c.toNat ≤ 32
  let cs := ((s.toList.dropWhile isMargin).reverse.dropWhile isMargin).reverse
  let cs := cs.filter (· ∉ ['\t', '\n', '\r'])
  let (scheme, cs) ← splitScheme? cs
  let cs ← afterSlashes? scheme cs
  let authority := cs.takeWhile (· ∉ ['/', '?', '#', '\\'])
  let host := afterLast '@' authority
  if isHost host then
    some ⟨scheme, String.ofList host, normalTarget (cs.drop authority.length)⟩
  else none

end Address

end Http

end Orchestration
