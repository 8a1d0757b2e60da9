import ServiceDoc.Text.Code
import ServiceDoc.Text.Pieces

/-!
# Hosts

The host of a service is a host name, with or without a scheme, a port, a path, a query and a
fragment. It decides the address of a server, which always has the scheme `https`.
-/

namespace ServiceDoc

namespace Host

/-- A character of a scheme. -/
def isSchemeChar (c : Char) : Bool := c.isAlphanum || c == '+' || c == '-' || c == '.'

/-- What follows the scheme of an address; without a scheme, the address. -/
def afterScheme (address : List Char) : List Char :=
  let scheme := address.takeWhile (· ≠ ':')
  match address.drop scheme.length with
  | ':' :: rest => if scheme.head?.any Char.isAlpha && scheme.all isSchemeChar then rest else address
  | _ => address

/-- A piece of an address in version 6: up to four hexadecimal digits. -/
def isHextet (piece : List Char) : Bool :=
  !piece.isEmpty && piece.length ≤ 4 && piece.all fun c => (Text.hexValue? c).isSome

/-- A piece of an address in version 4: a number up to 255 without leading zeros. -/
def isOctet (piece : List Char) : Bool :=
  !piece.isEmpty && piece.length ≤ 3 && piece.all Text.isDigit &&
    (piece.length == 1 || piece.head? != some '0') && Text.ofDecimal piece ≤ 255

/-- An address in version 4. -/
def isVersion4 (text : List Char) : Bool :=
  let pieces := Text.cutAt '.' text
  pieces.length == 4 && pieces.all isOctet

/-- The pieces of an address in version 6; an address in version 4 at the end counts as two. -/
def version6Pieces? (text : List Char) : Option (List (List Char)) :=
  let pieces := Text.cutAt ':' text
  if pieces.length < 3 then none
  else match pieces.getLast? with
    | some last =>
      if last.contains '.' then
        if isVersion4 last then some (pieces.dropLast ++ [['0'], ['0']]) else none
      else some pieces
    | none => none

/-- An address in version 6 without its zone: eight pieces, or fewer with one gap `::`. -/
def isVersion6 (text : List Char) : Bool :=
  match version6Pieces? text with
  | none => false
  | some pieces =>
    let inner := (pieces.drop 1).dropLast
    let gaps := inner.countP List.isEmpty
    if 9 < pieces.length || 1 < gaps then false
    else if gaps = 1 then
      let high := pieces.take (1 + inner.idxOf [])
      let low := pieces.drop (2 + inner.idxOf [])
      let trim (side : List (List Char)) := if side = [[]] then [] else side
      (trim high ++ trim low).length ≤ 7 && (trim high).all isHextet && (trim low).all isHextet
    else pieces.length == 8 && pieces.all isHextet

/-- What can stand in square brackets: an address in version 6, perhaps with a zone, or one of a
later version after the letter `v`. -/
def isBracketed (text : List Char) : Bool :=
  match text with
  | 'v' :: rest =>
    let digits := rest.takeWhile fun c => (Text.hexValue? c).isSome
    !digits.isEmpty && match rest.drop digits.length with
      | '.' :: tail => !tail.isEmpty
      | _ => false
  | _ =>
    let (address, zone) := Text.cutOnce '%' text
    isVersion6 address && (!text.contains '%' || (!zone.isEmpty && !zone.contains '%'))

/-- Characters whose compatibility forms hold a delimiter of addresses. -/
def disguisedDelimiters : List Nat := [
  8263, 8264, 8265, 8448, 8449, 8453, 8454, 10868, 65043, 65046, 65109, 65110, 65119, 65131, 65283,
  65295, 65306, 65311, 65312]

/-- What has to be an address in a location with brackets: the host behind the last at sign, without
its brackets and its port. Nothing else can stand around the brackets. -/
def bracketedHost? (location : List Char) : Option (List Char) :=
  let host := (location.reverse.takeWhile (· ≠ '@')).reverse
  if host.contains '[' then
    let (before, inner) := Text.cutOnce '[' host
    let (address, port) := Text.cutOnce ']' inner
    if before.isEmpty && (port.isEmpty || port.head? == some ':') then some address else none
  else some (Text.cutOnce ':' host).1

/-- Whether a network location is well formed: it has both brackets or none, its host is an address
if it has brackets, and no character disguises a delimiter. -/
def isWellFormed (location : List Char) : Bool :=
  let opened := location.contains '['
  let closed := location.contains ']'
  opened == closed && (!opened || (bracketedHost? location).any isBracketed) &&
    location.all fun c => !disguisedDelimiters.contains c.toNat

/-- Text up to a separator, and the separator with what follows unless nothing follows. -/
def keepTail (separator : Char) (text : List Char) : List Char × List Char :=
  let head := text.takeWhile (· ≠ separator)
  let tail := text.drop head.length
  (head, if tail.length ≤ 1 then [] else tail)

/-- The address of the server on a host, `none` for a malformed host. A host without a network
location has no server. -/
def serverUrl? (host : String) : Option (Option String) :=
  let given := host.toList
  let address := if (Text.cutFirst ['/', '/'] given).isSome then given else '/' :: '/' :: given
  let visible := (address.dropWhile fun c => c.toNat ≤ 32).filter fun c =>
    c ≠ '\t' ∧ c ≠ '\r' ∧ c ≠ '\n'
  match afterScheme visible with
  | '/' :: '/' :: rest =>
    let location := rest.takeWhile fun c => c ≠ '/' ∧ c ≠ '?' ∧ c ≠ '#'
    if !isWellFormed location then none
    else if location.isEmpty then some none
    else
      let (untilFragment, fragment) := keepTail '#' (rest.drop location.length)
      let (path, query) := keepTail '?' untilFragment
      some (some ("https://" ++ String.ofList (location ++ path ++ query ++ fragment)))
  | _ => some none

end Host

end ServiceDoc
