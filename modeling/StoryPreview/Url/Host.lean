import StoryPreview.Number.Literal
import StoryPreview.Url.Domain
import StoryPreview.Url.Fault
/-!
Hosts of URLs. A host is checked and not kept: an address of IPv6 in brackets; in web URLs a domain,
or an address of IPv4 if its last label is a number; in other URLs a text without forbidden
characters.
-/
namespace StoryPreview.Url

/-- A number of an IPv4 address: decimal, octal after `0`, hexadecimal after `0x`. -/
def ipv4Number? (cs : List Char) : Option Nat :=
  let based (base : Nat) (ds : List Char) : Option Nat :=
    ds.foldlM (fun n d => (hexDigit? d).bind fun k => if k < base then some (base * n + k)
      else none) 0
  match cs with
  | [] => none
  | '0' :: x :: ds => if x = 'x' ∨ x = 'X' then based 16 ds else based 8 (x :: ds)
  | ds => based 10 ds

/-- Whether the last label of a domain, one empty label at the end aside, is a number. -/
def endsInNumber (labels : List (List Char)) : Bool :=
  let last := match labels.reverse with
    | [] :: last :: _ => last
    | last :: _ => last
    | [] => []
  !last.isEmpty && (last.all isDigit || (ipv4Number? last).isSome)

/-- Up to four numbers; the last fills the bytes that are left. -/
def isIpv4 (labels : List (List Char)) : Bool :=
  let labels := if labels.getLast? = some [] then labels.dropLast else labels
  match labels.mapM ipv4Number? with
  | none => false
  | some numbers =>
    numbers.length ≤ 4 && numbers.dropLast.all (· ≤ 255) &&
      numbers.getLast?.any (· < Nat.pow 256 (5 - numbers.length))

def isIpv4Tail (cs : List Char) : Bool :=
  let parts := Text.splitOn '.' cs
  parts.length == 4 && parts.all fun ds =>
    !ds.isEmpty && ds.all isDigit && (ds.length == 1 || ds.head? != some '0') &&
      digitsValue ds ≤ 255

/-- Reads the pieces of an IPv6 address: how many there have been, and whether a gap. The number
bounds the pieces. -/
def isIpv6From : Nat → Nat → Bool → List Char → Bool
  | _, pieces, gap, [] => gap || pieces == 8
  | 0, _, _, _ => false
  | fuel + 1, pieces, gap, cs =>
    if pieces == 8 then false
    else
      match cs with
      | ':' :: rest => !gap && isIpv6From fuel (pieces + 1) true rest
      | _ =>
        let ds := (cs.take 4).takeWhile fun c => (hexDigit? c).isSome
        match cs.drop ds.length with
        | [] => isIpv6From fuel (pieces + 1) gap []
        | [':'] => false
        | ':' :: rest => isIpv6From fuel (pieces + 1) gap rest
        | '.' :: _ =>
          !ds.isEmpty && pieces ≤ 6 && isIpv4Tail cs && (gap || pieces + 2 == 8)
        | _ => false

def isIpv6 : List Char → Bool
  | ':' :: ':' :: rest => isIpv6From 9 1 true rest
  | ':' :: _ => false
  | [] | [_] => false
  | cs => isIpv6From 9 0 false cs

def isForbiddenHostChar (c : Char) : Bool :=
  c ∈ ['\x00', '\t', '\n', '\r', ' ', '#', '/', ':', '<', '>', '?', '@', '[', '\\', ']', '^', '|']

def checkHost (web : Bool) (cs : List Char) : Except Fault Unit :=
  match cs with
  | '[' :: rest =>
    if rest.getLast? = some ']' ∧ isIpv6 rest.dropLast then .ok () else .error .badIpv6
  | _ =>
    if web then
      match domainLabels? (Percent.bytes cs) with
      | none => .error .badDomain
      | some labels =>
        if labels = [[]] then .error .emptyHost
        else if endsInNumber labels then (if isIpv4 labels then .ok () else .error .badIpv4)
        else .ok ()
    else if cs.any isForbiddenHostChar then .error .badHostCharacter
    else .ok ()

end StoryPreview.Url
