import StoryPreview.Url.Host
import StoryPreview.Url.Path
/-!
Reading URLs, absolute ones and ones relative to a base. Of a URL its scheme, path and query are
kept; user names, host and port are checked, and the fragment is left out. Spaces and controls
around a URL and tabs and line breaks anywhere in it do not count.
-/
namespace StoryPreview

structure Url where
  scheme : List Char
  /-- Whether the path is a text without structure. -/
  opaquePath : Bool
  path : List Char
  query : Option (List Char)
  deriving DecidableEq, Repr

namespace Url

def kind (u : Url) : SchemeKind := .ofScheme u.scheme

def clean (s : String) : List Char :=
  let edge := fun c : Char => c.toNat ≤ 0x20
  (Text.dropEndWhile edge (s.toList.dropWhile edge)).filter fun c => c ≠ '\t' ∧ c ≠ '\n' ∧ c ≠ '\r'

def scheme? (cs : List Char) : Option (List Char × List Char) :=
  match Text.splitFirst? ':' cs with
  | some (c :: scheme, rest) =>
    if isLetter c ∧ scheme.all fun d => Percent.isAlphanumeric d || d ∈ ['+', '-', '.'] then
      some ((c :: scheme).map Char.toLower, rest)
    else none
  | _ => none

def splitQuery (cs : List Char) : List Char × Option (List Char) :=
  let cs := cs.takeWhile (· ≠ '#')
  match Text.splitFirst? '?' cs with
  | some (before, query) => (before, some query)
  | none => (cs, none)

def endsAuthority (kind : SchemeKind) (c : Char) : Bool :=
  kind.isSlash c || c == '?' || c == '#'

/-- The characters of a host at the start of a text: up to a colon outside of brackets. -/
def hostLength : Bool → List Char → Nat
  | _, [] => 0
  | inside, c :: cs =>
    if c == ':' && !inside then 0
    else hostLength (if c == '[' then true else if c == ']' then false else inside) cs + 1

def dropPort (cs : List Char) : Except Fault (List Char) :=
  let ds := cs.takeWhile isDigit
  if 65535 < digitsValue ds then .error .badPort
  else
    match cs.drop ds.length with
    | [] => .ok []
    | c :: rest =>
      if c = '/' ∨ c = '\\' ∨ c = '?' ∨ c = '#' then .ok (c :: rest) else .error .badPort

def dropUser (kind : SchemeKind) (cs : List Char) : Except Fault (Bool × List Char) :=
  let authority := cs.takeWhile fun c => !endsAuthority kind c
  match (authority.reverse.dropWhile (· ≠ '@')).reverse with
  | [] => .ok (false, cs)
  | user =>
    let rest := cs.drop user.length
    if user = ['@'] then
      match rest with
      | c :: _ => if endsAuthority kind c then .error .emptyHost else .ok (false, rest)
      | [] => .ok (false, rest)
    else .ok (user ≠ [':', '@'], rest)

def dropAuthority (kind : SchemeKind) (cs : List Char) : Except Fault (List Char) := do
  let (user, cs) ← dropUser kind cs
  let authority := cs.takeWhile fun c => !endsAuthority kind c
  let host := authority.take (hostLength false authority)
  let rest := cs.drop host.length
  if host = [] ∧ kind = .web then .error .emptyHost
  else
    checkHost (kind = .web) host
    match rest with
    | ':' :: port => if host = [] then .error .emptyHost else dropPort port
    | _ => if host = [] ∧ user then .error .emptyHost else .ok rest

def afterAuthority (scheme : List Char) (cs : List Char) : Url :=
  let kind := SchemeKind.ofScheme scheme
  let (path, query) := splitQuery cs
  { scheme, query, opaquePath := false
    path := if kind = .other ∧ path = [] then [] else pathFrom kind [] (dropSlash kind path) }

def afterSlashes (scheme cs : List Char) : Except Fault Url := do
  let rest ← dropAuthority (.ofScheme scheme) cs
  .ok (afterAuthority scheme rest)

def startsWithDrive (cs : List Char) : Bool :=
  isDrive (cs.take 2) && (cs.drop 2).head?.all (endsAuthority .file)

/-- The `file` URL behind two slashes. A drive in place of a host is part of the path. -/
def fileAfterSlashes (cs : List Char) : Except Fault Url := do
  let host := cs.takeWhile fun c => !endsAuthority .file c
  if isDrive host then .ok (afterAuthority "file".toList cs)
  else
    if host ≠ [] then checkHost true host
    .ok (afterAuthority "file".toList (cs.drop host.length))

def along (base : Url) (done : List (List Char)) (cs : List Char) : Url :=
  let (path, query) := splitQuery cs
  { base with query, path := pathFrom base.kind done path }

def fileUrl (base : Option Url) (cs : List Char) : Except Fault Url :=
  let isSlash := SchemeKind.isSlash .file
  match cs with
  | c :: d :: rest =>
    if isSlash c && isSlash d then fileAfterSlashes rest
    else if isSlash c then
      let drive := match base with
        | some base => (segmentsBefore (base.path ++ ['/'])).getLast?.filter isWrittenDrive
        | none => none
      match drive with
      | some drive =>
        if startsWithDrive (d :: rest) then .ok (afterAuthority "file".toList cs)
        else .ok (along ⟨"file".toList, false, [], none⟩ [drive] (d :: rest))
      | none => .ok (afterAuthority "file".toList cs)
    else relative
  | _ => relative
where
  relative : Except Fault Url :=
    match base with
    | none => .ok (afterAuthority "file".toList cs)
    | some base =>
      match cs with
      | [] => .ok base
      | '?' :: _ => .ok { base with query := (splitQuery cs).2 }
      | _ =>
        if startsWithDrive cs then .ok (afterAuthority "file".toList cs)
        else
          let all := segmentsBefore (base.path ++ ['/'])
          let done := match all with
            | s :: before => if isWrittenDrive s then s :: before else before
            | [] => []
          .ok (along base done cs)

def relativeUrl (base : Url) (cs : List Char) : Except Fault Url :=
  match cs with
  | [] => .ok base
  | '?' :: _ => .ok { base with query := (splitQuery cs).2 }
  | c :: rest =>
    if c = '/' ∨ c = '\\' then
      match rest with
      | d :: more =>
        if d = '/' ∨ d = '\\' then
          if c = '/' ∧ d = '/' then afterSlashes base.scheme more
          else afterSlashes base.scheme (more.dropWhile fun e => e == '/' || e == '\\')
        else .ok (along base [] rest)
      | [] => .ok (along base [] rest)
    else .ok (along base (segmentsBefore base.path) cs)

def parse (s : String) : Except Fault Url :=
  match scheme? (clean s) with
  | none => .error .noBase
  | some (scheme, rest) =>
    match SchemeKind.ofScheme scheme with
    | .file => fileUrl none rest
    | .web => afterSlashes scheme (rest.dropWhile fun c => c == '/' || c == '\\')
    | .other =>
      match rest with
      | '/' :: '/' :: rest => afterSlashes scheme rest
      | '/' :: _ => .ok (afterAuthority scheme rest)
      | _ =>
        let (path, query) := splitQuery rest
        let isText := fun c : Char => ' ' ≤ c && c ≤ '~'
        .ok { scheme, query, opaquePath := true, path := Percent.encode isText path }

def join (base : Url) (s : String) : Except Fault Url :=
  match clean s with
  | '#' :: _ => .ok base
  | cs =>
    if base.opaquePath then .error .opaqueBase
    else if base.kind = .file then fileUrl (some base) cs
    else relativeUrl base cs

end Url
end StoryPreview
