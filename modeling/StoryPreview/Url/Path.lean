import StoryPreview.Query.Percent
import StoryPreview.Text.Blank
/-!
Paths of URLs: segments between slashes. Of the segments before the last, each is followed by a
slash; `.` is left out, `..` takes back the segment before it, and unsafe characters are escaped.
-/
namespace StoryPreview.Url

inductive SchemeKind where
  | file
  | web
  | other
  deriving DecidableEq, Repr

def SchemeKind.ofScheme (scheme : List Char) : SchemeKind :=
  if scheme = "file".toList then .file
  else if scheme ∈ ["http".toList, "https".toList, "ws".toList, "wss".toList, "ftp".toList]
    then .web
  else .other

def SchemeKind.isSlash (kind : SchemeKind) (c : Char) : Bool :=
  c == '/' || (c == '\\' && kind != .other)

def isPathChar (c : Char) : Bool :=
  '!' ≤ c && c ≤ '~' && !(c ∈ ['"', '<', '>', '`', '#', '?', '\x7b', '\x7d'])

def escapeSegment (cs : List Char) : List Char := Percent.encode isPathChar cs

/-- Whether a segment, with `%2e` for a dot, stands for the current directory. -/
def isDot (cs : List Char) : Bool := lowerDots cs == ['.']
where
  lowerDots : List Char → List Char
    | '%' :: '2' :: e :: cs =>
      if e == 'e' || e == 'E' then '.' :: lowerDots cs else '%' :: '2' :: e :: cs
    | '.' :: cs => '.' :: lowerDots cs
    | cs => cs

def isDotDot (cs : List Char) : Bool := isDot.lowerDots cs == ['.', '.']

def isLetter (c : Char) : Bool := ('a' ≤ c && c ≤ 'z') || ('A' ≤ c && c ≤ 'Z')

def isDrive : List Char → Bool
  | [c, d] => isLetter c && (d == ':' || d == '|')
  | _ => false

def isWrittenDrive (cs : List Char) : Bool := isDrive cs && cs.getLast? == some ':'

/-- A path under construction: the segments that are followed by a slash, the last of them first,
and the segment after them. -/
structure Trail where
  done : List (List Char)
  last : List Char

namespace Trail

/-- Takes back the last segment in front of a `..`; a drive stays. -/
def shorten : List (List Char) → List (List Char)
  | [] => []
  | s :: done => if isDrive s then s :: done else done

def keep (kind : SchemeKind) (done : List (List Char)) (s : List Char) : List Char :=
  match kind, done, s with
  | .file, [], [c, d] => if isDrive [c, d] then [c, ':'] else s
  | _, _, _ => s

/-- Walks along segments; all but the last are followed by a slash. -/
def walk (kind : SchemeKind) (done : List (List Char)) : List (List Char) → Trail
  | [] => ⟨done, []⟩
  | [s] =>
    if isDotDot s then ⟨shorten done, []⟩
    else if isDot s then ⟨done, []⟩
    else ⟨done, keep kind done (escapeSegment s)⟩
  | s :: more =>
    if isDotDot s then walk kind (shorten done) more
    else if isDot s then walk kind done more
    else walk kind (keep kind done (escapeSegment s) :: done) more

/-- The text of a path. In `file` URLs slashes at the start are one. -/
def text (kind : SchemeKind) (t : Trail) : List Char :=
  let body := t.done.reverse.flatMap (fun s => s ++ ['/']) ++ t.last
  '/' :: (if kind = .file then body.dropWhile (· == '/') else body)

end Trail

def dropSlash (kind : SchemeKind) : List Char → List Char
  | c :: cs => if kind.isSlash c then cs else c :: cs
  | [] => []

def pathFrom (kind : SchemeKind) (done : List (List Char)) (cs : List Char) : List Char :=
  let slashed := cs.map fun c => if kind.isSlash c then '/' else c
  (Trail.walk kind done (Text.splitOn '/' slashed)).text kind

def segmentsBefore (path : List Char) : List (List Char) :=
  match (Text.splitOn '/' path).drop 1 with
  | [] => []
  | segments => segments.dropLast.reverse

end StoryPreview.Url
