import StoryPreview.Arguments.Codec
import StoryPreview.Query.Form
/-!
Where a page is: path, search and hash. The arguments of a story stand in the parameter `args` of
the search, in their own code; the other parameters are left alone.
-/
namespace StoryPreview

structure Location where
  path : String
  /-- Empty, or starts with `?`. -/
  search : String
  /-- Empty, or starts with `#`. -/
  hash : String
  deriving DecidableEq, Repr, Inhabited

namespace Location

def url (l : Location) : String := l.path ++ l.search ++ l.hash

def cut (c : Char) (cs : List Char) : List Char × List Char :=
  (cs.takeWhile (· ≠ c), cs.dropWhile (· ≠ c))

def ofUrl (url : String) : Location :=
  let (rest, hash) := cut '#' url.toList
  let (path, search) := cut '?' rest
  ⟨String.ofList path, String.ofList search, String.ofList hash⟩

def argumentsName : String := "args"

def searchParams (search : String) : List (String × String) :=
  Form.read (search.toList.dropWhile (· == '?'))

def argumentsCode? (search : String) : Option (List Char) :=
  ((searchParams search).find? (·.1 = argumentsName)).map fun p => p.2.toList

def argumentsOf (search : String) : Arguments := ((argumentsCode? search).map Codec.decode).getD {}

def argumentsNotes (search : String) : List Note :=
  ((argumentsCode? search).map Codec.notes).getD []

def queryWith (search : String) (args : Arguments) : List Char :=
  let others := Form.write ((searchParams search).filter (·.1 ≠ argumentsName))
  match Codec.encode args with
  | [] => others
  | code => others ++ (if others = [] then [] else ['&']) ++ argumentsName.toList ++ '=' :: code

def urlWith (l : Location) (args : Arguments) : String :=
  match queryWith l.search args with
  | [] => l.path ++ l.hash
  | query => l.path ++ "?" ++ String.ofList query ++ l.hash

end Location
end StoryPreview
