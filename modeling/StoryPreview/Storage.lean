import StoryPreview.Allowance
import StoryPreview.OrderedMap
/-!
A store of texts under keys, whose reads and writes can fail.
-/
namespace StoryPreview

inductive StorageFault where
  | unavailable (store : String)
  | unreadable (key cause : String)
  | unwritable (key cause : String)
  | json (cause : String)

def StorageFault.message : StorageFault → String
  | unavailable store => "storage backend '" ++ store ++ "' is unavailable"
  | unreadable key cause => "failed to read key '" ++ key ++ "': " ++ cause
  | unwritable key cause => "failed to write key '" ++ key ++ "': " ++ cause
  | json cause => "JSON error: " ++ cause

structure Storage where
  entries : Entries String := []
  full : Bool := false
  /-- How many more reads succeed. -/
  reads : Allowance := none
  writes : Nat := 0
  deriving Inhabited

namespace Storage

def name : String := "memory"

def raw? (s : Storage) (key : String) : Option String := s.entries.get? key

/-- Puts a text under a key without counting it as a write. -/
def put (s : Storage) (key text : String) : Storage :=
  { s with entries := s.entries.insert key text }

def remove (s : Storage) (key : String) : Storage := { s with entries := s.entries.erase key }

def load (s : Storage) (key : String) : Except StorageFault (Option String) × Storage :=
  (if s.reads.admits then .ok (s.raw? key) else .error (.unreadable key "denied"),
    { s with reads := s.reads.spent })

def store (s : Storage) (key text : String) : Except StorageFault Storage :=
  if s.full then .error (.unwritable key "quota exceeded")
  else .ok { s.put key text with writes := s.writes + 1 }

end Storage
end StoryPreview
