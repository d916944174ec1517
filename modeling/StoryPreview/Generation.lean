/-!
Generations: each cycle of work takes a token when it starts, and a token is current until a newer
cycle starts or the generation is invalidated. Work that was suspended looks at its token before it
goes on.
-/
namespace StoryPreview

structure Generation where
  current : Nat := 0
  deriving DecidableEq, Repr, Inhabited

structure Token where
  issued : Nat
  deriving DecidableEq, Repr, Inhabited

namespace Generation

def invalidate (g : Generation) : Generation := ⟨g.current + 1⟩

def advance (g : Generation) : Token × Generation := (⟨g.current + 1⟩, g.invalidate)

def isCurrent (g : Generation) (t : Token) : Bool := g.current == t.issued

end Generation

/-- Generations with any number of sources that start them, and the tokens they gave out. A source
and a token name their generation by its place. -/
structure Generations where
  all : List Generation := [{}]
  sources : List Nat := [0]
  tokens : List (Nat × Token) := []
  deriving Inhabited

namespace Generations

def generation (s : Generations) (place : Nat) : Generation := s.all.getD place {}

inductive Step where
  | advance (source : Nat)
  | invalidate (source : Nat)
  | shareSource (source : Nat)
  | newSource
  | shareToken (token : Nat)
  deriving DecidableEq, Repr

def step (s : Generations) : Step → Generations
  | .advance source =>
    let place := s.sources.getD source 0
    let (token, g) := (s.generation place).advance
    { s with all := s.all.set place g, tokens := s.tokens ++ [(place, token)] }
  | .invalidate source =>
    let place := s.sources.getD source 0
    { s with all := s.all.set place (s.generation place).invalidate }
  | .shareSource source => { s with sources := s.sources ++ [s.sources.getD source 0] }
  | .newSource => { s with all := s.all ++ [{}], sources := s.sources ++ [s.all.length] }
  | .shareToken token => { s with tokens := s.tokens ++ s.tokens[token]?.toList }

def current (s : Generations) : List Nat := s.sources.map fun place => (s.generation place).current

def standing (s : Generations) : List (Nat × Bool) :=
  s.tokens.map fun (place, t) => (t.issued, (s.generation place).isCurrent t)

end Generations
end StoryPreview
