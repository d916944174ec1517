/-!
Why a text is no URL.
-/
namespace StoryPreview.Url

inductive Fault where
  | emptyHost
  | badDomain
  | badPort
  | badIpv4
  | badIpv6
  | badHostCharacter
  /-- The text is relative, and there is nothing that it could be relative to. -/
  | noBase
  /-- The text is relative to a URL whose path is opaque. -/
  | opaqueBase
  deriving DecidableEq, Repr

def Fault.message : Fault → String
  | emptyHost => "empty host"
  | badDomain => "invalid international domain name"
  | badPort => "invalid port number"
  | badIpv4 => "invalid IPv4 address"
  | badIpv6 => "invalid IPv6 address"
  | badHostCharacter => "invalid domain character"
  | noBase => "relative URL without a base"
  | opaqueBase => "relative URL with a cannot-be-a-base base"

end StoryPreview.Url
