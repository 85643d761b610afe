import Peering.Handshake

/-!
# Handshake templates

The three handshake frames depend only on who we are, so they are built once and
sent many times.
-/

namespace Peering

namespace Handshake

/-- A set of protocol versions, in ascending order and without repetition. -/
abbrev VersionSet := List UInt16

def VersionSet.insert (version : UInt16) : VersionSet → VersionSet
  | [] => [version]
  | first :: rest =>
      if version < first then version :: first :: rest
      else if version = first then first :: rest
      else first :: VersionSet.insert version rest

def VersionSet.ofList (versions : List UInt16) : VersionSet :=
  versions.foldl (fun set version => VersionSet.insert version set) []

/-- What a node says about itself in handshakes. -/
structure Profile where
  id : NodeId
  chainId : UInt32
  ip : IpAddress
  port : UInt16
  revision : String
  versions : VersionSet

structure Templates where
  request : Frame
  accept : Frame
  reject : Frame

/-- The request that a profile makes. -/
def Profile.request (profile : Profile) : Request where
  id := profile.id
  chainId := profile.chainId
  ip := profile.ip
  port := profile.port
  revision := Utf8.encode profile.revision
  versions := profile.versions

def Templates.build (profile : Profile) : Templates where
  request := profile.request.toFrame
  accept := Response.toFrame ⟨true, Utf8.encode profile.revision⟩
  reject := Response.toFrame ⟨false, Utf8.encode profile.revision⟩

end Handshake

end Peering
