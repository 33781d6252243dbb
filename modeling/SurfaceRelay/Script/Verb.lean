import SurfaceRelay.Fault

/-! The calls of a domain by name: what scripts refer to and what logs show. -/
namespace SurfaceRelay.Script

inductive Verb
  | newTexture | newStaging | newMarker
  | share | openShare
  | record | poll
  | stage | blockOn
  | freeTexture | freeStaging | freeMarker
  | convert
deriving DecidableEq, Repr

namespace Verb

def name : Verb → String
  | newTexture => "create_texture"
  | newStaging => "create_staging"
  | newMarker => "create_marker"
  | share => "share_handle"
  | openShare => "open_shared"
  | record => "issue_marker"
  | poll => "poll_marker"
  | stage => "copy_to_staging"
  | blockOn => "map_staging"
  | freeTexture => "destroy_texture"
  | freeStaging => "destroy_staging"
  | freeMarker => "destroy_marker"
  | convert => "convert"

def all : List Verb :=
  [newTexture, newStaging, newMarker, share, openShare, record, poll, stage, blockOn, freeTexture,
    freeStaging, freeMarker, convert]

def ofName? (name : String) : Option Verb := all.find? (·.name == name)

/-- What a call fails with unless a rule names another kind of fault. -/
def usualFault (detail : String) : Verb → Fault
  | stage | blockOn => .mapping detail
  | record | poll => .marker detail
  | convert => .conversion detail
  | _ => .allocation detail

end Verb

/-- The fault a rule injects into the calls of one name: of the kind it asks for, or of
the kind such calls fail with. A stale handle cannot be asked for. -/
def injectedFault (call : String) (kind : Option Fault.Kind) (detail : Option String) : Fault :=
  let detail := detail.getD ("injected " ++ call ++ " failure")
  let usual := ((Verb.ofName? call).map (Verb.usualFault detail)).getD (.allocation detail)
  (kind.bind (Fault.ofKind detail)).getD usual

end SurfaceRelay.Script
