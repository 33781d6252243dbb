/-! What can go wrong for one frame.

No fault ends the stream: whoever receives one drops the current frame and goes
on. A fault has a kind, by which callers branch, and a message, which is the
kind's own opening words followed by the detail the failing party gave. -/
namespace SurfaceRelay

/-- Names a surface of a pool. Handles are numbered from 1 in the order in which
the surfaces were created, and give no access to the surface's resources. -/
structure Handle where
  number : Nat
deriving DecidableEq, Repr

def Handle.text (h : Handle) : String := s!"surface#{h.number}"

inductive Fault
  /-- A texture, a staging resource or a marker could not be created. -/
  | allocation (detail : String)
  /-- A staging copy or a blocking map failed. -/
  | mapping (detail : String)
  /-- A completion marker could not be recorded or polled. -/
  | marker (detail : String)
  /-- The converter could not write the frame. -/
  | conversion (detail : String)
  /-- The pool was asked for with parameters it cannot have. -/
  | config (detail : String)
  /-- The handle does not name the surface that awaits its release. -/
  | staleHandle (handle : Handle)
  /-- The pool was torn down before. -/
  | closed
deriving DecidableEq, Repr

namespace Fault

inductive Kind
  | allocation | mapping | marker | conversion | config | staleHandle | closed
deriving DecidableEq, Repr

def kind : Fault → Kind
  | allocation _ => .allocation
  | mapping _ => .mapping
  | marker _ => .marker
  | conversion _ => .conversion
  | config _ => .config
  | staleHandle _ => .staleHandle
  | closed => .closed

def message : Fault → String
  | allocation detail => "allocation failure: " ++ detail
  | mapping detail => "mapping failure: " ++ detail
  | marker detail => "marker failure: " ++ detail
  | conversion detail => "conversion failure: " ++ detail
  | config detail => "invalid configuration: " ++ detail
  | staleHandle handle => handle.text ++ " is not the surface awaiting release"
  | closed => "surface pool has been destroyed"

/-- The fault of a kind with a given detail. A torn-down pool has no detail, and
a stale handle names a surface instead of carrying one. -/
def ofKind (detail : String) : Kind → Option Fault
  | .allocation => some (allocation detail)
  | .mapping => some (mapping detail)
  | .marker => some (marker detail)
  | .conversion => some (conversion detail)
  | .config => some (config detail)
  | .staleHandle => none
  | .closed => some closed

theorem kind_ofKind {detail : String} {k : Kind} {f : Fault} (h : ofKind detail k = some f) :
    f.kind = k := by
  cases k <;> simp [ofKind] at h <;> subst h <;> rfl

end Fault
end SurfaceRelay
