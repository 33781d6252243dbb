import SurfaceRelay.Fault

/-! Notices: what a pool tells an observer while it works.

A notice never changes what happens. It has a level and one line of text: the
level, the statement, then the values that belong to it as `name=value`, in the
order of their names. -/
namespace SurfaceRelay

/-- The five resources of a surface, as notices name them. -/
inductive Part
  | consumerStaging | consumerTexture | marker | producerStaging | producerTexture
deriving DecidableEq, Repr

def Part.text : Part → String
  | consumerStaging => "consumer staging"
  | consumerTexture => "consumer texture"
  | marker => "marker"
  | producerStaging => "producer staging"
  | producerTexture => "producer texture"

inductive Notice
  /-- The ring has one more surface and is now `size` long. -/
  | grew (size : Nat)
  /-- A full ring had to stall on the surface at the cursor. -/
  | underflow (cursor : Nat)
  | creationFailed (handle : Handle) (cause : Fault)
  | producerWaitFailed (handle : Handle) (cause : Fault)
  | consumerWaitFailed (handle : Handle) (cause : Fault)
  /-- A marker could not be polled; its surface counts as busy. -/
  | pollFailed (handle : Handle) (cause : Fault)
  | recordFailed (handle : Handle) (cause : Fault)
  /-- A resource could not be destroyed; the others of its surface still are. -/
  | disposalFailed (part : Part) (handle : Handle) (cause : Fault)
  /-- The pool was torn down with `surfaces` surfaces, `busy` of them released. -/
  | tornDown (busy surfaces : Nat)
  /-- A frame was dropped, the `count`-th so far. -/
  | frameDropped (count : Nat) (cause : Fault)
  | retractIgnored (handle : Handle) (cause : Fault)
deriving DecidableEq, Repr

namespace Notice

inductive Level
  | debug | warn | error
deriving DecidableEq, Repr

def Level.text : Level → String
  | debug => "DEBUG"
  | warn => "WARN"
  | error => "ERROR"

def level : Notice → Level
  | grew _ | pollFailed .. | tornDown .. => .debug
  | creationFailed .. | producerWaitFailed .. | consumerWaitFailed .. => .error
  | underflow _ | recordFailed .. | disposalFailed .. | frameDropped .. | retractIgnored .. => .warn

def statement : Notice → String
  | grew _ => "surface queue grew"
  | underflow _ => "surface queue underflow"
  | creationFailed .. => "failed to create surface"
  | producerWaitFailed .. => "couldn't wait for producer domain"
  | consumerWaitFailed .. => "couldn't wait for consumer domain"
  | pollFailed .. => "marker poll failed, treating surface as busy"
  | recordFailed .. => "failed to issue completion marker"
  | disposalFailed part .. => "failed to release " ++ part.text
  | tornDown .. => "surface pool destroyed"
  | frameDropped .. => "dropping frame"
  | retractIgnored .. => "unmap ignored"

/-- The named values of a notice, by name. -/
def values : Notice → List (String × String)
  | grew size => [("len", toString size)]
  | underflow cursor => [("cursor", toString cursor)]
  | tornDown busy surfaces => [("busy", toString busy), ("surfaces", toString surfaces)]
  | frameDropped count cause => [("dropped", toString count), ("err", cause.message)]
  | creationFailed handle cause | producerWaitFailed handle cause
  | consumerWaitFailed handle cause | pollFailed handle cause | recordFailed handle cause
  | disposalFailed _ handle cause | retractIgnored handle cause =>
    [("err", cause.message), ("surface", handle.text)]

def text (n : Notice) : String :=
  " ".intercalate
    (n.level.text :: n.statement :: n.values.map fun (name, value) => name ++ "=" ++ value)

end Notice
end SurfaceRelay
