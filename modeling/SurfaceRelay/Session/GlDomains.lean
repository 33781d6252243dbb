import SurfaceRelay.Gl.Domain
import SurfaceRelay.Gl.Scripted
import SurfaceRelay.Presenter.Run
import SurfaceRelay.Registers

/-! Sessions with two GL domains directly, over a scripted GL.

A session keeps images and markers under names of its own. What is still held at its end is
left as it is. -/
namespace SurfaceRelay.Session.GlDomains
open SurfaceRelay.Gl

structure State where
  world : World Side Scripted.State := Scripted.World.initial
  images : Registers Image := []
  markers : Registers Marker := []

/-- Strings are the names of images (`t`, `dest`) and markers (`m`). -/
inductive Step
  | texture (side : Side) (t : String) (size : Extent)
  | staging (side : Side) (t : String) (size : Extent)
  | openShare (side : Side) (t : String) (shared : Nat) (size : Extent)
  | share (side : Side) (t : String)
  | upload (side : Side) (t : String) (data : List UInt8)
  | copy (side : Side) (t dest : String) (region : Extent)
  | map (side : Side) (t : String)
  | freeTexture (side : Side) (t : String)
  | freeStaging (side : Side) (t : String)
  | marker (side : Side) (m : String)
  | record (side : Side) (m : String)
  | poll (side : Side) (m : String)
  | freeMarker (side : Side) (m : String)
  | direct (d : Scripted.Direction)

inductive Answer
  | done
  | image (i : Image)
  | shared (name : Nat)
  | ready (retired : Bool)

/-- The answer to a step and the state after it. There is none when the step names
something that does not exist. -/
abbrev Outcome := Option (Except Fault Answer × State)

namespace State

/-- Runs an operation of a domain, with a log of its own, and goes on with what it made. -/
def attempt {α : Type} (s : State) (act : Attempt (World Side Scripted.State) α)
    (next : α → State → Answer × State) : Except Fault Answer × State :=
  match Attempt.outcome act { s.world with log := [] } with
  | (.ok a, w) =>
    let (answer, s) := next a { s with world := w }
    (.ok answer, s)
  | (.error e, w) => (.error e, { s with world := w })

/-- Records a marker, and puts it back as it is left. -/
def record (s : State) (p : Producer (World Side Scripted.State) Image Marker) (name : String)
    (marker : Marker) : Except Fault Answer × State :=
  match Attempt.outcome p.record (marker, { s.world with log := [] }) with
  | (result, marker, world) =>
    (result.map fun _ => .done, { s with world, markers := s.markers.put name marker })

/-- Changes the script between operations. -/
def direct (s : State) (d : Scripted.Direction) : State :=
  { s with world := { s.world with gl := s.world.gl.direct d, log := [] } }

def done (s : State) : Answer × State := (.done, s)

def putImage (name : String) (i : Image) (s : State) : Answer × State :=
  (.image i, { s with images := s.images.put name i })

def step (hooked : Side → Bool) (s : State) : Step → Outcome :=
  let p := (Scripted.group hooked).producer
  let c := (Scripted.group hooked).consumer
  fun
  | .texture side t size => s.attempt ((p side).newTexture size) (putImage t)
  | .staging side t size => s.attempt ((p side).newStaging size) (putImage t)
  | .openShare side t shared size => s.attempt ((c side).openShare shared size) (putImage t)
  | .share side t => (s.images.get? t).map fun i =>
    s.attempt ((p side).share i) fun name s => (.shared name, s)
  | .upload side t data => (s.images.get? t).map fun i =>
    s.attempt ((Scripted.group hooked).uploader side data i) fun _ s => s.done
  | .copy side t dest region => do
    let i ← s.images.get? t
    let staging ← s.images.get? dest
    return s.attempt ((p side).stage i staging region) fun _ s => s.done
  | .map side t => (s.images.get? t).map fun i =>
    s.attempt ((p side).blockOn i) fun _ s => s.done
  | .freeTexture side t => (s.images.get? t).map fun i =>
    { s with images := s.images.erase t }.attempt ((p side).freeTexture i) fun _ s => s.done
  | .freeStaging side t => (s.images.get? t).map fun i =>
    { s with images := s.images.erase t }.attempt ((p side).freeStaging i) fun _ s => s.done
  | .marker side m => s.attempt (p side).newMarker fun marker s =>
    (.done, { s with markers := s.markers.put m marker })
  | .record side m => (s.markers.get? m).map (s.record (p side) m)
  | .poll side m => (s.markers.get? m).map fun marker =>
    s.attempt ((p side).poll marker) fun
      | some retired, s => (.ready true, { s with markers := s.markers.put m retired })
      | none, s => (.ready false, s)
  | .freeMarker side m => (s.markers.get? m).map fun marker =>
    { s with markers := s.markers.erase m }.attempt ((p side).freeMarker marker)
      fun _ s => s.done
  | .direct d => some (.ok .done, s.direct d)

/-- The log of the last step, in writing. -/
def log (s : State) : List String := s.world.log.map Scripted.entryText

end State
end SurfaceRelay.Session.GlDomains
