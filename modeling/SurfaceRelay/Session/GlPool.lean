import SurfaceRelay.Gl.Domain
import SurfaceRelay.Gl.Scripted
import SurfaceRelay.Presenter.Run

/-! Sessions of a presenter over two contexts of a scripted GL. -/
namespace SurfaceRelay.Session.GlPool
open Gl

structure State where
  presenter : Presenter Image Marker Image
  world : World Side Scripted.State

inductive Step
  | move (m : Presenter.Move (List UInt8))
  | direct (d : Scripted.Direction)

abbrev Answer := Presenter.Answer Image Image

def start (c : Pool.Config) : Except Fault State :=
  (Pool.make c).map fun pool => ⟨.ofPool pool, Scripted.World.initial⟩

/-- Changes the script between moves. -/
def State.direct (s : State) (d : Scripted.Direction) : State :=
  { s with world := { s.world with gl := s.world.gl.direct d, log := [] } }

/-- Makes one step; the log is that of the step alone. -/
def State.step (hooked : Side → Bool) (s : State) : Step → Except Fault Answer × State
  | .move m =>
    let g := Scripted.group hooked
    let (answer, presenter, world) := Attempt.outcome
      (Presenter.make (g.backend .producer .consumer) (g.uploader .consumer) m)
      (s.presenter, { s.world with log := [] })
    (answer, ⟨presenter, world⟩)
  | .direct d => (.ok .done, s.direct d)

def State.finish (hooked : Side → Bool) (s : State) : State := (s.step hooked (.move .close)).2

def State.log (s : State) : List String := s.world.log.map Scripted.entryText

end SurfaceRelay.Session.GlPool
