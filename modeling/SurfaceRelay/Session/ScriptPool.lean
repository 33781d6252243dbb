import SurfaceRelay.Presenter.Run
import SurfaceRelay.Script.Log

/-! Sessions of a presenter over scripted domains.

A session starts from a fresh presenter and two fresh domains. Every step is a move of the
presenter or a change of the script; the trace of a step is what the domains and the
observer were told during it. A session ends with tearing the pool down. -/
namespace SurfaceRelay.Session.ScriptPool
open Script

structure State where
  presenter : Presenter Image Marker Image
  world : Recorded World (Entry Nat Image Marker Image)

inductive Step
  | move (m : Presenter.Move Nat)
  | fail (side : Side) (call : String) (r : Rule Fault)
  | recover (side : Side) (call : String)
  | retire (upTo : Option Nat)

abbrev Answer := Presenter.Answer Image Image

def start (c : Pool.Config) : Except Fault State :=
  (Pool.make c).map fun pool => ⟨.ofPool pool, .ofWorld .blank⟩

/-- Changes the script between moves. -/
def State.direct (s : State) (change : World → World) : Except Fault Answer × State :=
  (.ok .done, { s with world := .ofWorld (change s.world.world) })

def State.step (s : State) : Step → Except Fault Answer × State
  | .move m =>
    let (answer, presenter, world) := Attempt.outcome
      (Presenter.make (Backend.recorded backend) (Converter.recorded converter) m)
      (s.presenter, .ofWorld s.world.world)
    (answer, ⟨presenter, world⟩)
  | .fail side call r => s.direct (World.fail · side call r)
  | .recover side call => s.direct (World.recover · side call)
  | .retire upTo => s.direct (World.retire · upTo)

def State.finish (s : State) : State := (s.step (.move .close)).2

/-- The trace of the last step, in writing. -/
def State.log (s : State) : List String := s.world.trace.map entryText

end SurfaceRelay.Session.ScriptPool
