import SurfaceRelay.Presenter.Run
import SurfaceRelay.Registers
import SurfaceRelay.Side
import SurfaceRelay.Soft.Domain
import SurfaceRelay.Trace

/-! Sessions of a presenter over software domains.

The session holds a handle to each domain and the pool holds one more. Besides the moves of
the presenter a step can write and read the pool's textures directly, let a worker execute,
and kill or doom one. The presenter can be dropped before the session ends; what a session
still holds at its end is let go, the producer first. -/
namespace SurfaceRelay.Session.SoftPool
open Soft

/-- How the two domains of a session belong together. -/
inductive Topology
  /-- Two workers of one device. -/
  | shared
  /-- Two workers of two devices, which cannot open each other's textures. -/
  | separate
  /-- One worker on both sides. -/
  | same
deriving DecidableEq, Repr

/-- The software world and what the pool has been told of it. -/
abbrev Observed := Recorded World (Entry Pixels Texture Marker Texture)

structure State where
  /-- Nothing once the presenter was dropped. -/
  presenter : Option (Presenter Texture Marker Texture)
  world : Observed
  /-- The workers of the two sides. -/
  workers : Both Nat
  reads : Registers Nat

/-- A texture that a step works on. -/
inductive Target
  | surface (h : Handle) (side : Side)
  | shown

inductive Step
  | move (m : Presenter.Move Pixels)
  | write (side : Side) (target : Target) (data : Pixels)
  | read (side : Side) (target : Target) (name : String)
  | receive (name : String)
  | advance (side : Side) (limit : Option Nat)
  | kill (side : Side)
  | doom (side : Side)
  | dropPresenter

inductive Answer
  | move (a : Presenter.Answer Texture Texture)
  | done
  | received (r : Receiver)
  | executed (count : Nat)

/-- The two workers of a session. -/
def Topology.start : Topology → Both Nat × World
  | .shared =>
    let (p, w) := ({} : World).startWorker "P" 0
    let (c, w) := w.startWorker "C" 0
    (⟨p, c⟩, w)
  | .separate =>
    let (p, w) := ({} : World).startWorker "P" 0
    let (c, w) := w.startWorker "C" 1
    (⟨p, c⟩, w)
  | .same =>
    let (p, w) := ({} : World).startWorker "P" 0
    (⟨p, p⟩, w.keep p)

def start (topology : Topology) (c : Pool.Config) : Except Fault State :=
  (Pool.make c).map fun pool =>
    let (workers, w) := topology.start
    let w := (w.keep workers.producer).keep workers.consumer
    { presenter := some (.ofPool pool), world := .ofWorld w, workers, reads := [] }

namespace State

def backend (s : State) : Backend Observed Texture Marker Texture :=
  (Soft.backend s.workers.producer s.workers.consumer).recorded

def convert (s : State) : Converter Observed Pixels Texture :=
  Converter.recorded (identity s.workers.consumer)

/-- The texture a target names, if it names one. -/
def texture? (s : State) : Target → Option Texture
  | .surface h .producer => s.presenter.bind (·.pool.texture? h)
  | .surface h .consumer => s.presenter.bind (·.pool.view? h)
  | .shown => s.presenter.bind (·.shownTexture?)

/-- The state after the world changed outside the pool. -/
def onWorld (s : State) (w : World) : State := { s with world := .ofWorld w }

/-- Tears the pool down and lets go of its handles to the domains. -/
def dropPresenter (s : State) (p : Presenter Texture Marker Texture) : State :=
  let r := (Presenter.close s.backend (p, .ofWorld s.world.world)).2
  { s with
    presenter := none
    world := { r with world := (r.world.letGo s.workers.producer).letGo s.workers.consumer } }

/-- Makes one step. There is no result when the step names something that does not
exist. -/
def step (s : State) : Step → Option (Except Fault Answer × State)
  | .move m => s.presenter.map fun p =>
    let (answer, p, world) := Attempt.outcome (Presenter.make s.backend s.convert m)
      (p, .ofWorld s.world.world)
    (answer.map .move, { s with presenter := some p, world })
  | .write side target data => (s.texture? target).map fun t =>
    let (answer, w) := Attempt.outcome (Soft.write (s.workers.get side) t data) s.world.world
    (answer.map fun _ => .done, s.onWorld w)
  | .read side target name => (s.texture? target).map fun t =>
    match Attempt.outcome (Soft.read (s.workers.get side) t) s.world.world with
    | (.ok receiver, w) =>
      (.ok .done, { s.onWorld w with reads := s.reads.put name receiver })
    | (.error e, w) => (.error e, s.onWorld w)
  | .receive name => (s.reads.get? name).map fun receiver =>
    let (r, w) := s.world.world.receive receiver
    (.ok (.received r), s.onWorld w)
  | .advance side limit =>
    let w := s.world.world
    let d := s.workers.get side
    some (.ok (.executed (w.pace d limit)), s.onWorld (w.step d limit))
  | .kill side => some (.ok .done, s.onWorld (s.world.world.die (s.workers.get side)))
  | .doom side => some (.ok .done, s.onWorld (s.world.world.doom (s.workers.get side)))
  | .dropPresenter => s.presenter.map fun p => (.ok .done, s.dropPresenter p)

/-- Drops the presenter, if it is still there. -/
def finish (s : State) : State :=
  match s.presenter with
  | some p => s.dropPresenter p
  | none => s.onWorld s.world.world

/-- Lets go of the session's own handles, after which no command is left. -/
def letGo (s : State) : State :=
  s.onWorld ((s.world.world.letGo s.workers.producer).letGo s.workers.consumer)

/-- What each receiver holds. -/
def receipts (s : State) : List (String × Receiver) :=
  s.reads.map fun (name, receiver) => (name, (s.world.world.receive receiver).1)

def worker (s : State) (side : Side) : Worker := s.world.world.workers (s.workers.get side)

/-- The notices of the last step. -/
def log (s : State) : List String :=
  s.world.trace.filterMap fun
    | .notice n => some n.text
    | _ => none

end State
end SurfaceRelay.Session.SoftPool
