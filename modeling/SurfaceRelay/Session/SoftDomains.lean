import SurfaceRelay.Presenter.Run
import SurfaceRelay.Registers
import SurfaceRelay.Soft.Domain

/-! Sessions with software domains directly.

A session keeps handles to domains, textures, markers and receivers under names of its own.
A step that succeeds in making one puts it in place of whatever had the name before; a step
that fails leaves the names as they were. What is still held at the end is let go domain by
domain, in the order of the names. -/
namespace SurfaceRelay.Session.SoftDomains
open SurfaceRelay.Soft

structure State where
  world : World := {}
  domains : Registers Nat := []
  textures : Registers Texture := []
  markers : Registers Marker := []
  reads : Registers Nat := []

/-- Strings are the names of domains (`d`), textures (`t`, `dest`, `copy`), markers (`m`) and
receivers (`r`). -/
inductive Step
  | start (d : String) (device : Nat)
  | keep (d copy : String)
  | letGo (d : String)
  | texture (d t : String) (size : Extent)
  | staging (d t : String) (size : Extent)
  | openShare (d t : String) (shared : Nat) (size : Extent)
  | share (d t : String)
  | aliasTexture (t copy : String)
  | write (d t : String) (data : Pixels)
  | convert (d t : String) (data : Pixels)
  | read (d t r : String)
  | receive (r : String)
  | forget (r : String)
  | copy (d t dest : String) (region : Extent)
  | map (d t : String)
  | freeTexture (d t : String)
  | freeStaging (d t : String)
  | marker (d m : String)
  | record (d m : String)
  | poll (d m : String)
  | freeMarker (d m : String)
  | advance (d : String) (limit : Option Nat)
  | kill (d : String)
  | doom (d : String)

inductive Answer
  | done
  | label (text : String)
  | texture (t : Texture)
  | shared (number : Nat)
  | received (r : Receiver)
  | count (n : Nat)
  | ready (retired : Bool)
  | executed (count : Nat)

/-- The answer to a step and the state after it. There is none when the step names
something that does not exist. -/
abbrev Outcome := Option (Except Fault Answer × State)

namespace State

def onWorld (s : State) (w : World) : State := { s with world := w }

/-- Runs an operation of a domain and goes on with what it made. -/
def attempt {α : Type} (s : State) (act : Attempt World α)
    (next : α → State → Answer × State) : Except Fault Answer × State :=
  match Attempt.outcome act s.world with
  | (.ok a, w) =>
    let (answer, s) := next a (s.onWorld w)
    (.ok answer, s)
  | (.error e, w) => (.error e, s.onWorld w)

def done (s : State) : Answer × State := (.done, s)

def putTexture (name : String) (t : Texture) (s : State) : Answer × State :=
  (.texture t, { s with textures := s.textures.put name t })

/-- Lets go of the handle kept under a name, if there is one. -/
def letGo (s : State) (name : String) : State :=
  match s.domains.get? name with
  | none => s
  | some d => { s with world := s.world.letGo d, domains := s.domains.erase name }

def putDomain (s : State) (name : String) (d : Nat) : State :=
  { s with domains := s.domains.put name d }

def withDomain (s : State) (d : String) (next : Nat → Except Fault Answer × State) : Outcome :=
  (s.domains.get? d).map next

def withTexture (s : State) (d t : String)
    (next : Nat → Texture → Except Fault Answer × State) : Outcome := do
  let d ← s.domains.get? d
  let t ← s.textures.get? t
  return next d t

def withMarker (s : State) (d m : String)
    (next : Nat → Marker → Except Fault Answer × State) : Outcome := do
  let d ← s.domains.get? d
  let m ← s.markers.get? m
  return next d m

def step (s : State) : Step → Outcome
  | .start name device =>
    let s := s.letGo name
    let (d, w) := s.world.startWorker name device
    some (.ok (.label name), (s.onWorld w).putDomain name d)
  | .keep name copy => s.withDomain name fun d =>
    -- The new handle is taken before an old one of its name goes.
    let s := (s.onWorld (s.world.keep d)).letGo copy
    (.ok (.label (s.world.workers d).label), s.putDomain copy d)
  | .letGo name => s.withDomain name fun _ => (.ok .done, s.letGo name)
  | .texture d t size => s.withDomain d fun d => s.attempt (newTexture d size) (putTexture t)
  | .staging d t size => s.withDomain d fun d => s.attempt (newTexture d size) (putTexture t)
  | .openShare d t shared size => s.withDomain d fun d =>
    s.attempt (openShare d shared size) (putTexture t)
  | .share d t => s.withTexture d t fun d t =>
    s.attempt (share d t) fun number s => (.shared number, s)
  | .aliasTexture t copy => (s.textures.get? t).map fun t =>
    let (answer, s) := s.putTexture copy t
    (.ok answer, s)
  | .write d t data => s.withTexture d t fun d t =>
    s.attempt (write d t data) fun _ s => s.done
  | .convert d t data => s.withTexture d t fun d t =>
    s.attempt (identity d data t) fun _ s => s.done
  | .read d t r => s.withTexture d t fun d t =>
    s.attempt (read d t) fun receiver s =>
      (.done, { s with reads := s.reads.put r receiver })
  | .receive r => (s.reads.get? r).map fun receiver =>
    let (answer, w) := s.world.receive receiver
    (.ok (.received answer), s.onWorld w)
  | .forget r => (s.reads.get? r).map fun _ => (.ok .done, { s with reads := s.reads.erase r })
  | .copy d t dest region => do
    let staging ← s.textures.get? dest
    s.withTexture d t fun d t => s.attempt (stage d t staging region) fun _ s => s.done
  | .map d t => s.withTexture d t fun d _ => s.attempt (complete d) fun _ s => s.done
  | .freeTexture d t => s.withTexture d t fun d texture =>
    { s with textures := s.textures.erase t }.attempt (freeTexture d texture) fun _ s => s.done
  | .freeStaging d t => s.withTexture d t fun d texture =>
    { s with textures := s.textures.erase t }.attempt (freeStaging d texture) fun _ s => s.done
  | .marker d m => s.withDomain d fun d =>
    s.attempt (newMarker d) fun marker s =>
      (.count marker.count, { s with markers := s.markers.put m marker })
  | .record d m => s.withMarker d m fun d marker =>
    s.attempt (record d marker) fun recorded s =>
      (.count recorded.count, { s with markers := s.markers.put m recorded })
  | .poll d m => s.withMarker d m fun d marker =>
    s.attempt (poll d marker) fun retired s => (.ready retired.isSome, s)
  | .freeMarker d m => s.withMarker d m fun d marker =>
    { s with markers := s.markers.erase m }.attempt (freeMarker d marker) fun _ s => s.done
  | .advance d limit => s.withDomain d fun d =>
    (.ok (.executed (s.world.pace d limit)), s.onWorld (s.world.step d limit))
  | .kill d => s.withDomain d fun d => (.ok .done, s.onWorld (s.world.die d))
  | .doom d => s.withDomain d fun d => (.ok .done, s.onWorld (s.world.doom d))

/-- The names of the domains held, in order. -/
def domainNames (s : State) : List String :=
  (s.domains.map (·.1)).mergeSort fun a b => !(b < a)

/-- Lets go of all domains. -/
def letGoAll (s : State) : State := s.domainNames.foldl letGo s

/-- What each receiver holds. -/
def receipts (s : State) : List (String × Receiver) :=
  s.reads.map fun (name, receiver) => (name, (s.world.receive receiver).1)

/-- The workers held, under the names of their handles. -/
def workers (s : State) : List (String × Worker) :=
  s.domains.map fun (name, d) => (name, s.world.workers d)

end State
end SurfaceRelay.Session.SoftDomains
