import SurfaceRelay.Backend
import SurfaceRelay.Script.Rule
import SurfaceRelay.Script.Verb
import SurfaceRelay.Side

/-! Scripted domains.

A scripted domain draws no pixels. It numbers what it creates, remembers what is live,
counts the markers recorded and retired, and fails whenever a rule of its script fires. A
call that a rule fails has no other effect. Markers retire only when the script says
so. -/
namespace SurfaceRelay.Script

structure Image where
  id : Nat
  size : Extent
deriving DecidableEq, Repr

structure Marker where
  id : Nat
  /-- The count that retires the marker, 0 when it was never recorded. -/
  count : Nat
deriving DecidableEq, Repr

/-- One scripted domain. -/
structure Desk where
  /-- The last number given to a resource. -/
  lastId : Nat := 0
  /-- The numbers of the resources that exist, ascending. -/
  live : List Nat := []
  submitted : Nat := 0
  retired : Nat := 0
  rules : Rules Fault := []

/-- Both domains. -/
abbrev World := Both Desk

namespace World

def blank : World := ⟨{}, {}⟩

/-- Lets a rule fail the calls of one name on one side. -/
def fail (w : World) (side : Side) (call : String) (r : Rule Fault) : World :=
  let d := w.get side
  w.set side { d with rules := d.rules.put call r }

def recover (w : World) (side : Side) (call : String) : World :=
  let d := w.get side
  w.set side { d with rules := d.rules.erase call }

/-- Retires the producer's markers up to a count, all of them without one. Markers never
become pending again, and none retires before it was recorded. -/
def retire (w : World) (upTo : Option Nat) : World :=
  let d := w.producer
  let count := min (upTo.getD d.submitted) d.submitted
  { w with producer := { d with retired := max d.retired count } }

end World

/-- Answers a call unless a rule fails it. -/
def answer {α : Type} (side : Side) (verb : Verb) (act : Desk → α × Desk) : Attempt World α :=
  fun w =>
    let d := w.get side
    let (fault, rules) := d.rules.next verb.name
    match fault with
    | some e => .error e (w.set side { d with rules })
    | none =>
      let (a, d) := act { d with rules }
      .ok a (w.set side d)

/-- Creates a resource under the next number. -/
def Desk.create {α : Type} (resource : Nat → α) (d : Desk) : α × Desk :=
  let id := d.lastId + 1
  (resource id, { d with lastId := id, live := d.live ++ [id] })

def Desk.destroy (id : Nat) (d : Desk) : Unit × Desk := ((), { d with live := d.live.erase id })

/-- Counts a marker as submitted; it retires with that count. -/
def Desk.record (m : Marker) (d : Desk) : Marker × Desk :=
  let count := d.submitted + 1
  ({ m with count }, { d with submitted := count })

def Desk.poll (m : Marker) (d : Desk) : Option Marker × Desk :=
  (if m.count ≤ d.retired then some m else none, d)

/-- A texture's share handle is its number plus this. -/
def shareOffset : Nat := 1000

def domain (side : Side) : Domain World Image where
  newStaging size := answer side .newStaging (Desk.create (⟨·, size⟩))
  stage _ _ _ := answer side .stage fun d => ((), d)
  blockOn _ := answer side .blockOn fun d => ((), d)
  freeTexture t := answer side .freeTexture (Desk.destroy t.id)
  freeStaging t := answer side .freeStaging (Desk.destroy t.id)

def producer : Producer World Image Marker where
  toDomain := domain .producer
  newTexture size := answer .producer .newTexture (Desk.create (⟨·, size⟩))
  share t := answer .producer .share fun d => (t.id + shareOffset, d)
  newMarker := answer .producer .newMarker (Desk.create (⟨·, 0⟩))
  record := .inPlace (fun m => answer .producer .record (Desk.record m)) id
  poll m := answer .producer .poll (Desk.poll m)
  freeMarker m := answer .producer .freeMarker (Desk.destroy m.id)

def consumer : Consumer World Image where
  toDomain := domain .consumer
  openShare _ size := answer .consumer .openShare (Desk.create (⟨·, size⟩))

/-- Both scripted domains; notices change nothing. -/
def backend : Backend World Image Marker Image where
  producer := producer
  consumer := consumer
  note _ w := w

/-- A converter that writes nothing. Frames are numbers. -/
def converter : Converter World Nat Image := fun _ _ =>
  answer .consumer .convert fun d => ((), d)

end SurfaceRelay.Script
