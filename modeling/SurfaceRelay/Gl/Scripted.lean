import SurfaceRelay.Gl.Context
import SurfaceRelay.Script.Rule
import SurfaceRelay.Side

/-! A scripted GL for two contexts.

Texture names and sync objects are numbered for both contexts together, framebuffers for
each context. Texture names are 32-bit words and sync objects 64-bit words, and their
numbering starts over behind the last word. A context has one error flag: `getError`
reads and clears it, and a rule can make any other call raise it, which has no effect on
a flag that is raised already. A sync object is signaled when the script says so. -/
namespace SurfaceRelay.Gl.Scripted
open SurfaceRelay.Script (Rules Rule)

structure Context where
  lastFramebuffer : Nat := 0
  /-- The error flag, 0 when it is clear. -/
  error : Nat := 0
  /-- The status that every wait ends with, if scripted. -/
  waitStatus : Option Nat := none
  /-- No sync object can be made. -/
  nullFence : Bool := false
  /-- The codes that calls raise. -/
  rules : Rules Nat := []

structure State where
  contexts : Both Context
  nextTexture : UInt32
  nextSync : UInt64
  /-- The sync objects made so far. -/
  syncs : List Nat
  signaled : List Nat

def State.initial : State := ⟨⟨{}, {}⟩, 1, 1, [], []⟩

namespace State

def context (s : State) (side : Side) : Context := s.contexts.get side

def setContext (s : State) (side : Side) (c : Context) : State :=
  { s with contexts := s.contexts.set side c }

/-- Lets the calls of one name raise an error. -/
def fail (s : State) (side : Side) (call : String) (r : Rule Nat) : State :=
  let c := s.context side
  s.setContext side { c with rules := c.rules.put call r }

def recover (s : State) (side : Side) (call : String) : State :=
  let c := s.context side
  s.setContext side { c with rules := c.rules.erase call }

def setError (s : State) (side : Side) (error : Nat) : State :=
  s.setContext side { s.context side with error }

def setWaitStatus (s : State) (side : Side) (waitStatus : Option Nat) : State :=
  s.setContext side { s.context side with waitStatus }

def setNullFence (s : State) (side : Side) (nullFence : Bool) : State :=
  s.setContext side { s.context side with nullFence }

/-- Signals one sync object. Without a number exactly the ones made so far are
signaled. -/
def signal (s : State) : Option Nat → State
  | some sync => { s with signaled := sync :: s.signaled }
  | none => { s with signaled := s.syncs }

/-- Raises the error flag if a rule for this call says so. -/
def raise (s : State) (side : Side) (call : String) : State :=
  let c := s.context side
  let (code, rules) := c.rules.next call
  let error := if c.error = noError then code.getD noError else c.error
  s.setContext side { c with rules, error }

/-- What the call does besides raising an error. -/
def perform (s : State) (side : Side) : Call → Nat × State
  | .genTextures => (s.nextTexture.toNat, { s with nextTexture := s.nextTexture + 1 })
  | .genFramebuffers =>
    let c := s.context side
    let name := c.lastFramebuffer + 1
    (name, s.setContext side { c with lastFramebuffer := name })
  | .fenceSync =>
    if (s.context side).nullFence then (0, s)
    else
      let sync := s.nextSync.toNat
      (sync, { s with nextSync := s.nextSync + 1, syncs := sync :: s.syncs })
  | .clientWaitSync sync =>
    let reached := if s.signaled.contains sync then alreadySignaled else timeoutExpired
    ((s.context side).waitStatus.getD reached, s)
  | .getError => ((s.context side).error, s.setError side noError)
  | _ => (0, s)

end State

/-- Answers calls as scripted. -/
def driver : Driver Side State
  | side, .getError, s => s.perform side .getError
  | side, c, s => (s.raise side c.name).perform side c

/-! ### Changing the script -/

inductive Direction
  | fail (side : Side) (call : String) (r : Rule Nat)
  | recover (side : Side) (call : String)
  | setError (side : Side) (code : Nat)
  | setWaitStatus (side : Side) (status : Option Nat)
  | setNullFence (side : Side) (on : Bool)
  | signal (sync : Option Nat)
  | nextTexture (name : UInt32)
  | nextSync (sync : UInt64)

def State.direct (s : State) : Direction → State
  | .fail side call r => s.fail side call r
  | .recover side call => s.recover side call
  | .setError side code => s.setError side code
  | .setWaitStatus side status => s.setWaitStatus side status
  | .setNullFence side on => s.setNullFence side on
  | .signal sync => s.signal sync
  | .nextTexture name => { s with nextTexture := name }
  | .nextSync sync => { s with nextSync := sync }

/-- A share group over the scripted GL. A sync object that cannot be made is handed on as 0. -/
def group (hooked : Side → Bool) : Group Side State := { driver, hooked }

/-- Nothing has happened and no context is known to be current. -/
def World.initial : World Side State := ⟨.initial, none, []⟩

def entryText : Entry Side → String
  | .activated side => side.letter ++ " activate"
  | .call side c answer => side.letter ++ " " ++ c.text answer
  | .notice n => n.text

end SurfaceRelay.Gl.Scripted
