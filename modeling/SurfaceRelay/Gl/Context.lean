import SurfaceRelay.Backend
import SurfaceRelay.Gl.Call

/-! GL contexts of one share group, driven from one thread.

The GL under the contexts is arbitrary: a driver answers every call with a number, which
is the new name for the calls that generate one, the status for a wait, the error code
for `getError`, and nothing of interest otherwise. When no sync object could be made that number
is 0. A context may hand it on as it is, or report an error instead.

Before a domain works on its context the context has to be made current. Some domains
have a hook that does so, and the world remembers whose hook ran last, so that a hook
does not run twice in a row. A domain without a hook leaves its context to its caller,
after which nobody knows what is current. -/
namespace SurfaceRelay.Gl

/-- How contexts named by `κ` answer calls, over a state of their own. -/
abbrev Driver (κ σ : Type) := κ → Call → σ → Nat × σ

inductive Entry (κ : Type)
  /-- The activation hook of a context ran. -/
  | activated (k : κ)
  | call (k : κ) (c : Call) (answer : Nat)
  | notice (n : Notice)
deriving DecidableEq

structure World (κ σ : Type) where
  gl : σ
  /-- The context that is known to be current. -/
  current : Option κ
  /-- What has happened, oldest entry first. -/
  log : List (Entry κ)

/-- A share group: its driver, which contexts have an activation hook, and what they report. -/
structure Group (κ σ : Type) where
  driver : Driver κ σ
  hooked : κ → Bool
  /-- The error that a context reports when no sync object could be made, if it reports one. -/
  fenceError? : κ → σ → Option String := fun _ _ => none

namespace Group
variable {κ σ : Type} (g : Group κ σ) (k : κ)

/-- Makes a context current. -/
def enter [DecidableEq κ] : Attempt (World κ σ) Unit := fun w =>
  if !g.hooked k then .ok () { w with current := none }
  else if w.current = some k then .ok () w
  else .ok () { w with current := some k, log := w.log ++ [.activated k] }

/-- Makes one GL call. -/
def call (c : Call) : Attempt (World κ σ) Nat := fun w =>
  let (answer, gl) := g.driver k c w.gl
  .ok answer { w with gl, log := w.log ++ [.call k c answer] }

/-- Makes GL calls of which no answer is used. -/
def calls : List Call → Attempt (World κ σ) Unit
  | [] => pure ()
  | c :: rest => do
    let _ ← g.call k c
    calls rest

end Group

def World.note {κ σ : Type} (n : Notice) (w : World κ σ) : World κ σ :=
  { w with log := w.log ++ [.notice n] }

end SurfaceRelay.Gl
