import SurfaceRelay.Proofs.Soft.Progress

/-! Workers at work, with an account of what they did.

`Watched` keeps, next to a world and its schedule, what each worker has accepted and what it has
executed since the account was opened. Nothing depends on the account: without it, domains that
are watched do what domains at work do (`backend_follows`).

Between two requests to a pool its embedder may use the domains for itself and the workers may
go on (`Meanwhile`). -/
namespace SurfaceRelay.Soft

/-- A world with its schedule, and with an account for each worker. -/
structure Watched extends Concurrent where
  accepted : Nat → List Command
  executed : Nat → List Command

namespace Watched
variable {α : Type}

/-- Nothing was executed yet, and what is queued was accepted. -/
def start (w : World) (schedule : List (List Event)) : Watched :=
  { world := w, schedule, accepted := w.queue, executed := fun _ => [] }

/-! ### Work -/

/-- A command counts as executed when it could be carried out. -/
def executeNext (x : Watched) (d : Nat) : Watched :=
  { x with
    world := x.world.executeNext d
    executed := Table.put x.executed d (x.executed d ++ (x.world.next? d).toList) }

def executeMany (x : Watched) (d : Nat) : Nat → Watched
  | 0 => x
  | n + 1 => (x.executeNext d).executeMany d n

def drain (x : Watched) (d : Nat) : Watched := x.executeMany d (x.world.queue d).length

def happen (x : Watched) : Event → Watched
  | .execute d => x.executeNext d
  | .kill d => { x with world := x.world.die d }
  | .doom d => { x with world := x.world.doom d }

def elapse (x : Watched) (events : List Event) : Watched := events.foldl happen x

def yield (x : Watched) : Watched :=
  match x.schedule with
  | [] => x
  | events :: rest => { x with schedule := rest }.elapse events

/-! ### Calls -/

/-- Goes on to a world that a call led to: what stands behind the old queues was accepted. -/
def enter (x : Watched) (w : World) : Watched :=
  { x with
    world := w
    accepted := fun d => x.accepted d ++ (w.queue d).drop (x.world.queue d).length }

/-- Gives way, then makes a call that executes nothing itself. -/
def call (act : Attempt World α) : Attempt Watched α := fun x =>
  match act x.yield.world with
  | .ok a w => .ok a (x.yield.enter w)
  | .error e w => .error e (x.yield.enter w)

/-- Gives way, then waits for the end of a map. -/
def finish (d : Nat) : Attempt Watched Unit := fun x =>
  let x := x.yield
  match (x.world.workers d).health with
  | .dead => .error Refusal.diedInMap.fault x
  | .doomed => .error Refusal.diedInMap.fault ((x.drain d).happen (.kill d))
  | .live =>
    let x := x.drain d
    if (x.world.workers d).health = .dead then .error Refusal.diedInMap.fault x else .ok () x

def blockOn (d : Nat) : Attempt Watched Unit := do
  call (Concurrent.alive d .workerExited)
  finish d

/-- Gives way, then takes one more handle to a domain. -/
def keep (x : Watched) (d : Nat) : Watched :=
  let x := x.yield
  { x with world := x.world.keep d }

/-- Gives way, then lets go of a handle to a domain. -/
def letGo (x : Watched) (d : Nat) : Watched :=
  let x := x.yield
  let k := x.world.workers d
  let x := { x with world := x.world.setWorker d { k with handles := k.handles - 1 } }
  if k.handles ≤ 1 then (x.drain d).happen (.kill d) else x

/-! ### Watched domains -/

def domain (d : Nat) : Domain Watched Texture where
  newStaging size := call (newTexture d size)
  stage texture staging region := call (stage d texture staging region)
  blockOn _ := blockOn d
  freeTexture t := call (freeTexture d t)
  freeStaging t := call (freeStaging d t)

def producer (d : Nat) : Producer Watched Texture Marker where
  toDomain := domain d
  newTexture size := call (newTexture d size)
  share t := call (share d t)
  newMarker := call (newMarker d)
  record := .inPlace (fun m => call (record d m)) id
  poll m := call (poll d m)
  freeMarker m := call (freeMarker d m)

def consumer (d : Nat) : Consumer Watched Texture where
  toDomain := domain d
  openShare shared size := call (openShare d shared size)

def backend (p c : Nat) : Backend Watched Texture Marker Texture where
  producer := producer p
  consumer := consumer c
  note _ x := x

/-- What an embedder does with a domain of its own accord, with whatever textures, or what
happens to a worker meanwhile. -/
inductive Deed
  | newTexture (d : Nat) (size : Extent)
  | freeTexture (d : Nat) (texture : Texture)
  | share (d : Nat) (texture : Texture)
  | openShare (d shared : Nat) (size : Extent)
  | write (d : Nat) (texture : Texture) (data : Pixels)
  | read (d : Nat) (texture : Texture)
  | copy (d : Nat) (texture staging : Texture) (region : Extent)
  | map (d : Nat)
  | record (d : Nat) (m : Marker)
  | poll (d : Nat) (m : Marker)
  /-- Takes what a receiver holds. -/
  | receive (r : Nat)
  | happen (e : Event)

/-- Does it, whatever is answered. -/
def perform (x : Watched) : Deed → Watched
  | .newTexture d size => (Attempt.outcome (call (Soft.newTexture d size)) x).2
  | .freeTexture d texture => (Attempt.outcome (call (Soft.freeTexture d texture)) x).2
  | .share d texture => (Attempt.outcome (call (Soft.share d texture)) x).2
  | .openShare d shared size => (Attempt.outcome (call (Soft.openShare d shared size)) x).2
  | .write d texture data => (Attempt.outcome (call (Soft.write d texture data)) x).2
  | .read d texture => (Attempt.outcome (call (Soft.read d texture)) x).2
  | .copy d texture staging region =>
    (Attempt.outcome (call (Soft.stage d texture staging region)) x).2
  | .map d => (Attempt.outcome (blockOn d) x).2
  | .record d m => (Attempt.outcome (call (Soft.record d m)) x).2
  | .poll d m => (Attempt.outcome (call (Soft.poll d m)) x).2
  | .receive r => { x with world := (x.world.receive r).2 }
  | .happen e => x.happen e

/-- What may come of a world between two requests to a pool. -/
def Meanwhile (x x' : Watched) : Prop := ∃ deeds : List Deed, x' = deeds.foldl perform x

/-! ### The account changes nothing -/

theorem toConcurrent_executeMany (x : Watched) (d n : Nat) :
    (x.executeMany d n).toConcurrent = ⟨x.world.executeMany d n, x.schedule⟩ := by
  induction n generalizing x with
  | zero => rfl
  | succ n ih => exact ih (x.executeNext d)

theorem toConcurrent_happen (x : Watched) (e : Event) :
    (x.happen e).toConcurrent = ⟨x.world.happen e, x.schedule⟩ := by
  cases e <;> rfl

theorem toConcurrent_elapse (x : Watched) (events : List Event) :
    (x.elapse events).toConcurrent = ⟨x.world.elapse events, x.schedule⟩ := by
  induction events generalizing x with
  | nil => rfl
  | cons e events ih =>
    have hfirst := toConcurrent_happen x e
    have hrest := ih (x.happen e)
    rw [hfirst] at hrest
    exact hrest

theorem toConcurrent_yield (x : Watched) : x.yield.toConcurrent = x.toConcurrent.yield := by
  simp only [yield, Concurrent.yield]
  cases x.schedule with
  | nil => rfl
  | cons events rest => exact toConcurrent_elapse { x with schedule := rest } events

theorem call_follows (act : Attempt World α) :
    Attempt.Follows toConcurrent (call act) (Concurrent.call act) := by
  intro x
  have hyield := toConcurrent_yield x
  simp only [call, Concurrent.call, ← hyield]
  cases act x.yield.world <;> rfl

theorem finish_follows (d : Nat) :
    Attempt.Follows toConcurrent (finish d)
      (Concurrent.call do
        Concurrent.alive d .diedInMap
        complete d) := by
  intro x
  have hyield := toConcurrent_yield x
  simp only [finish, Concurrent.call, ← hyield]
  generalize x.yield = y
  have hdrain : (y.drain d).toConcurrent = ⟨y.world.drain d, y.schedule⟩ :=
    toConcurrent_executeMany y d _
  have hworld : (y.drain d).world = y.world.drain d := by rw [hdrain]
  have hschedule : (y.drain d).schedule = y.schedule := by rw [hdrain]
  by_cases hdead : (y.world.workers d).health = .dead
  · have halive : Concurrent.alive d .diedInMap y.world = refuse .diedInMap y.world := if_pos hdead
    simp only [bind, EStateM.bind, halive, refuse, hdead]
    rfl
  · have halive : Concurrent.alive d .diedInMap y.world = .ok () y.world := if_neg hdead
    rw [Attempt.bind_of_ok halive]
    simp only [complete]
    cases hhealth : (y.world.workers d).health with
    | dead => exact absurd hhealth hdead
    | doomed =>
      simp only [refuse, Attempt.mapState, happen, ← hworld, ← hschedule]
    | live =>
      simp only [← hworld]
      by_cases hdied : ((y.drain d).world.workers d).health = .dead
      · simp only [if_pos hdied, refuse, Attempt.mapState, ← hschedule]
      · simp only [if_neg hdied, Attempt.mapState, ← hschedule]

theorem blockOn_follows (d : Nat) :
    Attempt.Follows toConcurrent (blockOn d) (Concurrent.blockOn d) :=
  Attempt.follows_bind (call_follows _) fun _ => finish_follows d

theorem domain_follows (d : Nat) : (domain d).Follows toConcurrent (Concurrent.domain d) where
  newStaging size := call_follows (newTexture d size)
  stage t s region := call_follows (stage d t s region)
  blockOn _ := blockOn_follows d
  freeTexture t := call_follows (freeTexture d t)
  freeStaging t := call_follows (freeStaging d t)

/-- Watched domains do what domains at work do. -/
theorem backend_follows (p c : Nat) :
    (backend p c).Follows toConcurrent (Concurrent.backend p c) where
  producer := domain_follows p
  consumer := domain_follows c
  newTexture size := call_follows (newTexture p size)
  share t := call_follows (share p t)
  newMarker := call_follows (newMarker p)
  record := Attempt.follows_inPlace fun m => call_follows (record p m)
  poll m := call_follows (poll p m)
  freeMarker m := call_follows (freeMarker p m)
  openShare shared size := call_follows (openShare c shared size)
  note _ _ := rfl

end Watched
end SurfaceRelay.Soft
