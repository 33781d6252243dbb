import SurfaceRelay.Pool.Basic

/-! The hand-over: surfaces go out for writing, come back released, and go out again.

A released surface may go out again only when it is known to be unused. The pool
asks the marker of the surface at the cursor and no other one (`probe`). While that
surface is busy the ring grows at the cursor (`grow`); a full ring stalls until the
producer has retired everything (`stall`). Growing at the cursor keeps the order in
which the released surfaces will be met, and makes the new surface the next to be
released.

An operation works on the pool together with its world. When it fails the pool is
as it was, apart from the count of failed polls. -/
namespace SurfaceRelay.Pool
variable {W T K V : Type} (b : Backend W T K V)

/-- What is known of a surface that might go out. -/
inductive Verdict (K : Type)
  /-- It may be written; its marker is left like this. -/
  | reusable (marker : K)
  | busy
  /-- Its marker could not be polled, so it counts as busy. -/
  | unknown (cause : Fault)

/-- Judges a surface. Only a released surface with an armed marker is polled. -/
def probe (s : Surface T K V) (w : W) : Verdict K × W :=
  if s.phase ≠ .released then (.reusable s.marker, w)
  else if !s.armed then (.busy, w)
  else
    match b.producer.poll s.marker w with
    | .ok (some marker) w => (.reusable marker, w)
    | .ok none w => (.busy, w)
    | .error e w => (.unknown e, b.note (.pollFailed s.handle e) w)

/-- Puts a surface in place of the one at the cursor, ready to be written. -/
def handOut (p : Pool T K V) (s : Surface T K V) : Pool T K V :=
  { p with ring := p.ring.setCurrent { s with phase := .writing } }

/-- The pool with a new surface at the cursor, ready to be written. -/
def extend (p : Pool T K V) (s : Surface T K V) : Pool T K V :=
  { p with
    ring := p.ring.insert { s with phase := .writing }
    nextHandle := p.nextHandle + 1
    stats := { p.stats with built := p.stats.built + 1 } }

/-- The pool after a forced wait cleared the surface at the cursor. -/
def reclaim (p : Pool T K V) (s : Surface T K V) : Pool T K V :=
  { p.handOut s with stats := { p.stats with stalls := p.stats.stalls + 1 } }

def countMarkerFault (p : Pool T K V) : Pool T K V :=
  { p with stats := { p.stats with markerFaults := p.stats.markerFaults + 1 } }

/-- Builds a surface at the cursor and hands it out. -/
def grow : Attempt (Pool T K V × W) Handle := fun (p, w) =>
  let h : Handle := ⟨p.nextHandle⟩
  match Surface.build b h p.size p.stagingSize w with
  | .error e w => .error e (p, b.note (.creationFailed h e) w)
  | .ok s w =>
    let p := p.extend s
    .ok h (p, b.note (.grew p.ring.size) w)

/-- Waits until the producer has retired everything, and hands out the surface at the
cursor. -/
def stall (s : Surface T K V) : Attempt (Pool T K V × W) Handle := fun (p, w) =>
  match b.producer.drain s.texture s.staging p.stagingSize w with
  | .error e w => .error e (p, b.note (.producerWaitFailed s.handle e) w)
  | .ok _ w => .ok s.handle (p.reclaim s, b.note (.underflow p.ring.cursor) w)

/-- What is done about a busy surface at the cursor. -/
def growOrStall (s : Surface T K V) : Attempt (Pool T K V × W) Handle := fun (p, w) =>
  if p.ring.size < p.capacity then grow b (p, w) else stall b s (p, w)

/-- Hands out a surface for writing. A surface that is out already is handed out
again. -/
def acquire : Attempt (Pool T K V × W) Handle := fun (p, w) =>
  if p.closed then .error .closed (p, w)
  else
    match p.ring.current? with
    | none => grow b (p, w)
    | some s =>
      match probe b s w with
      | (.reusable marker, w) => .ok s.handle (p.handOut { s with marker }, w)
      | (.busy, w) => growOrStall b s (p, w)
      | (.unknown _, w) => growOrStall b s (p.countMarkerFault, w)

/-- The pool after the surface at the cursor was released and the cursor moved on. -/
def passOn (p : Pool T K V) (s : Surface T K V) (stats : Stats) : Pool T K V :=
  { p with ring := (p.ring.setCurrent { s with phase := .released }).advance, stats }

/-- Takes back the surface at the cursor, which must be out under this very handle. Its
marker is recorded behind whatever the producer was given to do with it. A marker that
cannot be recorded does not hold the release up: it is kept as it came back, and the surface
stays busy until a forced wait. -/
def release (h : Handle) : Attempt (Pool T K V × W) Unit := fun (p, w) =>
  if p.closed then .error .closed (p, w)
  else
    match p.ring.current? with
    | none => .error (.staleHandle h) (p, w)
    | some s =>
      if s.handle ≠ h ∨ s.phase ≠ .writing then .error (.staleHandle h) (p, w)
      else
        match b.producer.record (s.marker, w) with
        | .ok _ (marker, w) =>
          .ok () (p.passOn { s with marker, armed := true }
            { p.stats with markersRecorded := p.stats.markersRecorded + 1 }, w)
        | .error e (marker, w) =>
          .ok () (p.passOn { s with marker, armed := false }
            { p.stats with markerFaults := p.stats.markerFaults + 1 },
            b.note (.recordFailed s.handle e) w)

/-- Blocks until everything the consumer was given to do, the writing of this surface
included, has landed. -/
def awaitConsumer (h : Handle) : Attempt (Pool T K V × W) Unit := fun (p, w) =>
  if p.closed then .error .closed (p, w)
  else
    match p.find? h with
    | none => .error (.staleHandle h) (p, w)
    | some s =>
      match b.consumer.drain s.view s.viewStaging p.stagingSize w with
      | .error e w => .error e (p, b.note (.consumerWaitFailed s.handle e) w)
      | .ok _ w => .ok () (p, w)

/-- Tears the pool down. Surfaces in flight are not waited for: a domain keeps alive
what its queued work still uses. A pool that is torn down already stays as it is. -/
def close : Pool T K V × W → Pool T K V × W := fun (p, w) =>
  if p.closed then (p, w)
  else
    let surfaces := p.ring.slots
    let w := surfaces.foldl (fun w s => s.dismantle b w) w
    ({ p with ring := .empty, closed := true },
      b.note (.tornDown (surfaces.countP (·.isBusy)) surfaces.length) w)

end SurfaceRelay.Pool
