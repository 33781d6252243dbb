import SurfaceRelay.Proofs.Following
import SurfaceRelay.Soft.Domain

/-! Workers at work while a caller uses their domains.

What a worker does happens between the calls that a caller makes to its domains, and while the
caller waits for a map. A schedule says what: it has one list of events for each time that the
caller gives way. Whatever is said of every schedule is said of every order in which callers
and workers can take turns. With nothing scheduled the domains are the plain ones. -/
namespace SurfaceRelay.Soft

/-- What a worker does by itself, or what happens to it. -/
inductive Event
  /-- It executes the oldest command it has accepted. -/
  | execute (d : Nat)
  | kill (d : Nat)
  | doom (d : Nat)
deriving DecidableEq, Repr

namespace World

def happen (w : World) : Event → World
  | .execute d => w.executeNext d
  | .kill d => w.die d
  | .doom d => w.doom d

def elapse (w : World) (events : List Event) : World := events.foldl happen w

end World

/-- A world together with what will happen in it. -/
structure Concurrent where
  world : World
  schedule : List (List Event)

namespace Concurrent
variable {α : Type}

/-- The caller gives way: what is scheduled next happens. -/
def yield (x : Concurrent) : Concurrent :=
  match x.schedule with
  | [] => x
  | events :: rest => ⟨x.world.elapse events, rest⟩

/-- Gives way, then makes a call. -/
def call (act : Attempt World α) : Attempt Concurrent α := fun x =>
  match act x.yield.world with
  | .ok a world => .ok a ⟨world, x.yield.schedule⟩
  | .error e world => .error e ⟨world, x.yield.schedule⟩

/-- Succeeds if the worker is alive. -/
def alive (d : Nat) (refusal : Refusal) : Attempt World Unit := fun w =>
  if (w.workers d).health = .dead then refuse refusal w else .ok () w

/-- Maps a staging resource: hands the end of the map in, and waits for it. The worker may die
in between. -/
def blockOn (d : Nat) : Attempt Concurrent Unit := do
  call (alive d .workerExited)
  call do
    alive d .diedInMap
    complete d

/-- Gives way, then lets go of a handle to a domain. -/
def letGo (x : Concurrent) (d : Nat) : Concurrent := ⟨x.yield.world.letGo d, x.yield.schedule⟩

/-! ### Domains that give way -/

def domain (d : Nat) : Domain Concurrent Texture where
  newStaging size := call (newTexture d size)
  stage texture staging region := call (stage d texture staging region)
  blockOn _ := blockOn d
  freeTexture t := call (freeTexture d t)
  freeStaging t := call (freeStaging d t)

def producer (d : Nat) : Producer Concurrent Texture Marker where
  toDomain := domain d
  newTexture size := call (newTexture d size)
  share t := call (share d t)
  newMarker := call (newMarker d)
  record := .inPlace (fun m => call (record d m)) id
  poll m := call (poll d m)
  freeMarker m := call (freeMarker d m)

def consumer (d : Nat) : Consumer Concurrent Texture where
  toDomain := domain d
  openShare shared size := call (openShare d shared size)

def backend (p c : Nat) : Backend Concurrent Texture Marker Texture where
  producer := producer p
  consumer := consumer c
  note _ x := x

def identity (c : Nat) : Converter Concurrent Pixels Texture := fun frame view =>
  call (write c view frame)

/-! ### With nothing scheduled -/

def idle (w : World) : Concurrent := ⟨w, []⟩

theorem call_idle (act : Attempt World α) : Attempt.Follows idle act (call act) := by
  intro w
  simp only [call, yield, idle]
  cases act w <;> rfl

/-- A map that nothing comes in the way of is the plain one. -/
theorem blockOn_idle (d : Nat) : Attempt.Follows idle (complete d) (blockOn d) := by
  intro w
  by_cases hd : (w.workers d).health = .dead
  · have hdead : alive d .workerExited w = .error Refusal.workerExited.fault w := if_pos hd
    have halive : call (alive d .workerExited) (idle w) =
        .error Refusal.workerExited.fault (idle w) := by
      rw [call_idle, hdead]
      rfl
    have hcomplete : complete d w = .error Refusal.workerExited.fault w := by
      simp only [complete, hd, refuse]
    simp only [blockOn, bind, EStateM.bind, halive, hcomplete]
    rfl
  · have halive (r : Refusal) : alive d r w = .ok () w := if_neg hd
    have hfirst : call (alive d .workerExited) (idle w) = .ok () (idle w) := by
      rw [call_idle, halive]
      rfl
    rw [blockOn, Attempt.bind_of_ok hfirst, call_idle, Attempt.bind_of_ok (halive _)]

theorem domain_idle (d : Nat) : (Soft.domain d).Follows idle (domain d) :=
  ⟨fun _ => call_idle _, fun _ _ _ => call_idle _, fun _ => blockOn_idle d, fun _ => call_idle _,
    fun _ => call_idle _⟩

/-- With nothing scheduled the domains are the plain ones. -/
theorem backend_idle (p c : Nat) : (Soft.backend p c).Follows idle (backend p c) :=
  ⟨domain_idle p, domain_idle c, fun _ => call_idle _, fun _ => call_idle _, call_idle _,
    Attempt.follows_inPlace fun _ => call_idle _, fun _ => call_idle _, fun _ => call_idle _,
    fun _ _ => call_idle _, fun _ _ => rfl⟩

theorem identity_idle (c : Nat) (frame : Pixels) (view : Texture) :
    Attempt.Follows idle (Soft.identity c frame view) (identity c frame view) := call_idle _

end Concurrent
end SurfaceRelay.Soft
