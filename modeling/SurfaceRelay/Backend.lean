import SurfaceRelay.Extent
import SurfaceRelay.Notice

/-! Execution domains, as a pool sees them.

A pool hands images from a producing domain to a consuming one. The producer owns
the full-size textures and records completion markers, which can be polled; the
consumer opens the same textures by share handle, and is where frames are
written. Neither has a fence the other could wait on: a pool relies only on each
domain retiring its own commands in the order in which they were issued.

Domains are records of operations on an arbitrary world `W`, so that one pool
serves software workers, GL contexts and scripted domains alike. `T` is the
producer's image, `V` the consumer's image, `K` the producer's marker. -/
namespace SurfaceRelay

/-- An operation that may fail. What it did to the world stays done either way. -/
abbrev Attempt (W α : Type) := EStateM Fault W α

/-- An operation with its answer, as a plain value. -/
def Attempt.outcome {S α : Type} (act : Attempt S α) (s : S) : Except Fault α × S :=
  match act s with
  | .ok a s => (.ok a, s)
  | .error e s => (.error e, s)

/-- An operation that puts something new in the place of what it is given, as an operation on that
place. When it fails, `left` stands there. -/
def Attempt.inPlace {W K : Type} (act : K → Attempt W K) (left : K → K) :
    Attempt (K × W) Unit := fun (k, w) =>
  match act k w with
  | .ok k' w => .ok () (k', w)
  | .error e w => .error e (left k, w)

/-- What every domain does with its images. -/
structure Domain (W T : Type) where
  newStaging : Extent → Attempt W T
  /-- Enqueues a copy of the top left region of a texture into a staging resource. -/
  stage : T → T → Extent → Attempt W Unit
  /-- Maps a staging resource for reading, which blocks until every earlier command
  of the domain has retired. -/
  blockOn : T → Attempt W Unit
  freeTexture : T → Attempt W Unit
  freeStaging : T → Attempt W Unit

/-- The producing domain. -/
structure Producer (W T K : Type) extends Domain W T where
  newTexture : Extent → Attempt W T
  /-- The number under which other domains can open the texture. -/
  share : T → Attempt W Nat
  /-- A marker that was never recorded: polling it finds it retired. -/
  newMarker : Attempt W K
  /-- Records a marker behind all work issued so far, in place of any earlier recording. The
  earlier recording may be gone also when this fails, so the marker is part of what is changed. -/
  record : Attempt (K × W) Unit
  /-- The marker as it is left when it has retired, nothing while it is pending. A poll that
  fails leaves the marker as it was. -/
  poll : K → Attempt W (Option K)
  freeMarker : K → Attempt W Unit

/-- The consuming domain. -/
structure Consumer (W V : Type) extends Domain W V where
  /-- Opens what a share handle exports, at an expected extent. The view shows the
  producer's own storage; destroying it closes the view only. -/
  openShare : Nat → Extent → Attempt W V

/-- Both domains of a pool, and the observer of its notices. -/
structure Backend (W T K V : Type) where
  producer : Producer W T K
  consumer : Consumer W V
  note : Notice → W → W

/-- Writes a frame into a consumer's view; nothing is awaited. -/
abbrev Converter (W F V : Type) := F → V → Attempt W Unit

/-- Waits for a domain without a fence: a small region is copied into a staging
resource, which is then mapped. The map blocks until all earlier commands have
retired, and with them every use of the texture. -/
def Domain.drain {W T : Type} (d : Domain W T) (texture staging : T) (region : Extent) :
    Attempt W Unit := do
  d.stage texture staging region
  d.blockOn staging

end SurfaceRelay
