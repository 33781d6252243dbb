import SurfaceRelay.Backend

/-! One surface: five resources in two domains that stand for one image.

The producer has the full-size texture, a staging resource and a completion
marker; the consumer has a view of the same texture and a staging resource of its
own. A surface is built in six steps, any of which may fail. Whatever was made
before the failure is destroyed again in reverse order, so that a view is closed
before the storage it shows (`build`); a finished surface is taken apart in the
same order (`dismantle`). A resource that cannot be destroyed is reported and the
rest are destroyed all the same. -/
namespace SurfaceRelay

/-- The life of a surface: idle, being written, released, and idle again. -/
inductive Phase
  /-- Known to be unused in both domains. -/
  | idle
  /-- Handed out for writing and not yet released. -/
  | writing
  /-- Released; a marker guards what the producer still reads of it. -/
  | released
deriving DecidableEq, Repr

structure Surface (T K V : Type) where
  handle : Handle
  texture : T
  staging : T
  marker : K
  /-- The last attempt to record the marker succeeded. Only a forced wait clears a
  released surface that is not armed. -/
  armed : Bool
  view : V
  viewStaging : V
  phase : Phase

namespace Surface
variable {W T K V α β : Type}

/-- Released and not yet handed out again. -/
def isBusy (s : Surface T K V) : Bool := s.phase = .released

/-- Runs `rest` on what `make` made, and takes it back with `undo` when `rest`
fails. -/
def holding (make : Attempt W α) (undo : α → W → W) (rest : α → Attempt W β) : Attempt W β :=
  fun w =>
    match make w with
    | .error e w => .error e w
    | .ok a w =>
      match rest a w with
      | .ok b w => .ok b w
      | .error e w => .error e (undo a w)

variable (b : Backend W T K V) (h : Handle)

/-- Destroys one resource of a surface. A failure is reported and goes no further. -/
def dispose (part : Part) (destroy : Attempt W Unit) (w : W) : W :=
  match destroy w with
  | .ok _ w => w
  | .error e w => b.note (.disposalFailed part h e) w

def disposeTexture (t : T) : W → W :=
  dispose b h .producerTexture (b.producer.freeTexture t)

def disposeStaging (t : T) : W → W :=
  dispose b h .producerStaging (b.producer.freeStaging t)

def disposeMarker (k : K) : W → W :=
  dispose b h .marker (b.producer.freeMarker k)

def disposeView (v : V) : W → W :=
  dispose b h .consumerTexture (b.consumer.freeTexture v)

def disposeViewStaging (v : V) : W → W :=
  dispose b h .consumerStaging (b.consumer.freeStaging v)

/-- Builds an idle surface: texture, share handle, staging resource, marker, view
of the texture, staging resource of the view. -/
def build (size stagingSize : Extent) : Attempt W (Surface T K V) :=
  holding (b.producer.newTexture size) (disposeTexture b h) fun texture => do
    let shared ← b.producer.share texture
    holding (b.producer.newStaging stagingSize) (disposeStaging b h) fun staging =>
      holding b.producer.newMarker (disposeMarker b h) fun marker =>
        holding (b.consumer.openShare shared size) (disposeView b h) fun view => do
          let viewStaging ← b.consumer.newStaging stagingSize
          return {
            handle := h, texture, staging, marker, armed := false, view, viewStaging
            phase := .idle }

/-- Destroys all five resources of a surface, each once, in whatever phase it is. -/
def dismantle (s : Surface T K V) (w : W) : W :=
  disposeTexture b s.handle s.texture <|
    disposeStaging b s.handle s.staging <|
      disposeMarker b s.handle s.marker <|
        disposeView b s.handle s.view <|
          disposeViewStaging b s.handle s.viewStaging w

end Surface
end SurfaceRelay
