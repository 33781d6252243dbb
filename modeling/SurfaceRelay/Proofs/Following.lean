import SurfaceRelay.Proofs.Translation
import SurfaceRelay.Trace

/-! Backends that do the same in two worlds.

Given a map between two worlds, a call of one world follows a call of the other when it gives
the same answer in the mapped world and leaves the mapped result. A backend follows another one
when its calls do. Then a translation that reads images and markers as themselves leads from the
one to the other (`Follows.translates`), so presenters over them do the same: what is said over
one backend is said over the other. A recorded backend follows the backend that it records
(`recorded_follows`). -/
namespace SurfaceRelay

namespace Attempt
variable {S S' α β : Type}

/-- A result with its state mapped. -/
def mapState (f : S → S') : EStateM.Result Fault S α → EStateM.Result Fault S' α
  | .ok a s => .ok a (f s)
  | .error e s => .error e (f s)

/-- What `act` does, `act'` does in the mapped state. -/
def Follows (f : S → S') (act : Attempt S α) (act' : Attempt S' α) : Prop :=
  ∀ s, act' (f s) = mapState f (act s)

variable {f : S → S'} {act : Attempt S α} {act' : Attempt S' α}

theorem follows_iff : Follows f act act' ↔ Translates f id act act' := by
  have hsame (r : EStateM.Result Fault S α) : mapState f r = mapResult f id r := by
    cases r <;> rfl
  simp only [Follows, Translates, hsame]

theorem follows_bind {next : α → Attempt S β} {next' : α → Attempt S' β}
    (hact : Follows f act act') (hnext : ∀ a, Follows f (next a) (next' a)) :
    Follows f (act >>= next) (act' >>= next') :=
  follows_iff.2 (translates_bind (follows_iff.1 hact) fun a => follows_iff.1 (hnext a))

/-- What stands in a place when an operation on it fails, stands there in either world. -/
theorem follows_inPlace {act : α → Attempt S α} {act' : α → Attempt S' α} {left : α → α}
    (h : ∀ a, Follows f (act a) (act' a)) :
    Follows (Prod.map id f) (inPlace act left) (inPlace act' left) := by
  intro x
  simp only [inPlace, Prod.map, id]
  rw [h x.1 x.2]
  rcases act x.1 x.2 with _ | _ <;> rfl

end Attempt

variable {W W' F T K V α β : Type} {f : W → W'}

/-! ### Backends -/

structure Domain.Follows (f : W → W') (d : Domain W T) (d' : Domain W' T) : Prop where
  newStaging : ∀ size, Attempt.Follows f (d.newStaging size) (d'.newStaging size)
  stage : ∀ t s region, Attempt.Follows f (d.stage t s region) (d'.stage t s region)
  blockOn : ∀ s, Attempt.Follows f (d.blockOn s) (d'.blockOn s)
  freeTexture : ∀ t, Attempt.Follows f (d.freeTexture t) (d'.freeTexture t)
  freeStaging : ∀ s, Attempt.Follows f (d.freeStaging s) (d'.freeStaging s)

structure Backend.Follows (f : W → W') (b : Backend W T K V) (b' : Backend W' T K V) : Prop where
  producer : b.producer.toDomain.Follows f b'.producer.toDomain
  consumer : b.consumer.toDomain.Follows f b'.consumer.toDomain
  newTexture : ∀ size, Attempt.Follows f (b.producer.newTexture size) (b'.producer.newTexture size)
  share : ∀ t, Attempt.Follows f (b.producer.share t) (b'.producer.share t)
  newMarker : Attempt.Follows f b.producer.newMarker b'.producer.newMarker
  record : Attempt.Follows (Prod.map id f) b.producer.record b'.producer.record
  poll : ∀ k, Attempt.Follows f (b.producer.poll k) (b'.producer.poll k)
  freeMarker : ∀ k, Attempt.Follows f (b.producer.freeMarker k) (b'.producer.freeMarker k)
  openShare : ∀ shared size,
    Attempt.Follows f (b.consumer.openShare shared size) (b'.consumer.openShare shared size)
  note : ∀ n w, b'.note n (f w) = f (b.note n w)

theorem Domain.Follows.drain {d : Domain W T} {d' : Domain W' T} (h : d.Follows f d')
    (t s : T) (region : Extent) : Attempt.Follows f (d.drain t s region) (d'.drain t s region) :=
  Attempt.follows_bind (h.stage t s region) fun _ => h.blockOn s

theorem Domain.Follows.translates {d : Domain W T} {d' : Domain W' T} (h : d.Follows f d') :
    d.Translates f id d' where
  newStaging size := Attempt.follows_iff.1 (h.newStaging size)
  stage t s region := Attempt.follows_iff.1 (h.stage t s region)
  blockOn s := Attempt.follows_iff.1 (h.blockOn s)
  freeTexture t := Attempt.follows_iff.1 (h.freeTexture t)
  freeStaging s := Attempt.follows_iff.1 (h.freeStaging s)

namespace Backend.Follows
variable {b : Backend W T K V} {b' : Backend W' T K V}

theorem translates (h : b.Follows f b') : b.Translates (.ofWorld f) b' where
  producer := h.producer.translates
  consumer := h.consumer.translates
  newTexture size := Attempt.follows_iff.1 (h.newTexture size)
  share t := Attempt.follows_iff.1 (h.share t)
  newMarker := Attempt.follows_iff.1 h.newMarker
  record := Attempt.follows_iff.1 h.record
  poll k := by
    rw [show (Translation.ofWorld f : Translation W T K V W' T K V).marker = id from rfl,
      Option.map_id]
    exact Attempt.follows_iff.1 (h.poll k)
  freeMarker k := Attempt.follows_iff.1 (h.freeMarker k)
  openShare shared size := Attempt.follows_iff.1 (h.openShare shared size)
  note := h.note

/-! ### States -/

/-- A state with a pool or a presenter, its world mapped. -/
def onWorld (f : W → W') : α × W → α × W' := fun x => (x.1, f x.2)

theorem onWorld_mk (a : α) (w : W) : onWorld f (a, w) = (a, f w) := rfl

theorem onPresenter_ofWorld :
    (Translation.ofWorld f : Translation W T K V W' T K V).onPresenter = onWorld f := by
  funext x
  have hpool := Translation.pool_ofWorld f x.1.pool
  simp only [Translation.onPresenter, Translation.presenter, hpool]
  rfl

theorem onPool_ofWorld :
    (Translation.ofWorld f : Translation W T K V W' T K V).onPool = onWorld f := by
  funext x
  have hpool := Translation.pool_ofWorld (T := T) (K := K) (V := V) f x.1
  simp only [Translation.onPool, hpool]
  rfl

/-! ### Pools -/

/-- A request is answered alike, and the states around it are mapped. -/
theorem turn (h : b.Follows f b') (x : Pool T K V × W) (op : Pool.Op) :
    Pool.turn b' (onWorld f x) op =
      { op, answer := (Pool.turn b x op).answer, before := onWorld f x
        after := onWorld f (Pool.turn b x op).after } := by
  cases op with
  | acquire =>
    have hacquire := h.translates.acquire x
    rw [onPool_ofWorld] at hacquire
    rw [Pool.turn_acquire, Pool.turn_acquire, hacquire]
    cases Pool.acquire b x <;> rfl
  | release k =>
    have hrelease := h.translates.release k x
    rw [onPool_ofWorld] at hrelease
    rw [Pool.turn_release, Pool.turn_release, hrelease]
    cases Pool.release b k x <;> rfl
  | awaitConsumer k =>
    have hawait := h.translates.awaitConsumer k x
    rw [onPool_ofWorld] at hawait
    rw [Pool.turn_awaitConsumer, Pool.turn_awaitConsumer, hawait]
    cases Pool.awaitConsumer b k x <;> rfl
  | close =>
    have hclose := h.translates.closePool x
    rw [onPool_ofWorld] at hclose
    rw [Pool.turn_close, Pool.turn_close, hclose]

/-! ### Presenters -/

variable {convert : Converter W F V} {convert' : Converter W' F V}

theorem retract (h : b.Follows f b') (s : Presenter T K V) (w : W) :
    Presenter.retract b' (s, f w) = onWorld f (Presenter.retract b (s, w)) := by
  rw [← onPresenter_ofWorld, ← h.translates.retract, onPresenter_ofWorld, onWorld_mk]

theorem present (h : b.Follows f b')
    (hconvert : ∀ frame v, Attempt.Follows f (convert frame v) (convert' frame v)) (frame : F) :
    Attempt.Follows (onWorld f)
      (Presenter.present b convert frame : Attempt (Presenter T K V × W) Handle)
      (Presenter.present b' convert' frame) := by
  rw [Attempt.follows_iff, ← onPresenter_ofWorld]
  exact h.translates.present (fun frame v => Attempt.follows_iff.1 (hconvert frame v)) frame

theorem close (h : b.Follows f b') (s : Presenter T K V) (w : W) :
    Presenter.close b' (s, f w) = onWorld f (Presenter.close b (s, w)) := by
  rw [← onPresenter_ofWorld, ← h.translates.close, onPresenter_ofWorld, onWorld_mk]

theorem run (h : b.Follows f b')
    (hconvert : ∀ frame v, Attempt.Follows f (convert frame v) (convert' frame v))
    (moves : List (Presenter.Move F)) (x : Presenter T K V × W) :
    Presenter.run b' convert' moves (onWorld f x) = onWorld f (Presenter.run b convert moves x) := by
  rw [← onPresenter_ofWorld]
  exact h.translates.run (fun frame v => Attempt.follows_iff.1 (hconvert frame v)) moves x

end Backend.Follows

/-! ### Recording -/

namespace Recorded
variable {E : Type}

theorem call_follows (act : Attempt W α) (entry : Except Fault α → E) :
    Attempt.Follows world (call act entry) act := by
  intro r
  simp only [call]
  cases act r.world <;> rfl

theorem recording_follows (act : Attempt (K × W) Unit) :
    Attempt.Follows (Prod.map id world) (recording (F := F) (T := T) (V := V) act) act := by
  intro x
  simp only [recording, Prod.map, id]
  rcases act (x.1, x.2.world) with _ | _ <;> rfl

theorem domain_follows (d : Domain W T) (entry : ImageCall T → E) :
    (domain d entry).Follows world d where
  newStaging _ := call_follows _ _
  stage _ _ _ := call_follows _ _
  blockOn _ := call_follows _ _
  freeTexture _ := call_follows _ _
  freeStaging _ := call_follows _ _

end Recorded

/-- A recorded backend does what the backend does. -/
theorem Backend.recorded_follows (b : Backend W T K V) :
    (b.recorded (F := F)).Follows Recorded.world b where
  producer := Recorded.domain_follows _ _
  consumer := Recorded.domain_follows _ _
  newTexture _ := Recorded.call_follows _ _
  share _ := Recorded.call_follows _ _
  newMarker := Recorded.call_follows _ _
  record := Recorded.recording_follows _
  poll _ := Recorded.call_follows _ _
  freeMarker _ := Recorded.call_follows _ _
  openShare _ _ := Recorded.call_follows _ _
  note _ _ := rfl

end SurfaceRelay
