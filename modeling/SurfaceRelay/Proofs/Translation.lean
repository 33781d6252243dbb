import Mathlib.Data.List.InsertIdx
import SurfaceRelay.Presenter.Run
import SurfaceRelay.Proofs.Attempt
import SurfaceRelay.Proofs.Pool.Operations

/-! Backends that are the same under other names.

A translation reads the world, the images and the markers of one backend as those of another. A
backend translates to another one when every call with translated arguments gives the translated
answer and leaves the translated world. A pool looks at nothing but the answers that it gets, and
only passes images and markers on, so all its operations are translated too, and with them
whatever a presenter does (`Backend.Translates.run`): how images and markers are represented
makes no difference. -/
namespace SurfaceRelay

namespace Attempt
variable {S S' α α' β β' : Type}

/-- A result with its state and its answer mapped. -/
def mapResult (f : S → S') (g : α → α') :
    EStateM.Result Fault S α → EStateM.Result Fault S' α'
  | .ok a s => .ok (g a) (f s)
  | .error e s => .error e (f s)

/-- What `act` does, `act'` does in the mapped state, with the mapped answer. -/
def Translates (f : S → S') (g : α → α') (act : Attempt S α) (act' : Attempt S' α') : Prop :=
  ∀ s, act' (f s) = mapResult f g (act s)

variable {f : S → S'} {g : α → α'} {g' : β → β'}

theorem translates_pure (a : α) : Translates f g (pure a : Attempt S α) (pure (g a)) :=
  fun _ => rfl

theorem translates_bind {act : Attempt S α} {act' : Attempt S' α'} {next : α → Attempt S β}
    {next' : α' → Attempt S' β'} (hact : Translates f g act act')
    (hnext : ∀ a, Translates f g' (next a) (next' (g a))) :
    Translates f g' (act >>= next) (act' >>= next') := by
  intro s
  simp only [bind, EStateM.bind]
  rw [hact s]
  rcases act s with ⟨a, s₁⟩ | ⟨e, s₁⟩
  · exact hnext a s₁
  · rfl

/-- An answer is read off a translated answer. -/
theorem translates_map {act : Attempt S α} {act' : Attempt S' α'} (hact : Translates f g act act')
    {read : α → β} {read' : α' → β'} (hread : ∀ a, read' (g a) = g' (read a)) :
    Translates f g' (read <$> act) (read' <$> act') := by
  intro s
  simp only [Functor.map, EStateM.map]
  rw [hact s]
  rcases act s with ⟨a, s₁⟩ | ⟨e, s₁⟩
  · exact congrArg (EStateM.Result.ok · (f s₁)) (hread a)
  · rfl

/-- A call that cannot fail is translated by its answer and by what it leaves. -/
theorem translates_ok {a : S → α} {a' : S' → α'} {next : S → S} {next' : S' → S'}
    (ha : ∀ s, a' (f s) = g (a s)) (hnext : ∀ s, next' (f s) = f (next s)) :
    Translates f g (fun s => .ok (a s) (next s)) fun s => .ok (a' s) (next' s) := by
  intro s
  simp only [mapResult, ha, hnext]

theorem Translates.outcome {act : Attempt S α} {act' : Attempt S' α'}
    (h : Translates f g act act') (s : S) :
    Attempt.outcome act' (f s) =
      ((Attempt.outcome act s).1.map g, f (Attempt.outcome act s).2) := by
  simp only [Attempt.outcome]
  rw [h s]
  rcases act s with _ | _ <;> rfl

end Attempt

/-! ### Rings -/

namespace Ring
variable {α β : Type} (f : α → β)

def map (r : Ring α) : Ring β := ⟨r.slots.map f, r.cursor⟩

theorem map_id (r : Ring α) : r.map id = r := by
  rw [map, List.map_id]

theorem size_map (r : Ring α) : (r.map f).size = r.size := List.length_map ..

theorem current?_map (r : Ring α) : (r.map f).current? = r.current?.map f := List.getElem?_map ..

theorem insert_map (r : Ring α) (a : α) : (r.map f).insert (f a) = (r.insert a).map f := by
  simp only [insert, map, List.map_insertIdx]

theorem setCurrent_map (r : Ring α) (a : α) :
    (r.map f).setCurrent (f a) = (r.setCurrent a).map f := by
  simp only [setCurrent, map, List.map_set]

theorem advance_map (r : Ring α) : (r.map f).advance = r.advance.map f := by
  simp only [advance, map, List.length_map]

theorem find?_map (r : Ring α) (p : β → Bool) : (r.map f).find? p = (r.find? (p ∘ f)).map f := by
  have hlocate : (r.map f).locate? p = r.locate? (p ∘ f) := by
    simp only [locate?, current?_map, Option.any_map]
    rw [map, List.findIdx?_map]
    rfl
  simp only [find?, hlocate]
  cases r.locate? (p ∘ f) with
  | none => rfl
  | some i => exact List.getElem?_map ..

end Ring

/-! ### Translations -/

/-- How the world, the images and the markers of one backend are read as another's. -/
structure Translation (W T K V W' T' K' V' : Type) where
  world : W → W'
  texture : T → T'
  marker : K → K'
  view : V → V'

variable {W T K V W' T' K' V' F α β : Type}

namespace Translation

/-- Another world, with the same images and markers. -/
def ofWorld (f : W → W') : Translation W T K V W' T K V := ⟨f, id, id, id⟩

variable (τ : Translation W T K V W' T' K' V')

def surface (s : Surface T K V) : Surface T' K' V' where
  handle := s.handle
  texture := τ.texture s.texture
  staging := τ.texture s.staging
  marker := τ.marker s.marker
  armed := s.armed
  view := τ.view s.view
  viewStaging := τ.view s.viewStaging
  phase := s.phase

def pool (p : Pool T K V) : Pool T' K' V' where
  size := p.size
  capacity := p.capacity
  ring := p.ring.map τ.surface
  nextHandle := p.nextHandle
  stats := p.stats
  closed := p.closed

def presenter (s : Presenter T K V) : Presenter T' K' V' where
  pool := τ.pool s.pool
  shown := s.shown
  dropped := s.dropped

/-- A pool with its world. -/
def onPool (x : Pool T K V × W) : Pool T' K' V' × W' := (τ.pool x.1, τ.world x.2)

theorem onPool_mk (p : Pool T K V) (w : W) : τ.onPool (p, w) = (τ.pool p, τ.world w) := rfl

/-- A presenter with its world. -/
def onPresenter (x : Presenter T K V × W) : Presenter T' K' V' × W' :=
  (τ.presenter x.1, τ.world x.2)

def answer : Presenter.Answer T V → Presenter.Answer T' V'
  | .done => .done
  | .surface h => .surface h
  | .phase p => .phase p
  | .images texture view => .images (texture.map τ.texture) (view.map τ.view)
  | .shown texture => .shown (texture.map τ.texture)
  | .settings size capacity => .settings size capacity

theorem pool_ofWorld (f : W → W') (p : Pool T K V) : (ofWorld f).pool p = p :=
  congrArg (fun ring => { p with ring }) p.ring.map_id

theorem find?_pool (p : Pool T K V) (h : Handle) :
    (τ.pool p).find? h = (p.find? h).map τ.surface :=
  p.ring.find?_map τ.surface _

theorem texture?_pool (p : Pool T K V) (h : Handle) :
    (τ.pool p).texture? h = (p.texture? h).map τ.texture := by
  rw [Pool.texture?, Pool.texture?, find?_pool, Option.map_map, Option.map_map]
  rfl

theorem view?_pool (p : Pool T K V) (h : Handle) :
    (τ.pool p).view? h = (p.view? h).map τ.view := by
  rw [Pool.view?, Pool.view?, find?_pool, Option.map_map, Option.map_map]
  rfl

theorem phase?_pool (p : Pool T K V) (h : Handle) : (τ.pool p).phase? h = p.phase? h := by
  rw [Pool.phase?, Pool.phase?, find?_pool, Option.map_map]
  rfl

theorem shownTexture?_presenter (s : Presenter T K V) :
    (τ.presenter s).shownTexture? = s.shownTexture?.map τ.texture := by
  simp only [Presenter.shownTexture?, presenter]
  cases s.shown with
  | none => rfl
  | some k => exact τ.texture?_pool s.pool k

theorem handOut_pool (p : Pool T K V) (s : Surface T K V) :
    (τ.pool p).handOut (τ.surface s) = τ.pool (p.handOut s) :=
  congrArg (fun ring => { τ.pool p with ring })
    (p.ring.setCurrent_map τ.surface { s with phase := .writing })

theorem extend_pool (p : Pool T K V) (s : Surface T K V) :
    (τ.pool p).extend (τ.surface s) = τ.pool (p.extend s) :=
  congrArg (fun ring => { τ.pool (p.extend s) with ring })
    (p.ring.insert_map τ.surface { s with phase := .writing })

theorem reclaim_pool (p : Pool T K V) (s : Surface T K V) :
    (τ.pool p).reclaim (τ.surface s) = τ.pool (p.reclaim s) :=
  congrArg (fun ring => { τ.pool (p.reclaim s) with ring })
    (p.ring.setCurrent_map τ.surface { s with phase := .writing })

theorem passOn_pool (p : Pool T K V) (s : Surface T K V) (stats : Pool.Stats) :
    (τ.pool p).passOn (τ.surface s) stats = τ.pool (p.passOn s stats) := by
  have hring := p.ring.setCurrent_map τ.surface { s with phase := .released }
  exact congrArg (fun ring => { τ.pool (p.passOn s stats) with ring })
    ((congrArg Ring.advance hring).trans (Ring.advance_map ..))

end Translation

/-! ### Backends -/

structure Domain.Translates (f : W → W') (g : T → T') (d : Domain W T) (d' : Domain W' T') :
    Prop where
  newStaging : ∀ size, Attempt.Translates f g (d.newStaging size) (d'.newStaging size)
  stage : ∀ t s region, Attempt.Translates f id (d.stage t s region) (d'.stage (g t) (g s) region)
  blockOn : ∀ s, Attempt.Translates f id (d.blockOn s) (d'.blockOn (g s))
  freeTexture : ∀ t, Attempt.Translates f id (d.freeTexture t) (d'.freeTexture (g t))
  freeStaging : ∀ s, Attempt.Translates f id (d.freeStaging s) (d'.freeStaging (g s))

structure Backend.Translates (τ : Translation W T K V W' T' K' V') (b : Backend W T K V)
    (b' : Backend W' T' K' V') : Prop where
  producer : b.producer.toDomain.Translates τ.world τ.texture b'.producer.toDomain
  consumer : b.consumer.toDomain.Translates τ.world τ.view b'.consumer.toDomain
  newTexture : ∀ size, Attempt.Translates τ.world τ.texture (b.producer.newTexture size)
    (b'.producer.newTexture size)
  share : ∀ t, Attempt.Translates τ.world id (b.producer.share t) (b'.producer.share (τ.texture t))
  newMarker : Attempt.Translates τ.world τ.marker b.producer.newMarker b'.producer.newMarker
  record : Attempt.Translates (Prod.map τ.marker τ.world) id b.producer.record b'.producer.record
  poll : ∀ k, Attempt.Translates τ.world (Option.map τ.marker) (b.producer.poll k)
    (b'.producer.poll (τ.marker k))
  freeMarker : ∀ k, Attempt.Translates τ.world id (b.producer.freeMarker k)
    (b'.producer.freeMarker (τ.marker k))
  openShare : ∀ shared size, Attempt.Translates τ.world τ.view (b.consumer.openShare shared size)
    (b'.consumer.openShare shared size)
  note : ∀ n w, b'.note n (τ.world w) = τ.world (b.note n w)

theorem Domain.Translates.drain {f : W → W'} {g : T → T'} {d : Domain W T} {d' : Domain W' T'}
    (h : d.Translates f g d') (t s : T) (region : Extent) :
    Attempt.Translates f id (d.drain t s region) (d'.drain (g t) (g s) region) :=
  Attempt.translates_bind (h.stage t s region) fun _ => h.blockOn s

namespace Backend.Translates
open Attempt (mapResult)

variable {τ : Translation W T K V W' T' K' V'} {b : Backend W T K V} {b' : Backend W' T' K' V'}

/-! ### Surfaces -/

theorem holding {α' β' : Type} {f : W → W'} {g : α → α'} {g' : β → β'} {make : Attempt W α}
    {make' : Attempt W' α'} {undo : α → W → W} {undo' : α' → W' → W'} {rest : α → Attempt W β}
    {rest' : α' → Attempt W' β'} (hmake : Attempt.Translates f g make make')
    (hundo : ∀ a w, undo' (g a) (f w) = f (undo a w))
    (hrest : ∀ a, Attempt.Translates f g' (rest a) (rest' (g a))) :
    Attempt.Translates f g' (Surface.holding make undo rest) (Surface.holding make' undo' rest') := by
  intro w
  simp only [Surface.holding]
  rw [hmake w]
  rcases make w with ⟨a, w₁⟩ | ⟨e, w₁⟩
  · dsimp only [mapResult]
    rw [hrest a w₁]
    rcases rest a w₁ with ⟨r, w₂⟩ | ⟨e, w₂⟩
    · rfl
    · exact congrArg _ (hundo a w₂)
  · rfl

theorem dispose (h : b.Translates τ b') (k : Handle) (part : Part) {destroy : Attempt W Unit}
    {destroy' : Attempt W' Unit} (hd : Attempt.Translates τ.world id destroy destroy') (w : W) :
    Surface.dispose b' k part destroy' (τ.world w) =
      τ.world (Surface.dispose b k part destroy w) := by
  simp only [Surface.dispose]
  rw [hd w]
  rcases destroy w with ⟨_, w₁⟩ | ⟨e, w₁⟩
  · rfl
  · exact h.note _ w₁

theorem build (h : b.Translates τ b') (k : Handle) (size stagingSize : Extent) :
    Attempt.Translates τ.world τ.surface (Surface.build b k size stagingSize)
      (Surface.build b' k size stagingSize) := by
  refine holding (h.newTexture size) (fun t => h.dispose k _ (h.producer.freeTexture t))
    fun texture => ?_
  refine Attempt.translates_bind (h.share texture) fun shared => ?_
  refine holding (h.producer.newStaging stagingSize)
    (fun t => h.dispose k _ (h.producer.freeStaging t)) fun staging => ?_
  refine holding h.newMarker (fun m => h.dispose k _ (h.freeMarker m)) fun marker => ?_
  refine holding (h.openShare shared size) (fun v => h.dispose k _ (h.consumer.freeTexture v))
    fun view => ?_
  exact Attempt.translates_bind (h.consumer.newStaging stagingSize)
    fun _ => Attempt.translates_pure _

theorem dismantle (h : b.Translates τ b') (s : Surface T K V) (w : W) :
    (τ.surface s).dismantle b' (τ.world w) = τ.world (s.dismantle b w) := by
  simp only [Surface.dismantle, Surface.disposeViewStaging, Surface.disposeView,
    Surface.disposeMarker, Surface.disposeStaging, Surface.disposeTexture, Translation.surface]
  rw [h.dispose _ _ (h.consumer.freeStaging _), h.dispose _ _ (h.consumer.freeTexture _),
    h.dispose _ _ (h.freeMarker _), h.dispose _ _ (h.producer.freeStaging _),
    h.dispose _ _ (h.producer.freeTexture _)]

theorem dismantleAll (h : b.Translates τ b') (surfaces : List (Surface T K V)) (w : W) :
    (surfaces.map τ.surface).foldl (fun w s => s.dismantle b' w) (τ.world w) =
      τ.world (surfaces.foldl (fun w s => s.dismantle b w) w) := by
  induction surfaces generalizing w with
  | nil => rfl
  | cons s rest ih => rw [List.map_cons, List.foldl_cons, List.foldl_cons, h.dismantle s w, ih]

/-! ### Pools -/

theorem grow (h : b.Translates τ b') :
    Attempt.Translates τ.onPool id (Pool.grow b : Attempt (Pool T K V × W) Handle) (Pool.grow b') := by
  intro (p, w)
  simp only [Pool.grow, Translation.onPool]
  rw [show Surface.build b' ⟨(τ.pool p).nextHandle⟩ (τ.pool p).size (τ.pool p).stagingSize _ = _
    from h.build ⟨p.nextHandle⟩ p.size p.stagingSize w]
  rcases Surface.build b ⟨p.nextHandle⟩ p.size p.stagingSize w with ⟨s, w⟩ | ⟨e, w⟩
  · have hsize : (τ.pool (p.extend s)).ring.size = (p.extend s).ring.size := Ring.size_map ..
    simp only [mapResult, τ.extend_pool, hsize, h.note]
    rfl
  · simp only [mapResult, h.note]
    rfl

theorem stall (h : b.Translates τ b') (s : Surface T K V) :
    Attempt.Translates τ.onPool id (Pool.stall b s) (Pool.stall b' (τ.surface s)) := by
  intro (p, w)
  simp only [Pool.stall, Translation.onPool]
  rw [show b'.producer.drain (τ.surface s).texture (τ.surface s).staging (τ.pool p).stagingSize _ =
    _ from h.producer.drain s.texture s.staging p.stagingSize w]
  rcases b.producer.drain s.texture s.staging p.stagingSize w with ⟨_, w⟩ | ⟨e, w⟩ <;>
    simp only [mapResult, τ.reclaim_pool, h.note] <;> rfl

theorem growOrStall (h : b.Translates τ b') (s : Surface T K V) :
    Attempt.Translates τ.onPool id (Pool.growOrStall b s) (Pool.growOrStall b' (τ.surface s)) := by
  intro (p, w)
  rw [τ.onPool_mk]
  have hsize : (τ.pool p).ring.size = p.ring.size := Ring.size_map ..
  have hcapacity : (τ.pool p).capacity = p.capacity := rfl
  simp only [Pool.growOrStall, hsize, hcapacity]
  by_cases hroom : p.ring.size < p.capacity
  · rw [if_pos hroom, if_pos hroom]
    exact h.grow (p, w)
  · rw [if_neg hroom, if_neg hroom]
    exact h.stall s (p, w)

/-- A verdict, with the marker translated. -/
def verdict (τ : Translation W T K V W' T' K' V') : Pool.Verdict K → Pool.Verdict K'
  | .reusable marker => .reusable (τ.marker marker)
  | .busy => .busy
  | .unknown cause => .unknown cause

theorem probe (h : b.Translates τ b') (s : Surface T K V) (w : W) :
    Pool.probe b' (τ.surface s) (τ.world w) =
      (verdict τ (Pool.probe b s w).1, τ.world (Pool.probe b s w).2) := by
  by_cases hr : s.phase = .released
  · cases ha : s.armed with
    | false => rw [Pool.probe_unarmed b' hr ha, Pool.probe_unarmed b hr ha]; rfl
    | true =>
      rw [Pool.probe_armed b' hr ha, Pool.probe_armed b hr ha]
      rw [show b'.producer.poll (τ.surface s).marker _ = _ from h.poll s.marker w]
      rcases b.producer.poll s.marker w with ⟨_ | k, w'⟩ | ⟨e, w'⟩
      · rfl
      · rfl
      · exact congrArg _ (h.note _ w')
  · rw [Pool.probe_free b' hr, Pool.probe_free b hr]
    rfl

theorem acquire (h : b.Translates τ b') :
    Attempt.Translates τ.onPool id (Pool.acquire b : Attempt (Pool T K V × W) Handle)
      (Pool.acquire b') := by
  intro (p, w)
  rw [τ.onPool_mk]
  simp only [Pool.acquire]
  by_cases hp : p.closed = true
  · rw [if_pos hp, if_pos (show (τ.pool p).closed = true from hp)]
    rfl
  · rw [if_neg hp, if_neg (show ¬(τ.pool p).closed = true from hp)]
    rw [show (τ.pool p).ring.current? = _ from p.ring.current?_map τ.surface]
    cases p.ring.current? with
    | none => exact h.grow (p, w)
    | some s =>
      simp only [Option.map_some]
      rw [h.probe s w]
      rcases Pool.probe b s w with ⟨verdict, w₁⟩
      cases verdict with
      | reusable marker =>
        exact congrArg (fun p => EStateM.Result.ok s.handle (p, τ.world w₁))
          (τ.handOut_pool p { s with marker })
      | busy => exact h.growOrStall s (p, w₁)
      | unknown cause => exact h.growOrStall s (p.countMarkerFault, w₁)

theorem release (h : b.Translates τ b') (k : Handle) :
    Attempt.Translates τ.onPool id (Pool.release b k : Attempt (Pool T K V × W) Unit)
      (Pool.release b' k) := by
  intro (p, w)
  rw [τ.onPool_mk]
  simp only [Pool.release]
  by_cases hp : p.closed = true
  · rw [if_pos hp, if_pos (show (τ.pool p).closed = true from hp)]
    rfl
  · rw [if_neg hp, if_neg (show ¬(τ.pool p).closed = true from hp)]
    rw [show (τ.pool p).ring.current? = _ from p.ring.current?_map τ.surface]
    cases p.ring.current? with
    | none => rfl
    | some s =>
      simp only [Option.map_some]
      by_cases hs : s.handle ≠ k ∨ s.phase ≠ .writing
      · rw [if_pos hs, if_pos (show (τ.surface s).handle ≠ k ∨ (τ.surface s).phase ≠ _ from hs)]
        rfl
      · rw [if_neg hs,
          if_neg (show ¬((τ.surface s).handle ≠ k ∨ (τ.surface s).phase ≠ _) from hs)]
        rw [show b'.producer.record ((τ.surface s).marker, _) = _ from h.record (s.marker, w)]
        rcases b.producer.record (s.marker, w) with ⟨_, m, w⟩ | ⟨e, m, w⟩
        · exact congrArg (fun p => EStateM.Result.ok () (p, τ.world w))
            (τ.passOn_pool p { s with marker := m, armed := true } _)
        · simp only [mapResult, Prod.map, h.note]
          exact congrArg (fun p => EStateM.Result.ok () (p, τ.world _))
            (τ.passOn_pool p { s with marker := m, armed := false } _)

theorem awaitConsumer (h : b.Translates τ b') (k : Handle) :
    Attempt.Translates τ.onPool id (Pool.awaitConsumer b k : Attempt (Pool T K V × W) Unit)
      (Pool.awaitConsumer b' k) := by
  intro (p, w)
  rw [τ.onPool_mk]
  simp only [Pool.awaitConsumer]
  by_cases hp : p.closed = true
  · rw [if_pos hp, if_pos (show (τ.pool p).closed = true from hp)]
    rfl
  · rw [if_neg hp, if_neg (show ¬(τ.pool p).closed = true from hp), τ.find?_pool]
    cases p.find? k with
    | none => rfl
    | some s =>
      simp only [Option.map_some]
      rw [show b'.consumer.drain (τ.surface s).view (τ.surface s).viewStaging
        (τ.pool p).stagingSize _ = _ from h.consumer.drain s.view s.viewStaging p.stagingSize w]
      rcases b.consumer.drain s.view s.viewStaging p.stagingSize w with ⟨_, w⟩ | ⟨e, w⟩ <;>
        simp only [mapResult, h.note] <;> rfl

theorem closePool (h : b.Translates τ b') (x : Pool T K V × W) :
    Pool.close b' (τ.onPool x) = τ.onPool (Pool.close b x) := by
  obtain ⟨p, w⟩ := x
  rw [τ.onPool_mk]
  simp only [Pool.close]
  by_cases hp : p.closed = true
  · rw [if_pos hp, if_pos (show (τ.pool p).closed = true from hp), τ.onPool_mk]
  · rw [if_neg hp, if_neg (show ¬(τ.pool p).closed = true from hp)]
    have hbusy : (τ.pool p).ring.slots.countP (·.isBusy) = p.ring.slots.countP (·.isBusy) :=
      List.countP_map ..
    have hlength : (τ.pool p).ring.slots.length = p.ring.slots.length := List.length_map ..
    rw [show (τ.pool p).ring.slots.foldl _ _ = _ from h.dismantleAll p.ring.slots w, hbusy, hlength,
      h.note]
    rfl

/-! ### Presenters -/

variable {convert : Converter W F V} {convert' : Converter W' F V'}

theorem fill (h : b.Translates τ b')
    (hconvert : ∀ frame v, Attempt.Translates τ.world id (convert frame v) (convert' frame (τ.view v)))
    (frame : F) :
    Attempt.Translates τ.onPool id (Presenter.fill b convert frame : Attempt (Pool T K V × W) Handle)
      (Presenter.fill b' convert' frame) := by
  intro x
  simp only [Presenter.fill]
  rw [h.acquire x]
  rcases Pool.acquire b x with ⟨k, p, w⟩ | ⟨e, p, w⟩
  · simp only [mapResult, Translation.onPool, id, τ.view?_pool]
    cases p.view? k with
    | none => rfl
    | some view =>
      simp only [Option.map_some]
      rw [hconvert frame view w]
      rcases convert frame view w with ⟨_, w₁⟩ | ⟨e, w₁⟩
      · simp only [mapResult]
        rw [show Pool.awaitConsumer b' k (τ.pool p, τ.world w₁) = _ from
          h.awaitConsumer k (p, w₁)]
        rcases Pool.awaitConsumer b k (p, w₁) with ⟨_, y⟩ | ⟨e, y⟩ <;> rfl
      · rfl
  · rfl

theorem retract (h : b.Translates τ b') (x : Presenter T K V × W) :
    Presenter.retract b' (τ.onPresenter x) = τ.onPresenter (Presenter.retract b x) := by
  obtain ⟨s, w⟩ := x
  simp only [Presenter.retract, Translation.onPresenter]
  rw [show (τ.presenter s).shown = s.shown from rfl]
  cases s.shown with
  | none => rfl
  | some k =>
    dsimp only
    rw [show Pool.release b' k ((τ.presenter s).pool, τ.world w) = _ from
      h.release k (s.pool, w)]
    rcases Pool.release b k (s.pool, w) with ⟨_, p, w₁⟩ | ⟨e, p, w₁⟩
    · rfl
    · simp only [mapResult, Translation.onPool, h.note]
      rfl

theorem present (h : b.Translates τ b')
    (hconvert : ∀ frame v, Attempt.Translates τ.world id (convert frame v) (convert' frame (τ.view v)))
    (frame : F) :
    Attempt.Translates τ.onPresenter id
      (Presenter.present b convert frame : Attempt (Presenter T K V × W) Handle)
      (Presenter.present b' convert' frame) := by
  intro x
  simp only [Presenter.present]
  rw [h.retract x]
  rcases Presenter.retract b x with ⟨s₁, w₁⟩
  simp only [Translation.onPresenter]
  rw [show Presenter.fill b' convert' frame ((τ.presenter s₁).pool, τ.world w₁) = _ from
    h.fill hconvert frame (s₁.pool, w₁)]
  rcases Presenter.fill b convert frame (s₁.pool, w₁) with ⟨k, p, w₂⟩ | ⟨e, p, w₂⟩
  · rfl
  · simp only [mapResult, Translation.onPool, Translation.onPresenter]
    rw [← h.note]
    rfl

theorem close (h : b.Translates τ b') (x : Presenter T K V × W) :
    Presenter.close b' (τ.onPresenter x) = τ.onPresenter (Presenter.close b x) := by
  simp only [Presenter.close]
  rw [show Pool.close b' ((τ.onPresenter x).1.pool, (τ.onPresenter x).2) = _ from
    h.closePool (x.1.pool, x.2)]
  rfl

/-- An operation of the pool, by a presenter. -/
theorem onPool {α' : Type} {g : α → α'} {act : Attempt (Pool T K V × W) α}
    {act' : Attempt (Pool T' K' V' × W') α'} (hact : Attempt.Translates τ.onPool g act act') :
    Attempt.Translates τ.onPresenter g (Presenter.onPool act) (Presenter.onPool act') := by
  intro (s, w)
  simp only [Presenter.onPool, Translation.onPresenter]
  rw [show act' ((τ.presenter s).pool, τ.world w) = _ from hact (s.pool, w)]
  rcases act (s.pool, w) with ⟨a, p, w₁⟩ | ⟨e, p, w₁⟩ <;> rfl

theorem make (h : b.Translates τ b')
    (hconvert : ∀ frame v, Attempt.Translates τ.world id (convert frame v) (convert' frame (τ.view v)))
    (m : Presenter.Move F) :
    Attempt.Translates τ.onPresenter τ.answer (Presenter.make b convert m)
      (Presenter.make b' convert' m) := by
  cases m with
  | acquire => exact Attempt.translates_map (onPool h.acquire) fun _ => rfl
  | release k => exact Attempt.translates_map (onPool (h.release k)) fun _ => rfl
  | cycle =>
    refine Attempt.translates_map (onPool (g := id) ?_) fun _ => rfl
    refine Attempt.translates_bind h.acquire fun k => ?_
    exact Attempt.translates_bind (h.release k) fun _ => Attempt.translates_pure k
  | awaitConsumer k => exact Attempt.translates_map (onPool (h.awaitConsumer k)) fun _ => rfl
  | present frame => exact Attempt.translates_map (h.present hconvert frame) fun _ => rfl
  | retract => exact Attempt.translates_ok (fun _ => rfl) h.retract
  | closePool =>
    have hclose : Attempt.Translates τ.onPool τ.answer
        (fun x => .ok .done (Pool.close b x)) fun x => .ok .done (Pool.close b' x) :=
      Attempt.translates_ok (fun _ => rfl) h.closePool
    exact onPool hclose
  | close => exact Attempt.translates_ok (fun _ => rfl) h.close
  | phase k =>
    refine Attempt.translates_ok (fun x => ?_) fun _ => rfl
    exact congrArg Presenter.Answer.phase (τ.phase?_pool x.1.pool k)
  | images k =>
    refine Attempt.translates_ok (fun x => ?_) fun _ => rfl
    have htexture := τ.texture?_pool x.1.pool k
    have hview := τ.view?_pool x.1.pool k
    simp only [Translation.onPresenter, Translation.presenter, Translation.answer, htexture, hview]
  | shown =>
    refine Attempt.translates_ok (fun x => ?_) fun _ => rfl
    exact congrArg Presenter.Answer.shown (τ.shownTexture?_presenter x.1)
  | settings => exact Attempt.translates_ok (fun _ => rfl) fun _ => rfl

/-- **Every run is translated.** -/
theorem run (h : b.Translates τ b')
    (hconvert : ∀ frame v, Attempt.Translates τ.world id (convert frame v) (convert' frame (τ.view v)))
    (moves : List (Presenter.Move F)) (x : Presenter T K V × W) :
    Presenter.run b' convert' moves (τ.onPresenter x) =
      τ.onPresenter (Presenter.run b convert moves x) := by
  induction moves generalizing x with
  | nil => rfl
  | cons m moves ih =>
    have hafter : Presenter.after b' convert' m (τ.onPresenter x) =
        τ.onPresenter (Presenter.after b convert m x) :=
      congrArg Prod.snd ((h.make hconvert m).outcome x)
    rw [Presenter.run, List.foldl_cons, hafter]
    exact ih _

end Backend.Translates
end SurfaceRelay
