import SurfaceRelay.Proofs.Following
import SurfaceRelay.Proofs.Pool.Invariant
import SurfaceRelay.Proofs.Presenter
import SurfaceRelay.Proofs.Resources.Surface

/-! The life of every resource of a pool.

What is outstanding in the world of a pool is what its surfaces have, whatever its domains
answer: a release or an acquire moves surfaces about without touching their resources, a surface
that is built brings its own, and a failed call leaves the list as it was (`Accounted`). Tearing
the pool down empties the ring, and with it the list. What was made was then destroyed once, and
a pool that was torn down makes no further call (`resources_destroyed_once`). Numbering and
recording change nothing of what a pool and its presenter do (`run_audited`). -/
namespace SurfaceRelay
variable {W F T K V : Type}

open Numbered Recorded

namespace Pool

/-- What the surfaces of a pool have. -/
def resources (p : Pool (Tagged T) (Tagged K) (Tagged V)) : List Resource :=
  p.ring.slots.flatMap Surface.resources

variable {p : Pool (Tagged T) (Tagged K) (Tagged V)} {s : Surface (Tagged T) (Tagged K) (Tagged V)}

theorem mem_resources (hs : s ∈ p.ring.slots) {r : Resource} (hr : r ∈ s.resources) :
    r ∈ p.resources := List.mem_flatMap.2 ⟨s, hs, hr⟩

/-- A surface is replaced by itself in another phase. -/
theorem resources_setCurrent {s' : Surface (Tagged T) (Tagged K) (Tagged V)}
    (hc : p.ring.current? = some s) (h : s'.resources = s.resources) :
    (p.ring.setCurrent s').slots.flatMap Surface.resources = p.resources := by
  rw [resources, List.flatMap_def, List.flatMap_def, Ring.map_setCurrent _ hc h]

theorem resources_handOut {s' : Surface (Tagged T) (Tagged K) (Tagged V)}
    (hc : p.ring.current? = some s) (h : s'.resources = s.resources) :
    (p.handOut s').resources = p.resources := resources_setCurrent hc h

theorem resources_reclaim (hc : p.ring.current? = some s) :
    (p.reclaim s).resources = p.resources := resources_setCurrent hc rfl

theorem resources_passOn {s' : Surface (Tagged T) (Tagged K) (Tagged V)} {stats : Stats}
    (hc : p.ring.current? = some s) (h : s'.resources = s.resources) :
    (p.passOn s' stats).resources = p.resources := resources_setCurrent hc h

theorem resources_insert {ring : Ring (Surface (Tagged T) (Tagged K) (Tagged V))}
    (h : ring.Sound) (s : Surface (Tagged T) (Tagged K) (Tagged V)) :
    (s.resources ++ ring.slots.flatMap Surface.resources).Perm
      ((ring.insert s).slots.flatMap Surface.resources) := by
  have hslots : (s :: ring.slots).Perm (ring.insert s).slots :=
    (ring.toQueue_perm.symm.cons s).trans
      (Ring.toQueue_insert h s ▸ (ring.insert s).toQueue_perm)
  exact hslots.flatMap_right _

/-- Three resources of every surface are the producer's, and two are the consumer's. -/
theorem count_resources (surfaces : List (Surface (Tagged T) (Tagged K) (Tagged V))) :
    ((surfaces.flatMap Surface.resources).countP (·.part.side = .producer)) =
        3 * surfaces.length ∧
      ((surfaces.flatMap Surface.resources).countP (·.part.side = .consumer)) =
        2 * surfaces.length := by
  induction surfaces with
  | nil => exact ⟨rfl, rfl⟩
  | cons s rest ih =>
    have hproducer : s.resources.countP (·.part.side = .producer) = 3 := rfl
    have hconsumer : s.resources.countP (·.part.side = .consumer) = 2 := rfl
    simp only [List.flatMap_cons, List.countP_append, List.length_cons, hproducer, hconsumer, ih]
    omega

/-! ### Every operation of a pool -/

/-- What is outstanding in the world is what the surfaces of the pool have. -/
def Accounted (x : Pool (Tagged T) (Tagged K) (Tagged V) ×
    Recorded (Numbered W) (Line F T K V)) : Prop :=
  x.1.Inv ∧ Owes x.1.resources x.2

/-- A new pool has nothing, and nothing is outstanding. -/
theorem accounted_make {c : Config} {p : Pool (Tagged T) (Tagged K) (Tagged V)}
    (hp : make c = .ok p) (w : W) : Accounted (F := F) (p, .ofWorld ⟨w, 0⟩) := by
  have hnone : p.resources = [] := by
    rw [resources, make_ring hp]
    rfl
  exact ⟨inv_make hp, hnone ▸ Books.nil⟩

variable {b : Backend W T K V} {x x₁ : Recorded (Numbered W) (Line F T K V)}

theorem mem_marker (hs : s ∈ p.ring.slots) : ⟨.marker, s.marker.number⟩ ∈ p.resources :=
  mem_resources hs (by simp [Surface.resources])

theorem poll_owes (hs : s ∈ p.ring.slots) :
    (b.audited.producer.poll s.marker).Meets (Owes (F := F) p.resources)
      (fun _ => Owes p.resources) (Owes p.resources) :=
  call_use_one (makesNothing_map _ (makesNothing_lift _)) (fun _ => rfl) (fun _ => rfl)
    (fun _ => rfl) (mem_marker hs)

theorem drainTexture_owes (hs : s ∈ p.ring.slots) (region : Extent) :
    (b.audited.producer.drain s.texture s.staging region).Meets (Owes (F := F) p.resources)
      (fun _ => Owes p.resources) (Owes p.resources) :=
  drain_owes (fun _ => rfl) (fun _ => rfl) (fun _ => rfl)
    (mem_resources hs (by simp [Surface.resources]))
    (mem_resources hs (by simp [Surface.resources])) region

theorem drainView_owes (hs : s ∈ p.ring.slots) (region : Extent) :
    (b.audited.consumer.drain s.view s.viewStaging region).Meets (Owes (F := F) p.resources)
      (fun _ => Owes p.resources) (Owes p.resources) :=
  drain_owes (fun _ => rfl) (fun _ => rfl) (fun _ => rfl)
    (mem_resources hs (by simp [Surface.resources]))
    (mem_resources hs (by simp [Surface.resources])) region

/-- A frame is converted into the view of a surface. -/
theorem convert_owes (convert : Converter W F V) (frame : F) (hs : s ∈ p.ring.slots) :
    (convert.audited frame s.view).Meets (Owes (T := T) (K := K) p.resources)
      (fun _ => Owes p.resources) (Owes p.resources) :=
  call_use_one (makesNothing_lift _) (fun _ => rfl) (fun _ => rfl) (fun _ => rfl)
    (mem_resources hs (by simp [Surface.resources]))

theorem Declined.owes {o : Option (Surface (Tagged T) (Tagged K) (Tagged V))}
    {p₁ : Pool (Tagged T) (Tagged K) (Tagged V)} (h : Owes p.resources x)
    (hd : Declined b.audited p x o p₁ x₁) : Owes p.resources x₁ := by
  cases hd with
  | vacant => exact h
  | unarmed => exact h
  | pending hc hr ha hpoll => exact (poll_owes (Ring.current?_mem hc)).ok hpoll h
  | unknown hc hr ha hpoll =>
    exact note_owes ((poll_owes (Ring.current?_mem hc)).error hpoll h) _

theorem Declined.resources {o : Option (Surface (Tagged T) (Tagged K) (Tagged V))}
    {p₁ : Pool (Tagged T) (Tagged K) (Tagged V)} (hd : Declined b.audited p x o p₁ x₁) :
    p₁.resources = p.resources := by
  rw [Pool.resources, Pool.resources, hd.ring.1]

/-- A surface whose marker was polled or recorded has the same resources. -/
theorem resources_marker {k : Tagged K} (hk : k.number = s.marker.number) (armed : Bool) :
    { s with marker := k, armed }.resources = s.resources := by
  simp only [Surface.resources, hk]

theorem Acquiring.owes (hinv : p.Inv) (h : Owes p.resources x)
    {r : EStateM.Result Fault (Pool (Tagged T) (Tagged K) (Tagged V) × _) Handle}
    (ha : Acquiring b.audited p x r) :
    Owes (Attempt.leaves r).1.resources (Attempt.leaves r).2 := by
  cases ha with
  | closed => exact h
  | again hp hc =>
    rw [Attempt.leaves, resources_handOut hc rfl]
    exact h
  | @ready s k x' hp hc hr ha hpoll =>
    rw [Attempt.leaves, resources_handOut hc (resources_marker (poll_number hpoll) s.armed)]
    exact (poll_owes (Ring.current?_mem hc)).ok hpoll h
  | @grew o s p₁ x₁ x₂ hp hd hroom hb =>
    have hbuilt := (Surface.build_owes _ _ _).ok hb (hd.owes h)
    refine note_owes (hbuilt.perm ?_) _
    rw [← hd.resources]
    exact resources_insert (hinv.declined hd).sound { s with phase := .writing }
  | growthFailed hp hd hroom hb =>
    rw [Attempt.leaves, hd.resources]
    exact note_owes ((Surface.build_owes _ _ _).error hb (hd.owes h)) _
  | @stalled s p₁ x₁ x₂ hp hd hfull hw =>
    have hc : p₁.ring.current? = some s := by rw [hd.ring.1, hd.current]
    rw [Attempt.leaves, resources_reclaim hc, hd.resources]
    exact note_owes ((drainTexture_owes (Ring.current?_mem hd.current) _).ok hw (hd.owes h)) _
  | @stallFailed s e p₁ x₁ x₂ hp hd hfull hw =>
    rw [Attempt.leaves, hd.resources]
    exact note_owes
      ((drainTexture_owes (Ring.current?_mem hd.current) _).error hw (hd.owes h)) _

theorem Releasing.owes (h : Owes p.resources x) {k : Handle}
    {r : EStateM.Result Fault (Pool (Tagged T) (Tagged K) (Tagged V) × _) Unit}
    (hr : Releasing b.audited k p x r) :
    Owes (Attempt.leaves r).1.resources (Attempt.leaves r).2 := by
  cases hr with
  | closed => exact h
  | stale => exact h
  | recorded hp hc hh hs hrec =>
    obtain ⟨hnumber, howes⟩ :=
      (record_owes (mem_marker (Ring.current?_mem hc))).ok hrec ⟨rfl, h⟩
    rw [Attempt.leaves, resources_passOn hc (resources_marker hnumber true)]
    exact howes
  | unrecorded hp hc hh hs hrec =>
    obtain ⟨hnumber, howes⟩ :=
      (record_owes (mem_marker (Ring.current?_mem hc))).error hrec ⟨rfl, h⟩
    rw [Attempt.leaves, resources_passOn hc (resources_marker hnumber false)]
    exact note_owes howes _

theorem Awaiting.owes (hinv : p.Inv) (h : Owes p.resources x) {k : Handle}
    {r : EStateM.Result Fault (Pool (Tagged T) (Tagged K) (Tagged V) × _) Unit}
    (hr : Awaiting b.audited k p x r) :
    Owes (Attempt.leaves r).1.resources (Attempt.leaves r).2 := by
  cases hr with
  | closed => exact h
  | stale => exact h
  | landed hp hf hw => exact (drainView_owes (hinv.find?_eq_some.1 hf).1 _).ok hw h
  | failed hp hf hw =>
    exact note_owes ((drainView_owes (hinv.find?_eq_some.1 hf).1 _).error hw h) _

theorem close_owes (h : Owes p.resources x) :
    Owes (Pool.close b.audited (p, x)).1.resources (Pool.close b.audited (p, x)).2 := by
  simp only [Pool.close]
  split
  · exact h
  · refine note_owes (Surface.dismantleAll_owes ?_) _
    show Owes (p.resources ++ []) x
    rw [List.append_nil]
    exact h

/-! ### Every move of a presenter -/

/-- A pool and its world stay accounted for. -/
theorem accounted_kept (b : Backend W T K V) (convert : Converter W F V) :
    Presenter.Kept b.audited convert.audited Accounted where
  acquire := Attempt.keeps_of_leaves fun x hx =>
    ⟨(acquiring b.audited x.1 x.2).inv hx.1, (acquiring b.audited x.1 x.2).owes hx.1 hx.2⟩
  release k := Attempt.keeps_of_leaves fun x hx =>
    ⟨(releasing b.audited k x.1 x.2).inv hx.1, (releasing b.audited k x.1 x.2).owes hx.2⟩
  awaitConsumer k := Attempt.keeps_of_leaves fun x hx =>
    ⟨(awaiting b.audited k x.1 x.2).pool.symm ▸ hx.1,
      (awaiting b.audited k x.1 x.2).owes hx.1 hx.2⟩
  close x hx := ⟨hx.1.close b.audited x.2, close_owes hx.2⟩
  convert frame p k view hview x hx := by
    obtain ⟨s, hs, rfl⟩ := Option.map_eq_some_iff.1 hview
    have hmem := (hx.1.find?_eq_some.1 hs).1
    exact ⟨hx.1, (convert_owes convert frame hmem).outcome hx.2⟩
  note n _ _ hx := ⟨hx.1, note_owes hx.2 n⟩

/-- The pool was torn down, and since then only notices came to the trace. -/
def Silent (lines : List (Entry F T K V)) (x : Pool T K V × Recorded W (Entry F T K V)) : Prop :=
  x.1.closed = true ∧ x.1.ring = .empty ∧
    ∃ notices : List Notice, x.2.trace = lines ++ notices.map .notice

/-- A pool that was torn down makes no call, whatever is asked of it. -/
theorem silent_kept (b : Backend W T K V) (convert : Converter W F V)
    (lines : List (Entry F T K V)) :
    Presenter.Kept b.recorded (Converter.recorded convert) (Silent lines) where
  acquire := Attempt.keeps_of_leaves fun x hx => by
    have hclosed : acquire b.recorded x = .error .closed x := if_pos hx.1
    exact hclosed ▸ hx
  release k := Attempt.keeps_of_leaves fun x hx => by
    have hclosed : release b.recorded k x = .error .closed x := if_pos hx.1
    exact hclosed ▸ hx
  awaitConsumer k := Attempt.keeps_of_leaves fun x hx => by
    have hclosed : awaitConsumer b.recorded k x = .error .closed x := if_pos hx.1
    exact hclosed ▸ hx
  close x hx := by
    have hclosed : close b.recorded x = x := if_pos hx.1
    rw [hclosed]
    exact hx
  convert frame p k view hview x hx := by
    -- an empty ring has no view
    have hring : p.ring = .empty := hx.2.1
    simp only [view?, find?, hring] at hview
    cases hview
  note n p x hx := by
    obtain ⟨hp, hring, notices, hlines⟩ := hx
    refine ⟨hp, hring, notices ++ [n], ?_⟩
    show x.trace ++ [.notice n] = _
    rw [hlines, List.map_append, List.append_assoc]
    rfl

end Pool

namespace Presenter

/-- Without numbers and trace, a run over an audited backend is the run over the backend. -/
theorem run_audited (b : Backend W T K V) (convert : Converter W F V) (moves : List (Move F))
    (s : Presenter (Tagged T) (Tagged K) (Tagged V))
    (x : Recorded (Numbered W) (Line F T K V)) :
    run b convert moves (plain.onPresenter (s, x.world)) =
      plain.onPresenter (Backend.Follows.onWorld Recorded.world
        (run b.audited convert.audited moves (s, x))) := by
  have hnumbered : run b convert moves (plain.onPresenter (s, x.world)) =
      plain.onPresenter (run b.numbered convert.numbered moves (s, x.world)) :=
    b.numbered_translates.run (fun _ _ => lift_translates _) moves (s, x.world)
  have hrecorded : run b.numbered convert.numbered moves (s, x.world) =
      Backend.Follows.onWorld Recorded.world
        (run b.audited convert.audited moves (s, x)) :=
    b.numbered.recorded_follows.run (fun _ _ => call_follows _ _) moves (s, x)
  rw [hnumbered, hrecorded]

/-- **Every resource is destroyed once, by its own domain, and never used after that.** Whatever
the domains answer and whatever is done with a pool and its presenter, while the pool stands
three resources for each of its surfaces are outstanding in the producer and two in the
consumer. Once the pool is torn down, in whatever state it is, nothing is outstanding: each
texture, staging resource, marker and view that was ever made was passed to one call that
destroys it, and no call named it later. From then on nothing but notices comes of anything that
is asked. -/
theorem resources_destroyed_once {c : Pool.Config}
    {p : Pool (Tagged T) (Tagged K) (Tagged V)} (hp : Pool.make c = .ok p) (b : Backend W T K V)
    (convert : Converter W F V) (w : W) (moves : List (Move F)) {ending : Move F}
    (hending : ending = .closePool ∨ ending = .close) (further : List (Move F)) :
    let x := run b.audited convert.audited moves (ofPool p, .ofWorld ⟨w, 0⟩)
    let y := after b.audited convert.audited ending x
    ((outstanding x.2.trace).countP (·.part.side = .producer) = 3 * x.1.pool.ring.size ∧
      (outstanding x.2.trace).countP (·.part.side = .consumer) = 2 * x.1.pool.ring.size) ∧
    outstanding y.2.trace = [] ∧ DestroyedOnce y.2.trace ∧
    ∃ notices : List Notice,
      (run b.audited convert.audited further y).2.trace = y.2.trace ++ notices.map .notice := by
  intro x y
  have hstart : Pool.Accounted (p, Recorded.ofWorld (E := Line F T K V) (Numbered.mk w 0)) := by
    have hnone : p.resources = [] := by
      rw [Pool.resources, Pool.make_ring hp]
      rfl
    exact ⟨Pool.inv_make hp, hnone ▸ Books.nil⟩
  have hx : Pool.Accounted (x.1.pool, x.2) := (Pool.accounted_kept b convert).run moves hstart
  -- the end
  have hend : (y.1.pool, y.2) = Pool.close b.audited (x.1.pool, x.2) := after_ending hending x
  have hy : Pool.Accounted (y.1.pool, y.2) :=
    hend ▸ (Pool.accounted_kept b convert).close (x.1.pool, x.2) hx
  have hclosed : y.1.pool.closed = true := closed_after_ending hending x
  have hring : y.1.pool.ring = .empty := hy.1.emptied hclosed
  have hdone : outstanding y.2.trace = [] := by
    have hbalance := hy.2.balance
    rw [Pool.resources, hring] at hbalance
    exact hbalance.eq_nil
  refine ⟨?_, hdone, hy.2.proper.destroyedOnce hdone, ?_⟩
  · rw [hx.2.balance.countP_eq, hx.2.balance.countP_eq]
    exact Pool.count_resources _
  · have hsilent : Pool.Silent y.2.trace (y.1.pool, y.2) := ⟨hclosed, hring, [], by simp⟩
    exact ((Pool.silent_kept b.numbered convert.numbered y.2.trace).run further hsilent).2.2

/-- Two frames over markers that never retire build two surfaces, which have six resources in
the producer; letting go of the pool destroys them all. -/
theorem resources_destroyed_once_steady :
    ∃ p : Pool (Tagged Unit) (Tagged Unit) (Tagged Unit), Pool.make ⟨⟨4, 4⟩, 2⟩ = .ok p ∧
      let b : Backend Unit Unit Unit Unit := Pool.steady false
      let convert : Converter Unit Unit Unit := fun _ _ => pure ()
      let x := run b.audited convert.audited [.present (), .present ()] (ofPool p, .ofWorld ⟨(), 0⟩)
      x.1.pool.ring.size = 2 ∧ (outstanding x.2.trace).countP (·.part.side = .producer) = 6 ∧
      DestroyedOnce (after b.audited convert.audited .closePool x).2.trace := by
  obtain ⟨p, hp⟩ : ∃ p : Pool (Tagged Unit) (Tagged Unit) (Tagged Unit),
      Pool.make ⟨⟨4, 4⟩, 2⟩ = .ok p := ⟨_, rfl⟩
  have h := resources_destroyed_once hp (Pool.steady false)
    (fun (_ : Unit) _ => pure ()) () [.present (), .present ()] (.inl rfl) []
  refine ⟨p, hp, ?_, ?_, h.2.2.1⟩
  · cases hp
    rfl
  · cases hp
    exact h.1.1

end Presenter
end SurfaceRelay
