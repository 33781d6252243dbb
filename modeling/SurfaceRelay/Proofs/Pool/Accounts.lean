import Mathlib.Algebra.BigOperators.Group.List.Basic
import Mathlib.Tactic.Abel
import SurfaceRelay.Proofs.Pool.Invariant
import SurfaceRelay.Proofs.Presenter

/-! What the world of a pool holds for its surfaces.

Domains hold something for every texture, staging resource, marker and view that they made: names,
sync objects, memory. `Accounts` says what that is for each of them, as an amount that can be
added up, and `Accounts.Kept` how each call of the domains moves it. A texture and its open view
are one amount (`viewed`), because the view is of that texture: it is closed before the texture
is destroyed.

Whatever the amounts are, a pool that starts with none holds what its surfaces amount to after
every operation (`Accounts.kept`): a build that fails has given back what it made, and taking a
surface apart gives back all of it. So a pool that was torn down holds nothing. -/
namespace SurfaceRelay
variable {W F T K V R : Type} [AddCommMonoid R]

/-- What is held in a world `W` for the parts of surfaces, in amounts `R`. -/
structure Accounts (W T K V R : Type) where
  /-- The world holds this amount, neither more nor less. -/
  owes : R → W → Prop
  texture : T → R
  /-- A texture together with the open view of it. -/
  viewed : T → V → R
  staging : T → R
  marker : K → R
  viewStaging : V → R
  /-- The number under which a texture can be opened. -/
  exported : T → Nat → Prop

namespace Accounts

/-- How calls move what is held. A call that fails has made nothing; a call that destroys has done
so even if it fails. -/
structure Kept (A : Accounts W T K V R) (b : Backend W T K V) (convert : Converter W F V) :
    Prop where
  note : ∀ n {L w}, A.owes L w → A.owes L (b.note n w)
  newTexture : ∀ size L, (b.producer.newTexture size).Meets (A.owes L)
    (fun t => A.owes (A.texture t + L)) (A.owes L)
  share : ∀ t L, (b.producer.share t).Meets (A.owes L)
    (fun shared w => A.exported t shared ∧ A.owes L w) (A.owes L)
  newStaging : ∀ size L, (b.producer.newStaging size).Meets (A.owes L)
    (fun s => A.owes (A.staging s + L)) (A.owes L)
  newMarker : ∀ L, b.producer.newMarker.Meets (A.owes L)
    (fun k => A.owes (A.marker k + L)) (A.owes L)
  openShare : ∀ {t shared}, A.exported t shared → ∀ size L,
    (b.consumer.openShare shared size).Meets (A.owes (A.texture t + L))
      (fun v => A.owes (A.viewed t v + L)) (A.owes (A.texture t + L))
  newViewStaging : ∀ size L, (b.consumer.newStaging size).Meets (A.owes L)
    (fun v => A.owes (A.viewStaging v + L)) (A.owes L)
  freeTexture : ∀ t L, (b.producer.freeTexture t).Meets (A.owes (A.texture t + L))
    (fun _ => A.owes L) (A.owes L)
  freeStaging : ∀ s L, (b.producer.freeStaging s).Meets (A.owes (A.staging s + L))
    (fun _ => A.owes L) (A.owes L)
  freeMarker : ∀ k L, (b.producer.freeMarker k).Meets (A.owes (A.marker k + L))
    (fun _ => A.owes L) (A.owes L)
  freeView : ∀ t v L, (b.consumer.freeTexture v).Meets (A.owes (A.viewed t v + L))
    (fun _ => A.owes (A.texture t + L)) (A.owes (A.texture t + L))
  freeViewStaging : ∀ v L, (b.consumer.freeStaging v).Meets (A.owes (A.viewStaging v + L))
    (fun _ => A.owes L) (A.owes L)
  /-- A poll that finds the marker retired leaves another one. -/
  poll : ∀ k L, (b.producer.poll k).Meets (A.owes (A.marker k + L))
    (fun k' => A.owes (A.marker (k'.getD k) + L)) (A.owes (A.marker k + L))
  /-- The marker may be another one also when the recording fails. -/
  record : ∀ L, b.producer.record.Keeps fun x => A.owes (A.marker x.1 + L) x.2
  stage : ∀ t v s region L,
    (b.producer.stage t s region).Keeps (A.owes (A.viewed t v + A.staging s + L))
  blockOn : ∀ s L, (b.producer.blockOn s).Keeps (A.owes (A.staging s + L))
  stageView : ∀ t v s region L,
    (b.consumer.stage v s region).Keeps (A.owes (A.viewed t v + A.viewStaging s + L))
  blockOnView : ∀ s L, (b.consumer.blockOn s).Keeps (A.owes (A.viewStaging s + L))
  convert : ∀ frame t v L, (convert frame v).Keeps (A.owes (A.viewed t v + L))

variable {A : Accounts W T K V R} {b : Backend W T K V} {convert : Converter W F V}
  {L L' : R} {w w' : W}

omit [AddCommMonoid R] in
theorem owes_of_eq (h : A.owes L w) (hL : L = L') : A.owes L' w := hL ▸ h

/-! ### Surfaces -/

/-- What is held for a surface. -/
def surface (A : Accounts W T K V R) (s : Surface T K V) : R :=
  A.viewStaging s.viewStaging +
    (A.viewed s.texture s.view + (A.marker s.marker + A.staging s.staging))

/-- What is held for the surfaces of a ring. -/
def held (A : Accounts W T K V R) (ring : Ring (Surface T K V)) : R :=
  (ring.slots.map A.surface).sum

namespace Kept
variable (hA : A.Kept b convert)
include hA

theorem dispose (h : Handle) (part : Part) {destroy : Attempt W Unit}
    (hd : destroy.Meets (A.owes L) (fun _ => A.owes L') (A.owes L')) (hw : A.owes L w) :
    A.owes L' (Surface.dispose b h part destroy w) := by
  simp only [Surface.dispose]
  split <;> rename_i hw'
  · exact hd.ok hw' hw
  · exact hA.note _ (hd.error hw' hw)

/-- A build that succeeds has added what is held for the surface, and a build that fails has given
back what it made. -/
theorem build (h : Handle) (size stagingSize : Extent) :
    (Surface.build b h size stagingSize).Meets (A.owes L) (fun s => A.owes (A.surface s + L))
      (A.owes L) := by
  refine Surface.holding_meets (hA.newTexture size L)
    (fun t w hw => hA.dispose h _ (hA.freeTexture t L) hw) fun t => ?_
  refine Attempt.meets_bind (hA.share t _) fun shared => Attempt.meets_and fun hshared => ?_
  refine Surface.holding_meets (hA.newStaging stagingSize _)
    (fun s w hw => hA.dispose h _ (hA.freeStaging s _) hw) fun s => ?_
  refine Surface.holding_meets (hA.newMarker _)
    (fun k w hw => hA.dispose h _ (hA.freeMarker k _) hw) fun k => ?_
  -- the view is opened on the texture, which is not the last that was made
  have hL : A.marker k + (A.staging s + (A.texture t + L)) =
      A.texture t + (A.marker k + (A.staging s + L)) := by abel
  rw [hL]
  refine Surface.holding_meets (hA.openShare hshared size _)
    (fun v w hw => hA.dispose h _ (hA.freeView t v _) hw) fun v => ?_
  refine Attempt.meets_bind (hA.newViewStaging stagingSize _) fun v' => ?_
  refine Attempt.meets_pure fun w hw => owes_of_eq hw ?_
  simp only [surface]
  abel

/-- Taking a surface apart gives back all that is held for it. -/
theorem dismantle {s : Surface T K V} (hw : A.owes (A.surface s + L) w) :
    A.owes L (s.dismantle b w) := by
  refine hA.dispose _ _ (hA.freeTexture s.texture L) ?_
  refine hA.dispose _ _ (hA.freeStaging s.staging _) ?_
  refine hA.dispose _ _ (hA.freeMarker s.marker _) ?_
  have hview := hA.freeView s.texture s.view
    (A.marker s.marker + (A.staging s.staging + L))
  refine owes_of_eq (hA.dispose _ _ hview ?_) (by abel)
  refine hA.dispose _ _ (hA.freeViewStaging s.viewStaging _) (owes_of_eq hw ?_)
  simp only [surface]
  abel

theorem dismantleAll {surfaces : List (Surface T K V)}
    (hw : A.owes ((surfaces.map A.surface).sum) w) :
    A.owes 0 (surfaces.foldl (fun w s => s.dismantle b w) w) := by
  induction surfaces generalizing w with
  | nil => exact hw
  | cons s rest ih =>
    rw [List.map_cons, List.sum_cons] at hw
    exact ih (hA.dismantle hw)

end Kept

/-! ### Rings -/

variable {ring : Ring (Surface T K V)} {s : Surface T K V}

theorem held_of_perm {surfaces : List (Surface T K V)} (h : surfaces.Perm ring.slots) :
    A.held ring = (surfaces.map A.surface).sum := (h.map _).sum_eq.symm

theorem held_insert (h : ring.Sound) (s : Surface T K V) :
    A.held (ring.insert s) = A.surface s + A.held ring := by
  rw [held_of_perm (ring.insert s).toQueue_perm, held_of_perm ring.toQueue_perm,
    Ring.toQueue_insert h, List.map_cons, List.sum_cons]

/-- A surface takes its share of what is held. -/
theorem held_mem (hs : s ∈ ring.slots) : ∃ L, A.held ring = A.surface s + L := by
  obtain ⟨first, rest, hslots⟩ := List.append_of_mem hs
  refine ⟨((first ++ rest).map A.surface).sum, ?_⟩
  rw [← List.sum_cons, ← List.map_cons]
  exact held_of_perm (hslots ▸ List.perm_middle.symm)

/-- Replacing the surface at the cursor replaces its share. -/
theorem held_setCurrent (hc : ring.current? = some s) :
    ∃ L, A.held ring = A.surface s + L ∧
      ∀ s', A.held (ring.setCurrent s') = A.surface s' + L := by
  refine ⟨(ring.toQueue.tail.map A.surface).sum, ?_, fun s' => ?_⟩
  · rw [held_of_perm ring.toQueue_perm, ← List.sum_cons, ← List.map_cons,
      ← Ring.toQueue_of_current hc]
  · rw [held_of_perm (ring.setCurrent s').toQueue_perm,
      Ring.toQueue_setCurrent (Ring.cursor_lt hc), List.map_cons, List.sum_cons]

/-! ### Every operation of a pool -/

/-- The world of a pool holds what its surfaces amount to. -/
def Balanced (A : Accounts W T K V R) (x : Pool T K V × W) : Prop :=
  A.owes (A.held x.1.ring) x.2

namespace Kept
variable {p p₁ : Pool T K V} {w₁ : W} {o : Option (Surface T K V)}

/-- What a call keeps of a part of a surface, it keeps of all that is held. -/
theorem keeps_part {α : Type} {act : Attempt W α} {part : R}
    (h : ∀ L, act.Keeps (A.owes (part + L))) (hs : s ∈ ring.slots)
    (hpart : ∃ others, A.surface s = part + others) :
    act.Keeps (A.owes (A.held ring)) := by
  obtain ⟨L, hL⟩ := A.held_mem hs
  obtain ⟨others, hothers⟩ := hpart
  rw [hL, hothers, add_assoc]
  exact h _

/-- The marker of the surface at the cursor is replaced by what an operation on it left. -/
theorem moving {k : K} {s' : Surface T K V} (hc : ring.current? = some s)
    (hs' : A.surface s' = A.surface { s with marker := k })
    (hmove : ∀ L, A.owes (A.marker s.marker + L) w → A.owes (A.marker k + L) w')
    (hw : A.owes (A.held ring) w) : A.owes (A.held (ring.setCurrent s')) w' := by
  obtain ⟨L, hheld, hset⟩ := A.held_setCurrent hc
  have hsplit (k : K) : A.surface { s with marker := k } + L = A.marker k +
      (A.viewStaging s.viewStaging + (A.viewed s.texture s.view + (A.staging s.staging + L))) := by
    simp only [surface]
    abel
  refine owes_of_eq (hmove _ (owes_of_eq hw (hheld.trans (hsplit s.marker)))) ?_
  rw [hset s', hs', hsplit k]

variable (hA : A.Kept b convert)
include hA

theorem drainTexture (hs : s ∈ ring.slots) (region : Extent) :
    (b.producer.drain s.texture s.staging region).Keeps (A.owes (A.held ring)) := by
  refine Attempt.keeps_bind (keeps_part (hA.stage s.texture s.view s.staging region) hs ?_)
    fun _ => keeps_part (hA.blockOn s.staging) hs ?_
  · exact ⟨A.viewStaging s.viewStaging + A.marker s.marker, by simp only [surface]; abel⟩
  · exact ⟨A.viewStaging s.viewStaging + (A.viewed s.texture s.view + A.marker s.marker), by
      simp only [surface]; abel⟩

theorem drainView (hs : s ∈ ring.slots) (region : Extent) :
    (b.consumer.drain s.view s.viewStaging region).Keeps (A.owes (A.held ring)) := by
  refine Attempt.keeps_bind (keeps_part (hA.stageView s.texture s.view s.viewStaging region) hs ?_)
    fun _ => keeps_part (hA.blockOnView s.viewStaging) hs ⟨_, rfl⟩
  exact ⟨A.marker s.marker + A.staging s.staging, by simp only [surface]; abel⟩

theorem converting (frame : F) (hs : s ∈ ring.slots) :
    (convert frame s.view).Keeps (A.owes (A.held ring)) := by
  refine keeps_part (hA.convert frame s.texture s.view) hs ?_
  exact ⟨A.viewStaging s.viewStaging + (A.marker s.marker + A.staging s.staging), by
    simp only [surface]; abel⟩

theorem declined (hd : Pool.Declined b p w o p₁ w₁) (hw : A.Balanced (p, w)) :
    A.Balanced (p₁, w₁) := by
  cases hd with
  | vacant => exact hw
  | unarmed => exact hw
  | @pending s _ hc hr ha hpoll =>
    have hmoved : A.owes (A.held (p.ring.setCurrent s)) w₁ :=
      moving hc rfl (fun L => (hA.poll s.marker L).ok hpoll) hw
    rwa [Ring.setCurrent_self hc] at hmoved
  | @unknown s e w' hc hr ha hpoll =>
    have hmoved : A.owes (A.held (p.ring.setCurrent s)) w' :=
      moving hc rfl (fun L => (hA.poll s.marker L).error hpoll) hw
    rw [Ring.setCurrent_self hc] at hmoved
    exact hA.note _ hmoved

theorem acquiring (hinv : p.Inv) {r : EStateM.Result Fault (Pool T K V × W) Handle}
    (ha : Pool.Acquiring b p w r) (hw : A.Balanced (p, w)) : A.Balanced (Attempt.leaves r) := by
  cases ha with
  | closed => exact hw
  | @again s hp hc => exact moving (k := s.marker) hc rfl (fun L h => h) hw
  | @ready s k w' hp hc hr ha hpoll =>
    exact moving (k := k) hc rfl (fun L => (hA.poll s.marker L).ok hpoll) hw
  | @grew o s p₁ w₁ w₂ hp hd hroom hb =>
    have hbuilt := (hA.build _ _ _).ok hb (hA.declined hd hw)
    refine hA.note _ (owes_of_eq hbuilt ?_)
    exact (A.held_insert (hinv.declined hd).sound { s with phase := .writing }).symm
  | growthFailed hp hd hroom hb =>
    exact hA.note _ ((hA.build _ _ _).error hb (hA.declined hd hw))
  | @stalled s p₁ w₁ w₂ hp hd hfull hdrained =>
    have hc : p₁.ring.current? = some s := by rw [hd.ring.1, hd.current]
    have hwaited := (hA.drainTexture (Ring.current?_mem hc) _).ok hdrained (hA.declined hd hw)
    exact hA.note _ (moving (k := s.marker) hc rfl (fun L h => h) hwaited)
  | @stallFailed s e p₁ w₁ w₂ hp hd hfull hlost =>
    have hc : p₁.ring.current? = some s := by rw [hd.ring.1, hd.current]
    exact hA.note _ ((hA.drainTexture (Ring.current?_mem hc) _).error hlost (hA.declined hd hw))

theorem releasing {h : Handle} {r : EStateM.Result Fault (Pool T K V × W) Unit}
    (hr : Pool.Releasing b h p w r) (hw : A.Balanced (p, w)) : A.Balanced (Attempt.leaves r) := by
  cases hr with
  | closed => exact hw
  | stale => exact hw
  | @recorded s k w' hp hc hh hs hrec =>
    exact moving (k := k) hc rfl (fun L => (hA.record L).ok hrec) hw
  | @unrecorded s e k w' hp hc hh hs hrec =>
    exact hA.note _ (moving (k := k) hc rfl (fun L => (hA.record L).error hrec) hw)

theorem awaiting (hinv : p.Inv) {h : Handle} {r : EStateM.Result Fault (Pool T K V × W) Unit}
    (hr : Pool.Awaiting b h p w r) (hw : A.Balanced (p, w)) : A.Balanced (Attempt.leaves r) := by
  cases hr with
  | closed => exact hw
  | stale => exact hw
  | landed hp hf hlanded => exact (hA.drainView (hinv.find?_eq_some.1 hf).1 _).ok hlanded hw
  | failed hp hf hlost =>
    exact hA.note _ ((hA.drainView (hinv.find?_eq_some.1 hf).1 _).error hlost hw)

theorem close {x : Pool T K V × W} (hx : A.Balanced x) : A.Balanced (Pool.close b x) := by
  simp only [Pool.close]
  split
  · exact hx
  · exact hA.note _ (hA.dismantleAll hx)

end Kept

/-- The world of a pool holds what its surfaces amount to, whatever is done with the pool and its
presenter. -/
theorem kept (hA : A.Kept b convert) :
    Presenter.Kept b convert fun x => x.1.Inv ∧ A.Balanced x where
  acquire := Attempt.keeps_of_leaves fun x hx =>
    ⟨(Pool.acquiring b x.1 x.2).inv hx.1, hA.acquiring hx.1 (Pool.acquiring b x.1 x.2) hx.2⟩
  release h := Attempt.keeps_of_leaves fun x hx =>
    ⟨(Pool.releasing b h x.1 x.2).inv hx.1, hA.releasing (Pool.releasing b h x.1 x.2) hx.2⟩
  awaitConsumer h := Attempt.keeps_of_leaves fun x hx =>
    ⟨(Pool.awaiting b h x.1 x.2).pool.symm ▸ hx.1,
      hA.awaiting hx.1 (Pool.awaiting b h x.1 x.2) hx.2⟩
  close x hx := ⟨hx.1.close b x.2, hA.close hx.2⟩
  convert frame p h view hview w hw := by
    obtain ⟨s, hs, rfl⟩ := Option.map_eq_some_iff.1 hview
    exact ⟨hw.1, hA.converting frame (hw.1.find?_eq_some.1 hs).1 w hw.2⟩
  note n _ _ hx := ⟨hx.1, hA.note n hx.2⟩

end Accounts

namespace Presenter
variable {A : Accounts W T K V R} {b : Backend W T K V} {convert : Converter W F V}

/-- Behind any run, the world holds what the surfaces of the pool amount to. -/
theorem accounts_run (hA : A.Kept b convert) {c : Pool.Config} {p : Pool T K V}
    (hp : Pool.make c = .ok p) {w : W} (hw : A.owes 0 w) (moves : List (Move F)) :
    OnPool (fun x => x.1.Inv ∧ A.Balanced x) (run b convert moves (ofPool p, w)) := by
  refine (Accounts.kept hA).run moves ⟨Pool.inv_make hp, ?_⟩
  show A.owes (A.held p.ring) w
  rw [Pool.make_ring hp]
  exact hw

/-- Behind a run that was ended by tearing down the pool, nothing is held. -/
theorem nothing_held (hA : A.Kept b convert) {c : Pool.Config} {p : Pool T K V}
    (hp : Pool.make c = .ok p) {w : W} (hw : A.owes 0 w) (moves : List (Move F)) {ending : Move F}
    (hending : ending = .closePool ∨ ending = .close) :
    A.owes 0 (after b convert ending (run b convert moves (ofPool p, w))).2 := by
  have hx := accounts_run hA hp hw moves
  generalize run b convert moves (ofPool p, w) = x at hx ⊢
  obtain ⟨hinv, hbalanced⟩ := (Accounts.kept hA).make ending x hx
  exact Accounts.owes_of_eq hbalanced
    (congrArg A.held (hinv.emptied (closed_after_ending hending x)))

end Presenter
end SurfaceRelay
