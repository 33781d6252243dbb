import Mathlib.Data.List.Flatten
import SurfaceRelay.Proofs.Resources.Pairing
import SurfaceRelay.Proofs.Soft.Placement
import SurfaceRelay.Proofs.Soft.Presentation

/-! Which images are the same.

A surface has one image under two names, the producer's texture and the consumer's view. Looking
both up by the handle of a surface gives the same two as long as the pool stands, and they belong
together: the view was opened by the share handle of this very texture (`Pool.paired_course`). Over
software domains it can be said outright what a mix-up would be, because an image is a storage:
images that are looked up alias exactly when they were looked up by one handle, and no staging
resource aliases anything (`Unmixed`). -/
namespace SurfaceRelay.Soft
open Pool (Turn Course)
open Presentation (smallPool twoWorkers)
open Watched (Meanwhile)

variable {p c n : Nat} {size stagingSize : Extent} {pool : Pool Texture Marker Texture}
  {fixtures : List (Fixture Texture Texture)}

/-- The image is the producer's texture or the consumer's view of a surface. -/
def LooksUp (pool : Pool Texture Marker Texture) (h : Handle) (image : Texture) : Prop :=
  pool.texture? h = some image ∨ pool.view? h = some image

/-- What holds of the images of a pool at any time. -/
structure Unmixed (pool : Pool Texture Marker Texture) : Prop where
  /-- Two images alias when they were looked up by one handle, and not otherwise. -/
  images : ∀ h k i j, LooksUp pool h i → LooksUp pool k j → (i.storage = j.storage ↔ h = k)
  /-- No staging resource aliases an image. -/
  staging : ∀ s ∈ pool.ring.slots, ∀ t ∈ pool.ring.slots, ∀ i ∈ [s.staging, s.viewStaging],
    ∀ j ∈ [t.texture, t.view], i.storage ≠ j.storage
  /-- No staging resource aliases another one. -/
  stagings : (pool.ring.slots.flatMap fun s =>
    [s.staging.storage, s.viewStaging.storage]).Nodup

/-! ### Storages that are apart -/

theorem Placed.staging_ne_texture (h : Placed size stagingSize fixtures n)
    {f g : Fixture Texture Texture} (hf : f ∈ fixtures) (hg : g ∈ fixtures) :
    f.staging.storage ≠ g.texture.storage ∧ f.viewStaging.storage ≠ g.texture.storage := by
  by_cases he : f = g
  · subst he
    have hown := (List.nodup_flatMap.1 h.apart).1 f hf
    rw [storages, List.nodup_cons, List.mem_cons, List.mem_singleton, not_or] at hown
    exact ⟨Ne.symm hown.1.1, Ne.symm hown.1.2⟩
  · have hapart := h.disjoint hf hg he
    have hstaging : f.staging.storage ∈ storages f := by simp [storages]
    have hviewStaging : f.viewStaging.storage ∈ storages f := by simp [storages]
    exact ⟨fun he => hapart hstaging (he ▸ List.mem_cons_self ..),
      fun he => hapart hviewStaging (he ▸ List.mem_cons_self ..)⟩

theorem Placed.stagings (h : Placed size stagingSize fixtures n) :
    (fixtures.flatMap fun f => [f.staging.storage, f.viewStaging.storage]).Nodup :=
  h.apart.sublist (List.Sublist.flatMap_right _ fun _ _ => List.sublist_cons_self ..)

/-- What is looked up under a handle shows the storage of the surface's texture. -/
theorem Placed.storage_of_lookup (h : Placed size stagingSize pool.fixtures n) (hinv : pool.Inv)
    {k : Handle} {i : Texture} (hi : LooksUp pool k i) :
    ∃ f ∈ pool.fixtures, f.handle = k ∧ i.storage = f.texture.storage := by
  obtain ⟨htexture, hview⟩ := hinv.fixture_of_lookup (k := k)
  rcases hi with hi | hi
  · obtain ⟨f, hf, hk, rfl⟩ := htexture i hi
    exact ⟨f, hf, hk, rfl⟩
  · obtain ⟨f, hf, hk, rfl⟩ := hview i hi
    exact ⟨f, hf, hk, (h.formed f hf).same⟩

theorem Housed.unmixed {x : Pool Texture Marker Texture × Watched} (h : Housed p c size x) :
    Unmixed x.1 where
  images a k i j hi hj := by
    obtain ⟨f, hf, rfl, hfi⟩ := h.placed.storage_of_lookup h.inv hi
    obtain ⟨g, hg, rfl, hgj⟩ := h.placed.storage_of_lookup h.inv hj
    rw [hfi, hgj]
    exact ⟨fun he => congrArg Fixture.handle (h.placed.eq_of_texture hf hg he),
      fun he => congrArg (·.texture.storage)
        (List.inj_on_of_nodup_map h.inv.fixtures_nodup hf hg he)⟩
  staging s hs t ht i hi j hj := by
    have hf := Pool.fixture_mem hs
    have hg := Pool.fixture_mem ht
    have hsame : t.view.storage = t.texture.storage := (h.placed.formed _ hg).same
    have hj : j.storage = t.texture.storage := by
      simp only [List.mem_cons, List.not_mem_nil, or_false] at hj
      rcases hj with rfl | rfl
      · rfl
      · exact hsame
    obtain ⟨hstaging, hviewStaging⟩ := h.placed.staging_ne_texture hf hg
    simp only [List.mem_cons, List.not_mem_nil, or_false] at hi
    rw [hj]
    rcases hi with rfl | rfl
    · exact hstaging
    · exact hviewStaging
  stagings := by
    have hstagings := h.placed.stagings
    rw [Pool.fixtures, List.flatMap_map] at hstagings
    exact hstagings

/-! ### Pools of any domains, and of software domains -/

/-- **Both handles of a surface stand for one image.** Whatever two domains answer and whatever
happens in them between two requests, with everything that they make told apart: the view of every
surface was opened, at the extent of the pool, by the share handle that was exported for the
texture of the same surface; no two surfaces have any of their five resources in common; and from
when a surface is handed out until the pool is torn down, the same texture and the same view are
found under its handle. Over software domains of one device, whatever is done with them besides,
images that are looked up show one storage exactly when they belong to one surface, and staging
resources show none that anything else shows. -/
theorem surfaces_pair_two_handles (config : Pool.Config) :
    (∀ {W F T K V : Type} (b : Backend W T K V) (w : W)
      {pool : Pool (Tagged T) (Tagged K) (Tagged V)}
      {history : List (Turn (Recorded (Numbered W) (Line F T K V)) (Tagged T) (Tagged K)
        (Tagged V))},
      Pool.make config = .ok pool →
      Course b.audited Pool.Elsewhere (pool, .ofWorld ⟨w, 0⟩) history →
      (∀ t ∈ history, Pool.Paired config.size t.after) ∧ Pool.SameImages history) ∧
    ∀ {p c : Nat} {w : World} {schedule : List (List Event)} {pool : Pool Texture Marker Texture}
      {history : List (Turn Watched Texture Marker Texture)},
      Pool.make config = .ok pool → (w.workers p).device = (w.workers c).device →
      Course (Watched.backend p c) Meanwhile (pool, .start w schedule) history →
      ∀ t ∈ history, Unmixed t.after.1 := by
  refine ⟨fun b w _ _ hmake hcourse => Pool.paired_course hmake b w hcourse, ?_⟩
  intro p c w schedule pool history hmake hdevice hcourse t ht
  have hhoused : Housed p c config.size t.after :=
    hcourse.after housed_unmoved (fun _ op h => housed_turn h op)
      (housed_make hmake hdevice schedule) ht
  exact hhoused.unmixed

/-- Two surfaces are built, one after the other has been released; the first is found as it was.
Over software domains the second has a storage of its own. -/
theorem surfaces_pair_two_handles_growing :
    (∃ (pool : Pool (Tagged Unit) (Tagged Unit) (Tagged Unit))
      (t u v : Turn (Recorded (Numbered Unit) (Line Unit Unit Unit Unit)) (Tagged Unit)
        (Tagged Unit) (Tagged Unit)) (texture view : Tagged Unit),
      Pool.make ⟨⟨4, 4⟩, 2⟩ = .ok pool ∧
      Pool.turns (Pool.steady false).audited (pool, .ofWorld ⟨(), 0⟩)
        [.acquire, .release ⟨1⟩, .acquire] = [t, u, v] ∧
      v.after.1.ring.size = 2 ∧ Pool.Paired ⟨4, 4⟩ v.after ∧
      (t.after.1.texture? ⟨1⟩ = some texture ∧ t.after.1.view? ⟨1⟩ = some view) ∧
      (v.after.1.texture? ⟨1⟩ = some texture ∧ v.after.1.view? ⟨1⟩ = some view)) ∧
    ∃ (history : List (Turn Watched Texture Marker Texture))
      (t : Turn Watched Texture Marker Texture),
      Pool.make { size := ⟨1, 1⟩, capacity := 2 } = .ok smallPool ∧
      (twoWorkers.workers 0).device = (twoWorkers.workers 1).device ∧
      Course (Watched.backend 0 1) Meanwhile (smallPool, .start twoWorkers []) history ∧
      t ∈ history ∧ Unmixed t.after.1 ∧
      LooksUp t.after.1 ⟨1⟩ ⟨1, ⟨1, 1⟩, 0⟩ ∧ LooksUp t.after.1 ⟨1⟩ ⟨3, ⟨1, 1⟩, 0⟩ ∧
      LooksUp t.after.1 ⟨2⟩ ⟨5, ⟨1, 1⟩, 3⟩ := by
  constructor
  · obtain ⟨pool, hmake⟩ : ∃ pool : Pool (Tagged Unit) (Tagged Unit) (Tagged Unit),
        Pool.make ⟨⟨4, 4⟩, 2⟩ = .ok pool := ⟨_, rfl⟩
    obtain ⟨t, u, v, hturns, hlent, hsize, ht, hv⟩ :
        ∃ t u v, Pool.turns (W := Recorded (Numbered Unit) (Line Unit Unit Unit Unit))
          (Pool.steady false).audited (pool, .ofWorld ⟨(), 0⟩)
          [.acquire, .release ⟨1⟩, .acquire] = [t, u, v] ∧
        t.answer = .ok (some ⟨1⟩) ∧ v.after.1.ring.size = 2 ∧
        t.after.1.closed = false ∧ v.after.1.closed = false := by
      cases hmake
      exact ⟨_, _, _, rfl, rfl, rfl, rfl, rfl⟩
    have hcourse : Course (Pool.steady false).audited Pool.Elsewhere
        (pool, .ofWorld (E := Line Unit Unit Unit Unit) ⟨(), 0⟩) [t, u, v] :=
      hturns ▸ (Pool.course_turns _ _).mono fun r r' h => ⟨congrArg (·.trace) h.symm,
        congrArg (·.world.next) h.symm⟩
    obtain ⟨hpaired, hlookups⟩ :=
      (surfaces_pair_two_handles _).1 (Pool.steady false) () hmake hcourse
    obtain ⟨texture, view, hsame⟩ := hlookups [] t [u, v] ⟨1⟩ rfl hlent
    exact ⟨pool, t, u, v, texture, view, hmake, hturns, hsize, hpaired v (by simp),
      hsame t (by simp) ht, hsame v (by simp) hv⟩
  · have hmake : Pool.make { size := ⟨1, 1⟩, capacity := 2 } = .ok smallPool := rfl
    have hdevice : (twoWorkers.workers 0).device = (twoWorkers.workers 1).device := rfl
    obtain ⟨history, t, hcourse, ht, hlookups⟩ :
        ∃ (history : List (Turn Watched Texture Marker Texture))
          (t : Turn Watched Texture Marker Texture),
          Course (Watched.backend 0 1) Meanwhile (smallPool, .start twoWorkers []) history ∧
          t ∈ history ∧ LooksUp t.after.1 ⟨1⟩ ⟨1, ⟨1, 1⟩, 0⟩ ∧
          LooksUp t.after.1 ⟨1⟩ ⟨3, ⟨1, 1⟩, 0⟩ ∧ LooksUp t.after.1 ⟨2⟩ ⟨5, ⟨1, 1⟩, 3⟩ :=
      ⟨_, _, .next ⟨[], rfl⟩ .acquire <| .next ⟨[], rfl⟩ (.release ⟨1⟩) <|
        .next ⟨[], rfl⟩ .acquire .done, List.mem_of_getElem? (i := 2) rfl, .inl rfl, .inr rfl,
        .inl rfl⟩
    exact ⟨history, t, hmake, hdevice, hcourse, ht,
      (surfaces_pair_two_handles _).2 hmake hdevice hcourse t ht, hlookups⟩

end SurfaceRelay.Soft
