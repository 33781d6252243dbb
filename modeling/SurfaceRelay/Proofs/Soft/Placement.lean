import Mathlib.Data.List.Pairwise
import SurfaceRelay.Proofs.Pool.Fixtures
import SurfaceRelay.Proofs.Soft.Building
import SurfaceRelay.Proofs.Soft.Onward

/-! Where the images of a pool are stored.

A surface has three storages over software domains of one device: one for its texture, which its
view shows as well, and one for each of its staging resources. Storages are numbered in the order
in which they are made, and nobody else makes one while a surface is built, so they are different
ones for all the surfaces of a pool (`Placed`), whatever is done with the domains besides
(`housed_turn`). -/
namespace SurfaceRelay.Soft
open Watched (call call_ok onward_call onward_backend)

variable {w w' : World} {x x' : Watched} {d p c n m : Nat} {size stagingSize : Extent}
  {f : Fixture Texture Texture} {fixtures : List (Fixture Texture Texture)}

/-! ### Storages of surfaces -/

/-- The storages of a surface. Its view shows the one of its texture. -/
def storages (f : Fixture Texture Texture) : List Nat :=
  [f.texture.storage, f.staging.storage, f.viewStaging.storage]

/-- A surface shows one image in both domains, at these extents. -/
structure Formed (size stagingSize : Extent) (f : Fixture Texture Texture) : Prop where
  same : f.view.storage = f.texture.storage
  texture : f.texture.size = size
  view : f.view.size = size
  staging : f.staging.size = stagingSize
  viewStaging : f.viewStaging.size = stagingSize

/-- All surfaces have storages of their own, below a number. -/
structure Placed (size stagingSize : Extent) (fixtures : List (Fixture Texture Texture))
    (n : Nat) : Prop where
  formed : ∀ f ∈ fixtures, Formed size stagingSize f
  apart : (fixtures.flatMap storages).Nodup
  below : ∀ i ∈ fixtures.flatMap storages, i < n

namespace Placed

theorem nil : Placed size stagingSize [] n :=
  ⟨fun f hf => (by cases hf), List.nodup_nil, fun i hi => (by cases hi)⟩

theorem mono (h : Placed size stagingSize fixtures n) (hle : n ≤ m) :
    Placed size stagingSize fixtures m :=
  ⟨h.formed, h.apart, fun i hi => Nat.lt_of_lt_of_le (h.below i hi) hle⟩

theorem perm (h : Placed size stagingSize fixtures n) {fixtures' : List (Fixture Texture Texture)}
    (hp : fixtures'.Perm fixtures) : Placed size stagingSize fixtures' n := by
  have hstorages := hp.flatMap_right storages
  exact ⟨fun f hf => h.formed f (hp.mem_iff.1 hf), hstorages.nodup_iff.2 h.apart,
    fun i hi => h.below i (hstorages.mem_iff.1 hi)⟩

/-- A new surface has new storages. -/
theorem cons (h : Placed size stagingSize fixtures n) (hf : Formed size stagingSize f)
    (hnew : (storages f).Pairwise (· < ·)) (hrange : ∀ i ∈ storages f, n ≤ i ∧ i < m)
    (hle : n ≤ m) : Placed size stagingSize (f :: fixtures) m := by
  refine ⟨fun f' hf' => ?_, ?_, fun i hi => ?_⟩
  · rcases List.mem_cons.1 hf' with rfl | hf'
    · exact hf
    · exact h.formed f' hf'
  · rw [List.flatMap_cons, List.nodup_append]
    refine ⟨hnew.imp Nat.ne_of_lt, h.apart, fun i hi j hj he => ?_⟩
    exact absurd (h.below j hj) (Nat.not_lt.2 (he ▸ (hrange i hi).1))
  · rcases List.mem_append.1 (List.flatMap_cons ▸ hi) with hi | hi
    · exact (hrange i hi).2
    · exact Nat.lt_of_lt_of_le (h.below i hi) hle

/-- Different surfaces have different storages. -/
theorem disjoint (h : Placed size stagingSize fixtures n) {g : Fixture Texture Texture}
    (hf : f ∈ fixtures) (hg : g ∈ fixtures) (hne : f ≠ g) :
    (storages f).Disjoint (storages g) := by
  have hsymm : Std.Symm (Function.onFun List.Disjoint storages) := ⟨fun _ _ => List.disjoint_symm⟩
  exact (List.nodup_flatMap.1 h.apart).2.forall hf hg hne

theorem eq_of_texture (h : Placed size stagingSize fixtures n) {g : Fixture Texture Texture}
    (hf : f ∈ fixtures) (hg : g ∈ fixtures) (he : f.texture.storage = g.texture.storage) :
    f = g := by
  by_contra hne
  exact h.disjoint hf hg hne (List.mem_cons_self ..) (he ▸ List.mem_cons_self ..)

end Placed

/-! ### Building a surface -/

/-- A new texture has a storage of its own. -/
theorem newTexture_ok {t : Texture} (h : newTexture d size w = .ok t w') :
    t.size = size ∧ t.storage = w.storageCount ∧ w'.storageCount = w.storageCount + 1 := by
  cases h
  exact ⟨rfl, rfl, rfl⟩

theorem share_ok {t : Texture} {shared : Nat} (h : share d t w = .ok shared w') :
    Exported d shared t.storage w' := by
  cases h
  rw [Exported]
  show (Table.put w.devices (w.workers d).device _ (w.workers d).device).exports t.id = _
  rw [Table.put_same]
  exact Table.put_same ..

/-- A view shows the storage that was exported, at the extent that was asked for. -/
theorem openShare_shows {shared : Nat} {v : Texture} (h : openShare d shared size w = .ok v w') :
    Exported d shared v.storage w ∧ v.size = size := by
  simp only [openShare] at h
  split at h
  · cases h
  · rename_i storage hstorage
    split at h
    · cases h
    · cases h
      exact ⟨hstorage, rfl⟩

/-- Workers of one device export the same. -/
theorem Exported.shared {shared storage : Nat} (h : Exported p shared storage w)
    (hdevice : (w.workers p).device = (w.workers c).device) : Exported c shared storage w := by
  rw [Exported, ← hdevice]
  exact h

namespace Watched

theorem exported_yield {shared storage : Nat} (h : Exported d shared storage x.world) :
    Exported d shared storage x.yield.world := by
  have hyield : x.yield.world = x.toConcurrent.yield.world :=
    congrArg Concurrent.world (toConcurrent_yield x)
  rw [hyield]
  exact Soft.exported_yield (x := x.toConcurrent) h

/-- The storage of a new texture was not there before. -/
theorem newTexture_placed {t : Texture} (h : call (newTexture d size) x = .ok t x') :
    t.size = size ∧ x.world.storageCount ≤ t.storage ∧ t.storage < x'.world.storageCount := by
  have hyield := (onward_yield x).storageCount
  obtain ⟨hsize, hstorage, hcount⟩ := newTexture_ok (call_ok h)
  refine ⟨hsize, ?_⟩
  omega

/-- A surface that was built has new storages, and shows one image in both domains. -/
theorem build_placed (hdevice : (x.world.workers p).device = (x.world.workers c).device)
    {k : Handle} {s : Surface Texture Marker Texture}
    (hb : Surface.build (backend p c) k size stagingSize x = .ok s x') :
    Formed size stagingSize s.fixture ∧ (storages s.fixture).Pairwise (· < ·) ∧
      ∀ i ∈ storages s.fixture, x.world.storageCount ≤ i ∧ i < x'.world.storageCount := by
  obtain ⟨-, -, -, shared, x₁, x₂, x₃, x₄, x₅, htexture, hshare, hstaging, hmarker, hview,
    hviewStaging⟩ := Surface.build_ok _ k hb
  -- the texture, which is exported from then on
  obtain ⟨htsize, htle, htlt⟩ := newTexture_placed htexture
  have hexported := exported_yield (share_ok (call_ok hshare))
  have hexported := (newTexture_exported p stagingSize).ok (call_ok hstaging) hexported
  have hexported := (newMarker_exported p).ok (call_ok hmarker) (exported_yield hexported)
  -- only time goes by between the calls
  have h₁ := (onward_call (.newTexture _ size) _).ok htexture (.refl x.world)
  have h₂ := (onward_call (.share _ _) _).ok hshare (.refl x₁.world)
  have h₃ := (onward_call (.newTexture _ stagingSize) _).ok hstaging (.refl x₂.world)
  have h₄ := (onward_call (.newMarker _) _).ok hmarker (.refl x₃.world)
  have h₅ := (onward_call (.openShare _ _ size) _).ok hview (.refl x₄.world)
  obtain ⟨hssize, hsle, hslt⟩ := newTexture_placed hstaging
  obtain ⟨hvsize, hvle, hvlt⟩ := newTexture_placed hviewStaging
  -- the view
  have hdevice₄ : (x₄.yield.world.workers p).device = (x₄.yield.world.workers c).device := by
    have hon := (((h₁.trans h₂).trans h₃).trans h₄).trans (onward_yield x₄)
    rw [hon.device, hon.device, hdevice]
  obtain ⟨hshown, hopened⟩ := openShare_shows (call_ok hview)
  have hsame := ((exported_yield hexported).shared hdevice₄).symm.trans hshown
  have hcount₂ := h₂.storageCount
  have hcount₄ := h₄.storageCount
  have hcount₅ := h₅.storageCount
  refine ⟨⟨(Option.some.inj hsame).symm, htsize, hopened, hssize, hvsize⟩, ?_, ?_⟩
  · simp [storages, Surface.fixture]
    omega
  · simp [storages, Surface.fixture]
    omega

end Watched

/-! ### A pool and its world -/

/-- A pool of this extent over two workers of one device, with storages of their own for its
surfaces. -/
structure Housed (p c : Nat) (size : Extent) (x : Pool Texture Marker Texture × Watched) :
    Prop where
  inv : x.1.Inv
  extent : x.1.size = size
  device : (x.2.world.workers p).device = (x.2.world.workers c).device
  placed : Placed size (size.clamp stagingEdge) x.1.fixtures x.2.world.storageCount

variable {x x' : Pool Texture Marker Texture × Watched}

theorem housed_make {config : Pool.Config} {pool : Pool Texture Marker Texture}
    (hmake : Pool.make config = .ok pool)
    (hdevice : (w.workers p).device = (w.workers c).device) (schedule : List (List Event)) :
    Housed p c config.size (pool, .start w schedule) := by
  have hinv := Pool.inv_make hmake
  obtain ⟨rfl, -⟩ := Pool.make_ok hmake
  exact ⟨hinv, rfl, hdevice, .nil⟩

/-- Nothing that only the world does takes a storage away. -/
theorem Housed.onward (h : Housed p c size x) {y : Watched}
    (hy : x.2.world.Onward y.world) : Housed p c size (x.1, y) where
  inv := h.inv
  extent := h.extent
  device := by rw [hy.device, hy.device, h.device]
  placed := h.placed.mono hy.storageCount

/-- **Every surface keeps storages of its own.** -/
theorem housed_turn (h : Housed p c size x) (op : Pool.Op) :
    Housed p c size (Pool.turn (Watched.backend p c) x op).after := by
  have hkeeps := onward_backend p c x.2.world
  have honward := hkeeps.turn (x := x) (.refl _) op
  have hinv := Pool.inv_turn (b := Watched.backend p c) h.inv op
  have hsize := Pool.size_turn (b := Watched.backend p c) x op
  have hrefitted := Pool.refitted_turn (b := Watched.backend p c) h.inv op
  generalize (Pool.turn (Watched.backend p c) x op).after = y at *
  refine ⟨hinv, hsize.trans h.extent, (h.onward honward).device, ?_⟩
  cases hrefitted with
  | kept hf => exact hf ▸ (h.onward honward).placed
  | @built o p₁ x₁ s x₂ p₂ n hd hb hf =>
    -- storages may have been added while the surface at the cursor was judged
    have hfirst : x.2.world.Onward x₁.world :=
      hd.world (fun n w _ => hkeeps.note n w) hkeeps.toKeepsAcquiring (.refl _)
    rw [Pool.stagingSize, h.extent] at hb
    obtain ⟨hformed, hnew, hrange⟩ := Watched.build_placed (h.onward hfirst).device hb
    refine ((h.placed.cons hformed hnew (fun i hi => ?_) honward.storageCount)).perm hf
    exact ⟨Nat.le_trans hfirst.storageCount (hrange i hi).1, (hrange i hi).2⟩
  | emptied hf =>
    rw [hf]
    exact .nil

theorem housed_unmoved : Pool.Unmoved Watched.Meanwhile (Housed p c size) :=
  fun _ _ _ hmay h => h.onward (Watched.Meanwhile.onward hmay)

end SurfaceRelay.Soft
