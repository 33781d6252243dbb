import SurfaceRelay.Proofs.Pool.Fixtures
import SurfaceRelay.Proofs.Soft.Presentation
import SurfaceRelay.Proofs.Soft.Quiet

/-! What can be looked up by a share handle.

A share handle is entered in the register of a device while a surface is built, right behind its
texture, and it is struck out when a texture with this number is destroyed, be it a producer's
texture or a consumer's view. That the register always has the textures of the surfaces in the
ring, and no others (`Registered`), therefore rests on three things: a build that fails takes back
the entry it made (`build_meets`); views have numbers of their own, so that closing one strikes
nothing out; and a pool that is torn down destroys all the textures it had
(`Registered.dismantled`). It does not matter which creation fails, and when, nor which worker
dies. -/
namespace SurfaceRelay.Soft
open Pool (Turn Course Op)

variable {w w' : World} {p c d i k n : Nat} {size stagingSize : Extent} {α : Type}

/-! ### Creations that may fail -/

namespace Watched

/-- The attempt is this call, but it may also fail. What it leaves then is not disturbed. -/
def Falters (act : Attempt Watched α) (act' : Attempt World α) : Prop :=
  ∀ x, act x = call act' x ∨ ∃ e x', act x = .error e x' ∧ Undisturbed x x'

/-- How the resources of a surface are made. -/
structure Creations where
  newTexture : Extent → Attempt Watched Texture
  share : Texture → Attempt Watched Nat
  newStaging : Extent → Attempt Watched Texture
  newMarker : Attempt Watched Marker
  openShare : Nat → Extent → Attempt Watched Texture
  newViewStaging : Extent → Attempt Watched Texture

namespace Creations

/-- Watched domains that make resources in this way. -/
def backend (m : Creations) (p c : Nat) : Backend Watched Texture Marker Texture where
  producer := { producer p with
    newTexture := m.newTexture, share := m.share, newStaging := m.newStaging
    newMarker := m.newMarker }
  consumer := { consumer c with openShare := m.openShare, newStaging := m.newViewStaging }
  note _ x := x

/-- Any creation may fail at any time. -/
structure Faltering (m : Creations) (p c : Nat) : Prop where
  newTexture : ∀ size, Falters (m.newTexture size) (Soft.newTexture p size)
  share : ∀ t, Falters (m.share t) (Soft.share p t)
  newStaging : ∀ size, Falters (m.newStaging size) (Soft.newTexture p size)
  newMarker : Falters m.newMarker (Soft.newMarker p)
  openShare : ∀ shared size, Falters (m.openShare shared size) (Soft.openShare c shared size)
  newViewStaging : ∀ size, Falters (m.newViewStaging size) (Soft.newTexture c size)

/-- The domains' own creations. -/
def plain (p c : Nat) : Creations where
  newTexture size := call (Soft.newTexture p size)
  share t := call (Soft.share p t)
  newStaging size := call (Soft.newTexture p size)
  newMarker := call (Soft.newMarker p)
  openShare shared size := call (Soft.openShare c shared size)
  newViewStaging size := call (Soft.newTexture c size)

/-- They fail only when they do. -/
theorem faltering_plain (p c : Nat) : (plain p c).Faltering p c := by
  constructor <;> intros <;> exact fun _ => .inl rfl

example : (plain p c).backend p c = Watched.backend p c := rfl

end Creations

/-- What a call owes it owes also when it may fail besides. -/
theorem Falters.meets {act : Attempt Watched α} {act' : Attempt World α} (h : Falters act act')
    {J : World → Prop} {post : α → World → Prop} (hquiet : ∀ {w w'}, w.Quiet w' → J w → J w')
    (hact : act'.Meets J post J) :
    act.Meets (fun x => J x.world) (fun a x => post a x.world) (fun x => J x.world) := by
  refine Attempt.meets_of_result fun x hx => ?_
  have hyield : J x.yield.world := hquiet (quiet_yield x) hx
  rcases h x with hsame | ⟨e, x', herror, hmay⟩
  · rw [hsame]
    cases hcall : call act' x with
    | ok a x' => exact hact.ok (call_ok hcall) hyield
    | error e x' => exact hact.error (call_error hcall) hyield
  · rw [herror]
    exact hquiet hmay.quiet hx

end Watched

/-! ### The register while a surface is built -/

/-- The producer's device has these entries, and it has given out this number at least. -/
structure Stands (p c i k : Nat) (entries : Nat → Option Nat) (n : Nat) (w : World) : Prop where
  producer : (w.workers p).device = i
  consumer : (w.workers c).device = k
  exports : (w.devices i).exports = entries
  lastId : n ≤ (w.devices i).lastId

/-- The view has a number of its own, if it was opened on this device. -/
structure Viewed (p c i k : Nat) (entries : Nat → Option Nat) (n : Nat) (v : Texture) (w : World) :
    Prop extends Stands p c i k entries n w where
  view : k = i → n < v.id ∧ v.id ≤ (w.devices i).lastId

theorem addTexture_number {storage : Nat} {t : Texture}
    (h : addTexture d size storage w = .ok t w') :
    t.id = (w.devices (w.workers d).device).lastId + 1 ∧
      t.id ≤ (w'.devices (w.workers d).device).lastId := by
  cases h
  refine ⟨rfl, Nat.le_of_eq ?_⟩
  show _ = (Table.put w.devices (w.workers d).device _ (w.workers d).device).lastId
  rw [Table.put_same]

/-- Opening a share handle makes a texture, if it succeeds. -/
theorem addTexture_of_openShare {shared : Nat} {v : Texture}
    (h : openShare d shared size w = .ok v w') :
    ∃ storage, addTexture d size storage w = .ok v w' := by
  simp only [openShare] at h
  split at h
  · cases h
  · split at h
    · cases h
    · exact ⟨_, h⟩

/-- Destroying a texture strikes its number out, on the device of the domain that does it. -/
theorem devices_freeTexture (d : Nat) (t : Texture) (w : World) :
    (Attempt.leaves (freeTexture d t w)).devices =
      Table.put w.devices (w.workers d).device { w.devices (w.workers d).device with
        exports := Table.put (w.devices (w.workers d).device).exports t.id none } := rfl

namespace Stands
variable {entries : Nat → Option Nat}

theorem quiet (h : Stands p c i k entries n w) (hw : w.Quiet w') :
    Stands p c i k entries n w' where
  producer := (hw.device p).trans h.producer
  consumer := (hw.device c).trans h.consumer
  exports := (hw.exports i).trans h.exports
  lastId := Nat.le_trans h.lastId (hw.lastId i)

theorem mono (h : Stands p c i k entries n w) {m : Nat} (hm : m ≤ n) :
    Stands p c i k entries m w := { h with lastId := Nat.le_trans hm h.lastId }

/-- A new texture of the producer has a number that was not given out before. -/
theorem newTexture_meets (size : Extent) :
    (newTexture p size).Meets (Stands p c i k entries n)
      (fun t w => n < t.id ∧ Stands p c i k entries t.id w) (Stands p c i k entries n) where
  ok {t w w'} ht h := by
    have hadd : addTexture p size w.storageCount (w.allocate (.blank size)) = .ok t w' := ht
    obtain ⟨hnumber, hlast⟩ := addTexture_number hadd
    rw [show (((w.allocate (.blank size)).workers p).device) = i from h.producer] at hnumber hlast
    exact ⟨Nat.lt_of_le_of_lt h.lastId (hnumber ▸ Nat.lt_succ_self _),
      { h.quiet ((Discreet.newTexture p size).ok ht) with lastId := hlast }⟩
  error ht h := h.quiet ((Discreet.newTexture p size).error ht)

/-- Sharing a texture enters it. -/
theorem share_meets (t : Texture) :
    (share p t).Meets (Stands p c i k entries n)
      (fun _ => Stands p c i k (Table.put entries t.id (some t.storage)) n)
      (Stands p c i k entries n) where
  ok {_ w _} ht h := by
    obtain ⟨rfl, rfl, rfl, hlastId⟩ := h
    cases ht
    refine ⟨rfl, rfl, congrArg Device.exports (Table.put_same ..), ?_⟩
    show n ≤ (Table.put w.devices (w.workers p).device _ (w.workers p).device).lastId
    rw [Table.put_same]
    exact hlastId
  error ht _ := by cases ht

/-- A view has a number that the device of its domain had not given out before. -/
theorem openShare_meets (shared : Nat) (size : Extent) :
    (openShare c shared size).Meets (Stands p c i k entries n) (Viewed p c i k entries n)
      (Stands p c i k entries n) where
  ok {v w w'} hv h := by
    refine ⟨h.quiet ((Discreet.openShare c shared size).ok hv), fun hk => ?_⟩
    obtain ⟨storage, hadd⟩ := addTexture_of_openShare hv
    obtain ⟨hnumber, hlast⟩ := addTexture_number hadd
    rw [show (w.workers c).device = i from h.consumer.trans hk] at hnumber hlast
    exact ⟨Nat.lt_of_le_of_lt h.lastId (hnumber ▸ Nat.lt_succ_self _), hlast⟩
  error hv h := h.quiet ((Discreet.openShare c shared size).error hv)

/-- The producer strikes out a texture. -/
theorem freeTexture (h : Stands p c i k entries n w) (t : Texture) :
    Stands p c i k (Table.put entries t.id none) n (Attempt.leaves (freeTexture p t w)) := by
  have hdevice := ((Prompt.freeTexture p t).onward w).device
  obtain ⟨rfl, rfl, rfl, hlastId⟩ := h
  refine ⟨hdevice p, hdevice c, ?_, ?_⟩ <;> rw [devices_freeTexture, Table.put_same]
  exact hlastId

/-- Closing a view strikes nothing out when its number was not entered. -/
theorem freeView (h : Stands p c i k entries n w) {v : Texture}
    (hv : k = i → entries v.id = none) :
    Stands p c i k entries n (Attempt.leaves (Soft.freeTexture c v w)) := by
  have hdevice := ((Prompt.freeTexture c v).onward w).device
  obtain ⟨rfl, rfl, rfl, hlastId⟩ := h
  by_cases hk : (w.workers c).device = (w.workers p).device
  · refine ⟨hdevice p, hdevice c, ?_, ?_⟩ <;> rw [devices_freeTexture, hk, Table.put_same]
    · exact Table.put_of_eq (hv hk)
    · exact hlastId
  · refine ⟨hdevice p, hdevice c, ?_, ?_⟩ <;>
      rw [devices_freeTexture, Table.put_other _ (Ne.symm hk)]
    exact hlastId

end Stands

theorem Viewed.quiet {entries : Nat → Option Nat} {v : Texture} (h : Viewed p c i k entries n v w)
    (hw : w.Quiet w') : Viewed p c i k entries n v w' where
  toStands := h.toStands.quiet hw
  view hk := ⟨(h.view hk).1, Nat.le_trans (h.view hk).2 (hw.lastId i)⟩

namespace Watched
variable {m : Creations} {entries : Nat → Option Nat}

/-- A part is disposed of by the call that destroys it. -/
theorem world_dispose (h : Handle) (part : Part) (destroy : Attempt World Unit) (x : Watched) :
    (Surface.dispose (m.backend p c) h part (call destroy) x).world =
      Attempt.leaves (destroy x.yield.world) := by
  simp only [Surface.dispose, call]
  cases destroy x.yield.world <;> rfl

/-- Destroying a texture of the producer strikes it out. -/
theorem stands_disposeTexture {x : Watched} (hx : Stands p c i k entries n x.world) (h : Handle)
    (t : Texture) : Stands p c i k (Table.put entries t.id none) n
      (Surface.disposeTexture (m.backend p c) h t x).world := by
  have hworld := world_dispose (m := m) (p := p) (c := c) h .producerTexture (freeTexture p t) x
  have hfreed := (hx.quiet (quiet_yield x)).freeTexture t
  rwa [← hworld] at hfreed

/-- Closing a view with a number that was not entered strikes nothing out. -/
theorem stands_disposeView {x : Watched} (hx : Stands p c i k entries n x.world) (h : Handle)
    {v : Texture} (hv : k = i → entries v.id = none) :
    Stands p c i k entries n (Surface.disposeView (m.backend p c) h v x).world := by
  have hworld := world_dispose (m := m) (p := p) (c := c) h .consumerTexture (freeTexture c v) x
  have hclosed := (hx.quiet (quiet_yield x)).freeView hv
  rwa [← hworld] at hclosed

/-- What was entered under a new number is struck out again. -/
theorem stands_takeBack (hnew : ∀ j, n < j → entries j = none) {x : Watched} {t : Texture}
    (h : Handle) (hx : n < t.id ∧ ∃ o, Stands p c i k (Table.put entries t.id o) n x.world) :
    Stands p c i k entries n (Surface.disposeTexture (m.backend p c) h t x).world := by
  obtain ⟨hlt, o, hx⟩ := hx
  have hfreed := stands_disposeTexture (m := m) hx h t
  rwa [Table.put_put, Table.put_of_eq (hnew _ hlt)] at hfreed

/-- The number of a new view was not entered. -/
theorem stands_closeView (hnew : ∀ j, n < j → entries j = none) {x : Watched} {v : Texture}
    (h : Handle) (hx : Viewed p c i k entries n v x.world) :
    Stands p c i k entries n (Surface.disposeView (m.backend p c) h v x).world :=
  stands_disposeView hx.toStands h fun hk => hnew _ (hx.view hk).1

theorem quiet_dispose (h : Handle) (part : Part) {destroy : Attempt World Unit}
    (hdestroy : Discreet destroy) (x : Watched) :
    x.world.Quiet (Surface.dispose (m.backend p c) h part (call destroy) x).world := by
  rw [world_dispose]
  exact (quiet_yield x).trans (hdestroy x.yield.world)

/-- Neither staging resources nor markers are in the register. -/
theorem quiet_disposeStaging (h : Handle) (t : Texture) (x : Watched) :
    x.world.Quiet (Surface.disposeStaging (m.backend p c) h t x).world :=
  quiet_dispose h .producerStaging (.countDestroyed p) x

theorem quiet_disposeMarker (h : Handle) (k : Marker) (x : Watched) :
    x.world.Quiet (Surface.disposeMarker (m.backend p c) h k x).world :=
  quiet_dispose h .marker (.countDestroyed p) x

theorem quiet_disposeViewStaging (h : Handle) (v : Texture) (x : Watched) :
    x.world.Quiet (Surface.disposeViewStaging (m.backend p c) h v x).world :=
  quiet_dispose h .consumerStaging (.countDestroyed c) x

/-- What may also fail, and has nothing to do with share handles. -/
theorem Falters.discreet {act : Attempt Watched α} {act' : Attempt World α} (h : Falters act act')
    (hact : Discreet act') {J : World → Prop} (hquiet : ∀ {w w'}, w.Quiet w' → J w → J w') :
    act.Meets (fun x => J x.world) (fun _ x => J x.world) (fun x => J x.world) :=
  h.meets hquiet (Attempt.meets_of_outcome fun w hw => by
    rw [Attempt.outcome_eq]
    exact hquiet (hact w) hw)

/-- A resource that has nothing to do with share handles is made, and destroyed when the rest
fails. -/
theorem Falters.holding {β : Type} {make : Attempt Watched α} {make' : Attempt World α}
    (h : Falters make make') (hmake : Discreet make') {J : World → Prop}
    (hquiet : ∀ {w w'}, w.Quiet w' → J w → J w') {undo : α → Watched → Watched}
    (hundo : ∀ a (x : Watched), x.world.Quiet (undo a x).world) {rest : α → Attempt Watched β}
    {post : β → Watched → Prop}
    (hrest : ∀ a, (rest a).Meets (fun x => J x.world) post (fun x => J x.world)) :
    (Surface.holding make undo rest).Meets (fun x => J x.world) post (fun x => J x.world) :=
  Surface.holding_meets (h.discreet hmake hquiet) (fun a x => hquiet (hundo a x)) hrest

/-- What is known of a surface that was built. -/
structure Enlisted (p c i k : Nat) (entries : Nat → Option Nat) (n : Nat)
    (s : Surface Texture Marker Texture) (w : World) : Prop where
  new : n < s.texture.id
  viewed : Viewed p c i k (Table.put entries s.texture.id (some s.texture.storage)) s.texture.id
    s.view w

/-- **A build enters its texture, or leaves the register as it was.** -/
theorem build_meets (hm : m.Faltering p c) (hnew : ∀ j, n < j → entries j = none) (h : Handle)
    (size stagingSize : Extent) : (Surface.build (m.backend p c) h size stagingSize).Meets
      (fun x => Stands p c i k entries n x.world)
      (fun s x => Enlisted p c i k entries n s x.world)
      (fun x => Stands p c i k entries n x.world) := by
  refine Surface.holding_meets
    ((hm.newTexture size).meets (fun hw hx => hx.quiet hw) (Stands.newTexture_meets size))
    (fun t x => stands_takeBack hnew h) fun t => Attempt.meets_and fun hlt => ?_
  have hstill (x : Watched) (hx : Stands p c i k entries t.id x.world) :
      n < t.id ∧ ∃ o, Stands p c i k (Table.put entries t.id o) n x.world := by
    refine ⟨hlt, none, ?_⟩
    rw [Table.put_of_eq (hnew _ hlt)]
    exact hx.mono (Nat.le_of_lt hlt)
  have hshare := (hm.share t).meets (J := Stands p c i k entries t.id)
    (fun hw hx => hx.quiet hw) (Stands.share_meets t)
  refine Attempt.meets_bind (hshare.imp (fun _ hx => hx) (fun _ _ hx => hx) hstill)
    fun shared => ?_
  -- from here on the texture is in the register, and no later number is
  have hentered (x : Watched)
      (hx : Stands p c i k (Table.put entries t.id (some t.storage)) t.id x.world) :
      n < t.id ∧ ∃ o, Stands p c i k (Table.put entries t.id o) n x.world :=
    ⟨hlt, _, hx.mono (Nat.le_of_lt hlt)⟩
  have hnew' (j : Nat) (hj : t.id < j) :
      Table.put entries t.id (some t.storage) j = none := by
    rw [Table.put_other _ (Nat.ne_of_gt hj)]
    exact hnew j (Nat.lt_trans hlt hj)
  refine Attempt.Meets.imp ?_ (fun _ hx => hx) (fun _ _ hx => hx) hentered
  refine (hm.newStaging stagingSize).holding (.newTexture p stagingSize)
    (fun hw hx => Stands.quiet hx hw) (quiet_disposeStaging h) fun staging => ?_
  refine hm.newMarker.holding (.newMarker p) (fun hw hx => Stands.quiet hx hw)
    (quiet_disposeMarker h) fun marker => ?_
  refine Surface.holding_meets
    ((hm.openShare shared size).meets (fun hw hx => hx.quiet hw)
      (Stands.openShare_meets shared size))
    (fun view x => stands_closeView hnew' h) fun view => ?_
  refine Attempt.meets_bind ((hm.newViewStaging stagingSize).discreet (.newTexture c stagingSize)
    fun hw hx => hx.quiet hw) fun _ => ?_
  exact Attempt.meets_pure fun x hx => ⟨hlt, hx⟩

/-! ### Tearing down -/

/-- Of all that is destroyed with a surface only its texture was in the register. -/
theorem stands_dismantle {x : Watched} (hx : Stands p c i k entries n x.world)
    (s : Surface Texture Marker Texture) (hview : k = i → entries s.view.id = none) :
    Stands p c i k (Table.put entries s.texture.id none) n
      (s.dismantle (m.backend p c) x).world := by
  refine stands_disposeTexture ?_ s.handle s.texture
  refine Stands.quiet ?_ (quiet_disposeStaging s.handle s.staging _)
  refine Stands.quiet ?_ (quiet_disposeMarker s.handle s.marker _)
  refine stands_disposeView ?_ s.handle hview
  exact hx.quiet (quiet_disposeViewStaging s.handle s.viewStaging x)

/-- When the surfaces of all entries are gone, no entry is left. -/
theorem stands_dismantleAll (surfaces : List (Surface Texture Marker Texture)) {x : Watched}
    (hx : Stands p c i k entries n x.world)
    (hviews : k = i → ∀ s ∈ surfaces, entries s.view.id = none)
    (hall : ∀ j, (∃ s ∈ surfaces, s.texture.id = j) ∨ entries j = none) :
    Stands p c i k (fun _ => none) n
      (surfaces.foldl (fun x s => s.dismantle (m.backend p c) x) x).world := by
  induction surfaces generalizing entries x with
  | nil =>
    have hnone : entries = fun _ => none :=
      funext fun j => (hall j).resolve_left fun ⟨_, hs, _⟩ => by cases hs
    exact hnone ▸ hx
  | cons s rest ih =>
    refine ih (stands_dismantle hx s fun hk => hviews hk s (List.mem_cons_self ..))
      (fun hk t ht => ?_) fun j => ?_
    · rw [Table.put]
      split
      · rfl
      · exact hviews hk t (List.mem_cons_of_mem _ ht)
    · rw [Table.put]
      split
      · exact .inr rfl
      · rename_i hj
        refine (hall j).imp_left fun ⟨t, ht, hnumber⟩ => ?_
        rcases List.mem_cons.1 ht with rfl | ht
        · exact absurd hnumber.symm hj
        · exact ⟨t, ht, hnumber⟩

end Watched

/-! ### Between two operations -/

/-- The register of the producer's device has the textures of these surfaces and no others, and
the views have numbers of their own. -/
structure Registered (p c : Nat) (fixtures : List (Fixture Texture Texture)) (w : World) :
    Prop where
  listed : ∀ shared storage, Exported p shared storage w ↔
    ∃ f ∈ fixtures, f.texture.id = shared ∧ f.texture.storage = storage
  numbered : ∀ f ∈ fixtures, f.texture.id ≤ (w.devices (w.workers p).device).lastId
  views : (w.workers c).device = (w.workers p).device → ∀ f ∈ fixtures,
    f.view.id ≤ (w.devices (w.workers p).device).lastId ∧ ∀ g ∈ fixtures, f.view.id ≠ g.texture.id

theorem Stands.here (p c : Nat) (w : World) :
    Stands p c (w.workers p).device (w.workers c).device
      (w.devices (w.workers p).device).exports (w.devices (w.workers p).device).lastId w :=
  ⟨rfl, rfl, rfl, Nat.le_refl _⟩

/-- What stands as it did exports what it did. -/
theorem Stands.exported (h : Stands p c (w.workers p).device k
    (w.devices (w.workers p).device).exports n w') (shared storage : Nat) :
    Exported p shared storage w' ↔ Exported p shared storage w := by
  rw [Exported, h.producer, h.exports]
  exact .rfl

namespace Registered
variable {fixtures fixtures' : List (Fixture Texture Texture)}

/-- Where the register stands as it did, it has the same textures. -/
theorem stands (h : Registered p c fixtures w)
    (hw : Stands p c (w.workers p).device (w.workers c).device
      (w.devices (w.workers p).device).exports (w.devices (w.workers p).device).lastId w') :
    Registered p c fixtures w' := by
  have hlisted := hw.exported
  obtain ⟨hp, hc, -, hlastId⟩ := hw
  refine ⟨fun shared storage => ?_, fun f hf => ?_, fun hdevice f hf => ?_⟩
  · rw [hlisted, h.listed]
  · rw [hp]
    exact Nat.le_trans (h.numbered f hf) hlastId
  · rw [hp]
    rw [hp, hc] at hdevice
    exact (h.views hdevice f hf).imp_left fun hview => Nat.le_trans hview hlastId

theorem quiet (h : Registered p c fixtures w) (hw : w.Quiet w') : Registered p c fixtures w' :=
  h.stands ((Stands.here p c w).quiet hw)

theorem same (h : Registered p c fixtures w) (hfixtures : fixtures' = fixtures)
    (hw : w.Quiet w') : Registered p c fixtures' w' := hfixtures ▸ h.quiet hw

theorem perm (h : Registered p c fixtures w) (hperm : fixtures'.Perm fixtures) :
    Registered p c fixtures' w := by
  have hmem {f : Fixture Texture Texture} : f ∈ fixtures' ↔ f ∈ fixtures := hperm.mem_iff
  refine ⟨fun shared storage => ?_, fun f hf => h.numbered f (hmem.1 hf), fun hdevice f hf => ?_⟩
  · simp only [h.listed, hmem]
  · obtain ⟨hview, hother⟩ := h.views hdevice f (hmem.1 hf)
    exact ⟨hview, fun g hg => hother g (hmem.1 hg)⟩

/-- What is not the number of a texture is not in the register. -/
theorem unlisted (h : Registered p c fixtures w) {j : Nat}
    (hj : ∀ f ∈ fixtures, f.texture.id ≠ j) :
    (w.devices (w.workers p).device).exports j = none := by
  cases hentry : (w.devices (w.workers p).device).exports j with
  | none => rfl
  | some storage =>
    obtain ⟨f, hf, hnumber, -⟩ := (h.listed j storage).1 hentry
    exact absurd hnumber (hj f hf)

/-- A number that was not given out is not in the register. -/
theorem fresh (h : Registered p c fixtures w) {j : Nat}
    (hj : (w.devices (w.workers p).device).lastId < j) :
    (w.devices (w.workers p).device).exports j = none :=
  h.unlisted fun f hf => Nat.ne_of_lt (Nat.lt_of_le_of_lt (h.numbered f hf) hj)

/-- A view is not in the register. -/
theorem view (h : Registered p c fixtures w) {f : Fixture Texture Texture} (hf : f ∈ fixtures)
    (hdevice : (w.workers c).device = (w.workers p).device) :
    (w.devices (w.workers p).device).exports f.view.id = none :=
  h.unlisted fun g hg => ((h.views hdevice f hf).2 g hg).symm

/-- A surface that was built is in the register behind all others. -/
theorem enlisted (h : Registered p c fixtures w) {s : Surface Texture Marker Texture}
    (hs : Watched.Enlisted p c (w.workers p).device (w.workers c).device
      (w.devices (w.workers p).device).exports (w.devices (w.workers p).device).lastId s w') :
    Registered p c (s.fixture :: fixtures) w' := by
  obtain ⟨hnew, ⟨hp, hc, hexports, hlastId⟩, hview⟩ := hs
  refine ⟨fun shared storage => ?_, fun f hf => ?_, fun hdevice f hf => ?_⟩
  · simp only [Exported, hp, hexports, List.exists_mem_cons_iff, ← h.listed]
    by_cases hshared : shared = s.texture.id
    · have hfree : ¬Exported p shared storage w := fun hexported => by
        rw [Exported, h.fresh (hshared ▸ hnew)] at hexported
        cases hexported
      rw [hshared, Table.put_same, Option.some_inj]
      exact ⟨fun hstorage => .inl ⟨rfl, hstorage⟩, fun h => (h.resolve_right (hshared ▸ hfree)).2⟩
    · rw [Table.put_other _ hshared]
      exact ⟨.inr, fun h => h.resolve_left fun hs => hshared hs.1.symm⟩
  · rw [hp]
    rcases List.mem_cons.1 hf with rfl | hf
    · exact hlastId
    · exact Nat.le_trans (h.numbered f hf) (Nat.le_of_lt (Nat.lt_of_lt_of_le hnew hlastId))
  · rw [hp]
    rw [hp, hc] at hdevice
    obtain ⟨hlt, hle⟩ := hview hdevice
    have hnumber : (w.devices (w.workers p).device).lastId < s.texture.id := hnew
    rcases List.mem_cons.1 hf with rfl | hf
    · refine ⟨hle, fun g hg => ?_⟩
      rcases List.mem_cons.1 hg with rfl | hg
      · exact Nat.ne_of_gt hlt
      · exact Nat.ne_of_gt (Nat.lt_of_le_of_lt (h.numbered g hg) (Nat.lt_trans hnumber hlt))
    · obtain ⟨hold, hother⟩ := h.views hdevice f hf
      refine ⟨Nat.le_trans hold (Nat.le_of_lt (Nat.lt_of_lt_of_le hnumber hlastId)), fun g hg => ?_⟩
      rcases List.mem_cons.1 hg with rfl | hg
      · exact Nat.ne_of_lt (Nat.lt_of_le_of_lt hold hnumber)
      · exact hother g hg

/-- Tearing down takes all surfaces with it, and so all entries. -/
theorem dismantled {m : Watched.Creations} {x : Watched}
    {surfaces : List (Surface Texture Marker Texture)}
    (h : Registered p c (surfaces.map (·.fixture)) x.world) :
    Registered p c [] (surfaces.foldl (fun x s => s.dismantle (m.backend p c) x) x).world := by
  have hmem {s : Surface Texture Marker Texture} (hs : s ∈ surfaces) :
      s.fixture ∈ surfaces.map (·.fixture) := List.mem_map_of_mem hs
  have hgone := Watched.stands_dismantleAll (m := m) surfaces (Stands.here p c x.world)
    (fun hdevice s hs => h.view (hmem hs) hdevice) fun j => by
      refine or_iff_not_imp_left.2 fun hnone => h.unlisted fun f hf hnumber => hnone ?_
      obtain ⟨s, hs, rfl⟩ := List.mem_map.1 hf
      exact ⟨s, hs, hnumber⟩
  refine ⟨fun shared storage => ?_, List.forall_mem_nil _, fun _ => List.forall_mem_nil _⟩
  rw [Exported, hgone.producer, hgone.exports]
  constructor
  · intro h
    cases h
  · rintro ⟨f, hf, -⟩
    cases hf

/-! ### Every turn -/

variable {m : Watched.Creations} {pool : Pool Texture Marker Texture} {x : Watched}

theorem declined (h : Registered p c pool.fixtures x.world)
    {o : Option (Surface Texture Marker Texture)} {pool₁ : Pool Texture Marker Texture}
    {x₁ : Watched} (hd : Pool.Declined (m.backend p c) pool x o pool₁ x₁) :
    Registered p c pool₁.fixtures x₁.world := by
  have hquiet : x.world.Quiet x₁.world :=
    hd.polled (J := fun x₁ => x.world.Quiet x₁.world) (fun _ _ _ hx => hx)
      (fun marker => Watched.quiet_call (.poll p marker) x.world) (.refl _)
  exact h.same hd.fixtures hquiet

theorem acquiring (hm : m.Faltering p c) (hinv : pool.Inv)
    (h : Registered p c pool.fixtures x.world)
    {r : EStateM.Result Fault (Pool Texture Marker Texture × Watched) Handle}
    (ha : Pool.Acquiring (m.backend p c) pool x r) :
    Registered p c (Attempt.leaves r).1.fixtures (Attempt.leaves r).2.world := by
  cases ha with
  | closed => exact h
  | again hp hc => exact h.same (Pool.fixtures_handOut hc rfl) (.refl _)
  | ready hp hc hr ha hpoll =>
    exact h.same (Pool.fixtures_handOut hc rfl)
      ((Watched.quiet_call (.poll p _) _).ok hpoll (.refl _))
  | @grew o s pool₁ x₁ x₂ hp hd hroom hb =>
    have h₁ := h.declined hd
    have hs := (Watched.build_meets hm (fun _ => h₁.fresh) _ _ _).ok hb (Stands.here p c x₁.world)
    exact (h₁.enlisted hs).perm
      (Pool.fixtures_insert (hinv.declined hd).sound { s with phase := .writing })
  | growthFailed hp hd hroom hb =>
    have h₁ := h.declined hd
    have hs := (Watched.build_meets hm (fun _ => h₁.fresh) _ _ _).error hb (Stands.here p c _)
    exact h₁.stands hs
  | @stalled s pool₁ x₁ x₂ hp hd hfull hw =>
    have hcurrent : pool₁.ring.current? = some s := by rw [hd.ring.1, hd.current]
    exact (h.declined hd).same (Pool.fixtures_handOut hcurrent rfl)
      ((Watched.quiet_drain p _ _ _ _).ok hw (.refl _))
  | stallFailed hp hd hfull hw =>
    exact (h.declined hd).quiet ((Watched.quiet_drain p _ _ _ _).error hw (.refl _))

theorem releasing (h : Registered p c pool.fixtures x.world) {k : Handle}
    {r : EStateM.Result Fault (Pool Texture Marker Texture × Watched) Unit}
    (hr : Pool.Releasing (m.backend p c) k pool x r) :
    Registered p c (Attempt.leaves r).1.fixtures (Attempt.leaves r).2.world := by
  have hquiet : x.world.Quiet (Attempt.leaves r).2.world :=
    hr.world (J := fun x₁ => x.world.Quiet x₁.world) (fun _ _ _ hx => hx)
      (Attempt.keeps_inPlace fun marker => Watched.quiet_call (.record p marker) x.world) (.refl _)
  exact h.same hr.fixtures hquiet

theorem awaiting (h : Registered p c pool.fixtures x.world) {k : Handle}
    {r : EStateM.Result Fault (Pool Texture Marker Texture × Watched) Unit}
    (hr : Pool.Awaiting (m.backend p c) k pool x r) :
    Registered p c (Attempt.leaves r).1.fixtures (Attempt.leaves r).2.world := by
  refine h.same (congrArg Pool.fixtures hr.pool) ?_
  exact hr.world (J := fun x₁ => x.world.Quiet x₁.world) (fun _ _ _ hx => hx)
    (fun v s region => Watched.quiet_drain c v s region x.world) (.refl _)

end Registered

/-- The pool is in order, and the register has its textures. -/
structure Listed (p c : Nat) (x : Pool Texture Marker Texture × Watched) : Prop where
  inv : x.1.Inv
  registered : Registered p c x.1.fixtures x.2.world

/-- The textures of the surfaces in the ring can be looked up on the producer's device, and no
others. -/
structure Agrees (p c : Nat) (x : Pool Texture Marker Texture × Watched) : Prop where
  listed : ∀ shared storage, Exported p shared storage x.2.world ↔
    ∃ s ∈ x.1.ring.slots, s.texture.id = shared ∧ s.texture.storage = storage
  /-- Destroying a view of a surface removes none. -/
  views : ∀ s ∈ x.1.ring.slots, ∀ shared storage,
    Exported p shared storage (Attempt.leaves (freeTexture c s.view x.2.world)) ↔
      Exported p shared storage x.2.world
  /-- Nor does destroying a staging resource. -/
  stagings : ∀ d t shared storage,
    Exported p shared storage (Attempt.leaves (freeStaging d t x.2.world)) ↔
      Exported p shared storage x.2.world
  /-- Behind a pool that was torn down no domain of the device opens anything. -/
  emptied : x.1.closed = true → ∀ d shared size,
    (x.2.world.workers d).device = (x.2.world.workers p).device →
      openShare d shared size x.2.world =
        .error (Refusal.unknownShare shared).fault x.2.world

namespace Listed
variable {x : Pool Texture Marker Texture × Watched} {m : Watched.Creations}

theorem unmoved (p c : Nat) : Pool.Unmoved Watched.Undisturbed (Listed p c) :=
  fun _ _ _ hmay h => ⟨h.inv, h.registered.quiet hmay.quiet⟩

theorem turn (hm : m.Faltering p c) (x : Pool Texture Marker Texture × Watched) (op : Op)
    (h : Listed p c x) : Listed p c (Pool.turn (m.backend p c) x op).after := by
  refine ⟨Pool.inv_turn h.inv op, ?_⟩
  cases op with
  | acquire =>
    rw [Pool.turn_acquire]
    exact h.registered.acquiring hm h.inv (Pool.acquiring _ x.1 x.2)
  | release k =>
    rw [Pool.turn_release]
    exact h.registered.releasing (Pool.releasing _ k x.1 x.2)
  | awaitConsumer k =>
    rw [Pool.turn_awaitConsumer]
    exact h.registered.awaiting (Pool.awaiting _ k x.1 x.2)
  | close =>
    rw [Pool.turn_close]
    simp only [Pool.close]
    split
    · exact h.registered
    · exact h.registered.dismantled

/-- A pool that was made just now has no textures. -/
theorem start {config : Pool.Config} {pool : Pool Texture Marker Texture}
    (hmake : Pool.make config = .ok pool)
    (hempty : ∀ shared storage, ¬Exported p shared storage w) (schedule : List (List Event)) :
    Listed p c (pool, .start w schedule) := by
  refine ⟨Pool.inv_make hmake, ?_⟩
  have hfixtures : pool.fixtures = [] := by
    rw [Pool.fixtures, Pool.make_ring hmake]
    rfl
  rw [hfixtures]
  refine ⟨fun shared storage => ?_, List.forall_mem_nil _, fun _ => List.forall_mem_nil _⟩
  constructor
  · exact fun h => absurd h (hempty shared storage)
  · rintro ⟨f, hf, -⟩
    cases hf

/-- What a register that has the textures of the pool looks like from outside. -/
theorem agrees (h : Listed p c x) : Agrees p c x where
  listed shared storage := by
    simp only [h.registered.listed, Pool.fixtures, List.mem_map, exists_exists_and_eq_and]
    rfl
  views s hs :=
    ((Stands.here p c x.2.world).freeView (v := s.view) fun hdevice =>
      h.registered.view (Pool.fixture_mem hs) hdevice).exported
  stagings d _ := ((Stands.here p c x.2.world).quiet (Discreet.countDestroyed d x.2.world)).exported
  emptied hclosed d shared size hdevice := by
    have hnone : (x.2.world.devices (x.2.world.workers d).device).exports shared = none := by
      rw [hdevice]
      refine h.registered.unlisted fun f hf => ?_
      rw [Pool.fixtures, h.inv.emptied hclosed] at hf
      cases hf
    simp only [openShare, hnone]
    rfl

end Listed

/-- **The register of share handles matches the ring.** Whatever devices the domains of a pool are
of, whichever creations fail and whenever workers get on or die: before and after every request,
and for as long as nobody but the pool shares or destroys textures, exactly the textures of the
surfaces in the ring can be looked up on the producer's device. A request that fails leaves no
handle behind and takes none away, and nothing of a pool that was torn down can be opened again. -/
theorem registry_matches_ring {config : Pool.Config} {pool : Pool Texture Marker Texture}
    (hmake : Pool.make config = .ok pool) {m : Watched.Creations} (hm : m.Faltering p c)
    (hempty : ∀ shared storage, ¬Exported p shared storage w) {schedule : List (List Event)}
    {history : List (Turn Watched Texture Marker Texture)}
    (hcourse : Course (m.backend p c) Watched.Undisturbed (pool, .start w schedule) history)
    {t : Turn Watched Texture Marker Texture} (ht : t ∈ history) :
    Agrees p c t.before ∧
      (∀ x, Watched.Undisturbed t.after.2 x → Agrees p c (t.after.1, x)) ∧
      ∀ e, t.answer = .error e → ∀ shared storage,
        (Exported p shared storage t.after.2.world ↔
          Exported p shared storage t.before.2.world) := by
  obtain ⟨hturn, hbefore⟩ := hcourse.before (Listed.unmoved p c) (Listed.turn hm)
    (Listed.start hmake hempty schedule) ht
  have hafter : Listed p c t.after := by
    rw [hturn]
    exact Listed.turn hm t.before t.op hbefore
  refine ⟨hbefore.agrees, fun x hx => ?_, fun e he shared storage => ?_⟩
  · exact (Listed.unmoved p c t.after.1 t.after.2 x hx hafter).agrees
  · rw [hturn] at he
    have hfixtures := Pool.fixtures_of_error he
    rw [← hturn] at hfixtures
    rw [hafter.registered.listed, hbefore.registered.listed, hfixtures]

namespace Watched.Creations

/-- Views get no staging resource any more when there are four storages. -/
def scarce (p c : Nat) : Creations :=
  { plain p c with
    newViewStaging := fun size x =>
      if 3 < x.world.storageCount then .error (.allocation "out of memory") x
      else call (Soft.newTexture c size) x }

theorem faltering_scarce (p c : Nat) : (scarce p c).Faltering p c :=
  { faltering_plain p c with
    newViewStaging := fun size x => by
      simp only [scarce]
      split
      · exact .inr ⟨_, _, rfl, .refl⟩
      · exact .inl rfl }

end Watched.Creations

/-- The second surface is shared and opened, but it cannot be finished. The producer dies
meanwhile. -/
theorem registry_matches_ring_scarce :
    Pool.make ⟨⟨1, 1⟩, 2⟩ = .ok Presentation.smallPool ∧
    (Watched.Creations.scarce 0 1).Faltering 0 1 ∧
    (∀ shared storage, ¬Exported 0 shared storage Presentation.twoWorkers) ∧
    ∃ past t u,
      Pool.turns ((Watched.Creations.scarce 0 1).backend 0 1)
        (Presentation.smallPool,
          .start Presentation.twoWorkers (List.replicate 12 [] ++ [[.kill 0]]))
        [.acquire, .release ⟨1⟩, .acquire, .close] = past ++ [t, u] ∧
      t.answer = .error (.allocation "out of memory") ∧
      (t.before.2.world.workers 0).health = .live ∧ (t.after.2.world.workers 0).health = .dead ∧
      (t.after.2.world.devices 0).lastId = (t.before.2.world.devices 0).lastId + 3 ∧
      Exported 0 1 0 t.after.2.world ∧
      openShare 1 1 ⟨1, 1⟩ u.after.2.world =
        .error (Refusal.unknownShare 1).fault u.after.2.world := by
  have hmake : Pool.make ⟨⟨1, 1⟩, 2⟩ = .ok Presentation.smallPool := rfl
  have hm := Watched.Creations.faltering_scarce 0 1
  have hempty (shared storage : Nat) : ¬Exported 0 shared storage Presentation.twoWorkers :=
    fun h => by cases h
  obtain ⟨past, t, u, hturns, hfail, hlive, hdead, hnumbers, hshared, hclosed, hdevice⟩ :
      ∃ past t u,
        Pool.turns ((Watched.Creations.scarce 0 1).backend 0 1)
          (Presentation.smallPool,
            .start Presentation.twoWorkers (List.replicate 12 [] ++ [[.kill 0]]))
          [.acquire, .release ⟨1⟩, .acquire, .close] = past ++ [t, u] ∧
        t.answer = .error (.allocation "out of memory") ∧
        (t.before.2.world.workers 0).health = .live ∧ (t.after.2.world.workers 0).health = .dead ∧
        (t.after.2.world.devices 0).lastId = (t.before.2.world.devices 0).lastId + 3 ∧
        Exported 0 1 0 t.before.2.world ∧ u.after.1.closed = true ∧
        (u.after.2.world.workers 1).device = (u.after.2.world.workers 0).device := by
    refine ⟨[_, _], _, _, rfl, rfl, rfl, rfl, rfl, ?_, ?_, ?_⟩
    · exact rfl
    · decide +kernel
    · decide +kernel
  have hcourse : Course ((Watched.Creations.scarce 0 1).backend 0 1) Watched.Undisturbed _
      (past ++ [t, u]) :=
    hturns ▸ (Pool.course_turns _ _).mono fun x x' h => by
      subst h
      exact .refl
  obtain ⟨-, -, hfailed⟩ := registry_matches_ring hmake hm hempty hcourse (t := t) (by simp)
  obtain ⟨-, hafter, -⟩ := registry_matches_ring hmake hm hempty hcourse (t := u) (by simp)
  exact ⟨hmake, hm, hempty, past, t, u, hturns, hfail, hlive, hdead, hnumbers,
    (hfailed _ hfail 1 0).2 hshared, (hafter u.after.2 .refl).emptied hclosed 1 1 ⟨1, 1⟩ hdevice⟩

end SurfaceRelay.Soft
