import SurfaceRelay.Proofs.Soft.Aliasing

/-! Live workers grant what a pool asks.

A software domain can refuse a request in five ways, and a pool gives it no reason to. A texture
that is opened was exported a moment before and has the bytes that it was made with; a copy takes
a clamped region from one storage to another; and markers are polled in vain at most
(`build_granted`, `drain_fails`). What is left is a worker that died. So over two workers that are
alive an acquire succeeds and a wait fails only for a surface that the pool does not have
(`granted_turn`). -/
namespace SurfaceRelay

/-- What a caller can count on when nothing goes wrong: until the pool is torn down an acquire
succeeds, and a wait fails only for a handle that the pool does not have. -/
structure Pool.Turn.Granted {W T K V : Type} (t : Turn W T K V) : Prop where
  acquire : t.op = .acquire → t.before.1.closed = false → ∃ h, t.answer = .ok (some h)
  wait : ∀ h e, t.op = .awaitConsumer h → t.before.1.closed = false → t.answer = .error e →
    e = .staleHandle h ∧ h ∉ t.before.1.handles

namespace Pool.Turn.Granted
variable {W T K V : Type} {b : Backend W T K V} {x : Pool T K V × W}

theorem acquired (h : (turn b x .acquire).Granted) (hopen : x.1.closed = false) :
    ∃ k y, Pool.acquire b x = .ok k y := by
  obtain ⟨k, hanswer⟩ := h.acquire rfl hopen
  exact ⟨k, _, (acquire_of_answer b hanswer).2⟩

/-- Only a pool that was torn down refuses to hand out. -/
theorem closed (h : (turn b x .acquire).Granted) {e : Fault} {y : Pool T K V × W}
    (hrefused : Pool.acquire b x = .error e y) : x.1.closed = true := by
  cases hclosed : x.1.closed with
  | true => rfl
  | false =>
    obtain ⟨k, y, hok⟩ := h.acquired hclosed
    rw [hrefused] at hok
    cases hok

theorem awaited {k : Handle} (h : (turn b x (.awaitConsumer k)).Granted)
    (hopen : x.1.closed = false) (hk : k ∈ x.1.handles) :
    ∃ y, Pool.awaitConsumer b k x = .ok () y := by
  have hwait := h.wait k
  rw [turn_awaitConsumer] at hwait
  rcases hawait : Pool.awaitConsumer b k x with ⟨_, y⟩ | ⟨e, y⟩
  · exact ⟨y, rfl⟩
  · rw [hawait] at hwait
    exact absurd hk (hwait e rfl hopen rfl).2

end Pool.Turn.Granted

namespace Soft
open Pool (Acquiring Releasing Awaiting Declined)
open Watched (call call_ok call_error onward_yield onward_backend)

variable {w w' : World} {x x' : Watched} {d p c i : Nat} {size stagingSize : Extent}
  {t s : Texture} {given : List Texture} {pool : Pool Texture Marker Texture} {α : Type}

/-! ### Building a surface -/

/-- Both workers are of one device, and storages keep their bytes. -/
structure Ready (p c : Nat) (w : World) : Prop where
  fits : w.Fits
  device : (w.workers p).device = (w.workers c).device

theorem Ready.onward (h : Ready p c w) (hw : w.Onward w') : Ready p c w' :=
  ⟨hw.fits h.fits, by rw [hw.device, hw.device, h.device]⟩

/-- Besides, there is a storage with the bytes of this extent. -/
structure Stocked (p c : Nat) (size : Extent) (i : Nat) (w : World) : Prop
    extends Ready p c w where
  below : i < w.storageCount
  bytes : (w.storages i).length = size.byteCount

theorem Stocked.onward (h : Stocked p c size i w) (hw : w.Onward w') : Stocked p c size i w' where
  toReady := h.toReady.onward hw
  below := Nat.lt_of_lt_of_le h.below hw.storageCount
  bytes := (hw.lengths h.fits i h.below).trans h.bytes

/-- Besides, the consumer's device exports the storage. -/
def OnOffer (p c : Nat) (size : Extent) (i shared : Nat) (w : World) : Prop :=
  Stocked p c size i w ∧ Exported c shared i w

/-- A call is granted when what it is asked in can only be left by what other workers do. -/
theorem call_granted {pre : World → Prop} (post : α → World → Prop) {act : Attempt World α}
    (hyield : ∀ x : Watched, pre x.world → pre x.yield.world)
    (hact : ∀ w, pre w → ∃ a w', act w = .ok a w' ∧ post a w') :
    (call act).Meets (fun x => pre x.world) (fun a x => post a x.world) fun _ => False := by
  refine Attempt.meets_of_result fun x hx => ?_
  obtain ⟨a, w', hok, hpost⟩ := hact x.yield.world (hyield x hx)
  simp only [call, hok]
  exact hpost

theorem ready_yield (x : Watched) (h : Ready p c x.world) : Ready p c x.yield.world :=
  h.onward (onward_yield x)

theorem stocked_yield (x : Watched) (h : Stocked p c size i x.world) :
    Stocked p c size i x.yield.world := h.onward (onward_yield x)

theorem onOffer_yield {shared : Nat} (x : Watched) (h : OnOffer p c size i shared x.world) :
    OnOffer p c size i shared x.yield.world :=
  ⟨stocked_yield x h.1, Watched.exported_yield h.2⟩

theorem newTexture_granted (d : Nat) (size : Extent) :
    (call (newTexture d size)).Meets (fun x => Ready p c x.world)
      (fun t x => Stocked p c size t.storage x.world) fun _ => False := by
  refine call_granted (fun t : Texture => Stocked p c size t.storage) ready_yield
    fun w h => ⟨_, _, rfl, h.onward ((Prompt.newTexture d size).onward w), Nat.lt_succ_self _, ?_⟩
  show (Table.put w.storages w.storageCount (.blank size) w.storageCount).length = _
  rw [Table.put_same]
  exact List.length_replicate

theorem share_granted (t : Texture) :
    (call (share p t)).Meets (fun x => Stocked p c size t.storage x.world)
      (fun shared x => OnOffer p c size t.storage shared x.world) fun _ => False := by
  refine call_granted (OnOffer p c size t.storage) stocked_yield fun w h => ?_
  have hstocked := h.onward ((Prompt.share p t).onward w)
  exact ⟨_, _, rfl, hstocked, (share_ok rfl).shared hstocked.device⟩

/-- What is made besides does not take the offer back. -/
theorem onOffer_kept {act : Attempt World α} (hprompt : Prompt given act) {shared : Nat}
    (hexported : act.Keeps (Exported c shared i)) (hok : ∀ w, ∃ a w', act w = .ok a w') :
    (call act).Meets (fun x => OnOffer p c size i shared x.world)
      (fun _ x => OnOffer p c size i shared x.world) fun _ => False := by
  refine call_granted (fun _ => OnOffer p c size i shared) onOffer_yield fun w h => ?_
  obtain ⟨a, w', hact⟩ := hok w
  have hmoved := hprompt.onward w
  rw [hact] at hmoved
  exact ⟨a, w', hact, h.1.onward hmoved, hexported.ok hact h.2⟩

/-- A texture that is on offer can be opened with its own extent. -/
theorem openShare_granted (shared : Nat) :
    (call (openShare c shared size)).Meets (fun x => OnOffer p c size i shared x.world)
      (fun _ x => Ready p c x.world) fun _ => False := by
  refine call_granted (fun _ => Ready p c) onOffer_yield fun w h => ?_
  obtain ⟨v, w', hopen, -⟩ := (openShare_iff h.2 size).1 h.1.bytes.symm
  have hmoved := (Prompt.openShare c shared size).onward w
  rw [hopen] at hmoved
  exact ⟨v, w', hopen, h.1.toReady.onward hmoved⟩

/-- **A surface can always be built.** -/
theorem build_granted (k : Handle) (size stagingSize : Extent) :
    (Surface.build (Watched.backend p c) k size stagingSize).Meets
      (fun x => Ready p c x.world) (fun _ _ => True) fun _ => False := by
  refine Surface.holding_meets (newTexture_granted p size) (fun _ _ => False.elim) fun texture => ?_
  refine Attempt.meets_bind (share_granted texture) fun shared => ?_
  refine Surface.holding_meets (onOffer_kept (.newTexture p stagingSize)
    (newTexture_exported p _) fun w => ⟨_, _, rfl⟩) (fun _ _ => False.elim) fun staging => ?_
  refine Surface.holding_meets (onOffer_kept (.newMarker p) (newMarker_exported p)
    fun w => ⟨_, _, rfl⟩) (fun _ _ => False.elim) fun marker => ?_
  refine Surface.holding_meets (openShare_granted shared) (fun _ _ => False.elim) fun view => ?_
  exact Attempt.meets_bind (newTexture_granted c stagingSize)
    fun _ => Attempt.meets_pure fun _ _ => trivial

/-! ### Commands -/

theorem accept_fails {cmd : Command} {e : Fault} (h : accept d cmd w = .error e w') :
    w'.Dead d := by
  rcases accept_cases d cmd w with ⟨haccept, -⟩ | ⟨haccept, hdead⟩ <;> rw [haccept] at h <;> cases h
  exact hdead

/-- A copy that nothing is wrong with: its region lies within both images, which are stored
apart. -/
structure Stageable (t s : Texture) (region : Extent) : Prop where
  source : t.size.covers region = true
  target : s.size.covers region = true
  apart : t.storage ≠ s.storage

/-- A live worker takes such a copy. -/
theorem stage_fails {region : Extent} {e : Fault} (hcopy : Stageable t s region)
    (h : stage d t s region w = .error e w') : w'.Dead d := by
  simp only [stage, hcopy.source, hcopy.target, if_neg hcopy.apart] at h
  exact accept_fails h

/-- A live worker takes any frame that has the bytes of the texture. -/
theorem write_fails {data : Pixels} {e : Fault} (hlength : data.length = t.size.byteCount)
    (h : write d t data w = .error e w') : w'.Dead d := by
  simp only [write, hlength, ne_eq, not_true, if_false] at h
  exact accept_fails h

/-- A live worker can record a marker. -/
theorem record_fails {m : Marker} {e : Fault} (h : record d m w = .error e w') : w'.Dead d := by
  simp only [record] at h
  split at h
  · cases h
  · rename_i haccept
    cases h
    exact accept_fails haccept

namespace Watched

/-- A map fails when the worker dies. -/
theorem blockOn_fails {e : Fault} (h : blockOn d x = .error e x') : x'.world.Dead d := by
  simp only [blockOn, bind, EStateM.bind] at h
  split at h
  · rename_i x₁ _
    simp only [finish] at h
    split at h
    · rename_i hdead
      cases h
      exact hdead
    · cases h
      show ((_ : World).die d).Dead d
      rw [World.Dead, World.workers_die, if_pos rfl]
    · split at h
      · rename_i hdead
        cases h
        exact hdead
      · cases h
  · rename_i halive
    cases h
    have hact := call_error halive
    generalize x'.world = w' at hact ⊢
    simp only [Concurrent.alive] at hact
    split at hact
    · rename_i hdead
      cases hact
      exact hdead
    · cases hact

theorem drain_fails {region : Extent} {e : Fault} (hcopy : Stageable t s region)
    (h : (domain d).drain t s region x = .error e x') : x'.world.Dead d := by
  simp only [Domain.drain, bind, EStateM.bind] at h
  split at h
  · exact blockOn_fails h
  · rename_i hstage
    cases h
    exact stage_fails hcopy (call_error hstage)

end Watched

/-! ### Requests -/

/-- A forced wait on a surface copies what it may, in either domain. -/
theorem Housed.stageable (h : Housed p c size (pool, x)) {s : Surface Texture Marker Texture}
    (hs : s ∈ pool.ring.slots) :
    Stageable s.texture s.staging pool.stagingSize ∧
      Stageable s.view s.viewStaging pool.stagingSize := by
  have hf := Pool.fixture_mem hs
  obtain ⟨hsame, htexture, hview, hstaging, hviewStaging⟩ := h.placed.formed _ hf
  obtain ⟨hapart, hviewApart⟩ := h.placed.staging_ne_texture hf hf
  simp only [Surface.fixture] at hsame htexture hview hstaging hviewStaging hapart hviewApart
  rw [Pool.stagingSize, h.extent]
  refine ⟨⟨?_, ?_, hapart.symm⟩, ⟨?_, ?_, hsame ▸ hviewApart.symm⟩⟩
  · rw [htexture]
    exact Extent.covers_clamp _ _
  · rw [hstaging]
    exact Extent.covers_self _
  · rw [hview]
    exact Extent.covers_clamp _ _
  · rw [hviewStaging]
    exact Extent.covers_self _

/-- Polling a marker never fails. -/
theorem declined_pool {o : Option (Surface Texture Marker Texture)} {pool₁ : Pool _ _ _}
    {x₁ : Watched} (hd : Declined (Watched.backend p c) pool x o pool₁ x₁) : pool₁ = pool := by
  cases hd with
  | vacant | unarmed | pending => rfl
  | @unknown s e x' hc hr ha hpoll =>
    have hpolled : poll p s.marker x.yield.world = .error e x'.world := call_error hpoll
    cases hpolled

theorem declined_onward {o : Option (Surface Texture Marker Texture)} {pool₁ : Pool _ _ _}
    {x₁ : Watched} (hd : Declined (Watched.backend p c) pool x o pool₁ x₁) :
    x.world.Onward x₁.world :=
  hd.world (fun n w _ => (onward_backend p c x.world).note n w)
    (onward_backend p c x.world).toKeepsAcquiring (.refl _)

/-- An acquire that fails before the pool was torn down has found the producer dead. -/
theorem acquire_fails (h : Housed p c size (pool, x)) (hfits : x.world.Fits) {e : Fault}
    {y : Pool Texture Marker Texture × Watched} (hopen : pool.closed = false)
    (ha : Acquiring (Watched.backend p c) pool x (.error e y)) : y.2.world.Dead p := by
  cases ha with
  | closed hp =>
    rw [hopen] at hp
    cases hp
  | growthFailed hp hd hroom hb =>
    have hready : Ready p c x.world := ⟨hfits, h.device⟩
    exact ((build_granted _ _ _).error hb (hready.onward (declined_onward hd))).elim
  | @stallFailed s e pool₁ x₁ x₂ hp hd hfull hw =>
    obtain rfl := declined_pool hd
    exact Watched.drain_fails (h.stageable (Ring.current?_mem hd.current)).1 hw

/-- A wait that fails before the pool was torn down was for a handle that the pool does not have,
or has found the consumer dead. -/
theorem wait_fails (h : Housed p c size (pool, x)) {k : Handle} {e : Fault}
    {y : Pool Texture Marker Texture × Watched} (hopen : pool.closed = false)
    (ha : Awaiting (Watched.backend p c) k pool x (.error e y)) :
    (e = .staleHandle k ∧ k ∉ pool.handles) ∨ y.2.world.Dead c := by
  cases ha with
  | closed hp =>
    rw [hopen] at hp
    cases hp
  | stale hp hf =>
    refine .inl ⟨rfl, fun hk => ?_⟩
    obtain ⟨s, hs, rfl⟩ := List.mem_map.1 hk
    rw [h.inv.find?_eq_some.2 ⟨hs, rfl⟩] at hf
    cases hf
  | failed hp hf hw =>
    have hs := (h.inv.find?_eq_some.1 hf).1
    exact .inr (Watched.drain_fails (h.stageable hs).2 hw)

/-- **Live workers grant every request.** -/
theorem granted_turn {x : Pool Texture Marker Texture × Watched} (h : Housed p c size x)
    (hfits : x.2.world.Fits) (op : Pool.Op)
    (hp : ¬(Pool.turn (Watched.backend p c) x op).after.2.world.Dead p)
    (hc : ¬(Pool.turn (Watched.backend p c) x op).after.2.world.Dead c) :
    (Pool.turn (Watched.backend p c) x op).Granted where
  acquire hop hopen := by
    obtain ⟨pool, x⟩ := x
    obtain rfl : op = .acquire := hop
    have ha := Pool.acquiring (Watched.backend p c) pool x
    rw [Pool.turn_acquire] at hp ⊢
    rcases hacquire : Pool.acquire (Watched.backend p c) (pool, x) with ⟨k, y⟩ | ⟨e, y⟩
    · exact ⟨k, rfl⟩
    · rw [hacquire] at ha hp
      exact absurd (acquire_fails h hfits hopen ha) hp
  wait k e hop hopen herror := by
    obtain ⟨pool, x⟩ := x
    obtain rfl : op = .awaitConsumer k := hop
    have ha := Pool.awaiting (Watched.backend p c) k pool x
    rw [Pool.turn_awaitConsumer] at hc herror
    rcases hwait : Pool.awaitConsumer (Watched.backend p c) k (pool, x) with ⟨_, y⟩ | ⟨e', y⟩
    · rw [hwait] at herror
      cases herror
    · rw [hwait] at ha hc herror
      cases herror
      exact (wait_fails h hopen ha).resolve_right hc

/-- A live producer polls and records every marker. -/
theorem markerFaults_turn (x : Pool Texture Marker Texture × Watched) (op : Pool.Op)
    (hp : ¬(Pool.turn (Watched.backend p c) x op).after.2.world.Dead p) :
    (Pool.turn (Watched.backend p c) x op).after.1.stats.markerFaults =
      x.1.stats.markerFaults := by
  obtain ⟨pool, x⟩ := x
  cases op with
  | acquire =>
    rw [Pool.turn_acquire]
    have ha := Pool.acquiring (Watched.backend p c) pool x
    generalize Pool.acquire (Watched.backend p c) (pool, x) = r at ha ⊢
    cases ha with
    | closed | again | ready => rfl
    | grew _ hd | growthFailed _ hd | stalled _ hd | stallFailed _ hd =>
      obtain rfl := declined_pool hd
      rfl
  | release k =>
    rw [Pool.turn_release] at hp ⊢
    have hr := Pool.releasing (Watched.backend p c) k pool x
    generalize Pool.release (Watched.backend p c) k (pool, x) = r at hr hp ⊢
    cases hr with
    | closed | stale | recorded => rfl
    | unrecorded _ _ _ _ hrec =>
      obtain ⟨hcall, -⟩ := Attempt.inPlace_error (f := fun m => Watched.call (record p m)) hrec
      exact absurd (record_fails (call_error hcall)) hp
  | awaitConsumer k =>
    rw [Pool.turn_awaitConsumer]
    exact congrArg (·.stats.markerFaults) (Pool.awaiting (Watched.backend p c) k pool x).pool
  | close =>
    rw [Pool.turn_close]
    simp only [Pool.close]
    split <;> rfl

end Soft
end SurfaceRelay
