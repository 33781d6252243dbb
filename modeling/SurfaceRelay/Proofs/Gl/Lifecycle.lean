import SurfaceRelay.Proofs.Gl.Objects
import SurfaceRelay.Proofs.Gl.Reuse
import SurfaceRelay.Proofs.Pool.Accounts

/-! The life of every texture and framebuffer of a pool between two contexts.

A GL domain begins a lot when it creates an image and adds a framebuffer to one when it opens a
view; when the error flag is found raised it takes back what it made (`create_meets`,
`openShare_meets`). Everything else that it does, even if it fails, only uses names that are in
use. A surface of a pool has a lot for its texture, with a framebuffer in either context while
the view is open, and one for each of its staging resources (`accounts`). So what is alive in the
world is what the surfaces of the pool have, and nothing when the pool is gone
(`objects_deleted_once`). -/
namespace SurfaceRelay.Gl
variable {κ σ : Type}

/-- What is alive in the world stands in these lots. -/
def Has [DecidableEq κ] (L : Multiset (Lot κ)) (w : World κ σ) : Prop := InLots L w.log

namespace Group
variable {g : Group κ σ} {k : κ} {fail : World κ σ → Prop}

variable {m : κ} {L L' : Multiset (Lot κ)} {t n : Nat} {fbs : List (κ × Nat)}

variable [DecidableEq κ]

/-! ### Using what is there -/

theorem call_keeps {c : Call} (hc : c.Uses k L) : (g.call k c).Keeps (Has L) :=
  Attempt.keeps_of_leaves fun _ hw => hw.useCall hc

theorem calls_keeps {cs : List Call} (hcs : ∀ c ∈ cs, c.Uses k L) :
    (g.calls k cs).Keeps (Has L) := by
  induction cs with
  | nil => exact Attempt.keeps_pure ()
  | cons c cs ih =>
    exact Attempt.keeps_bind (call_keeps (hcs c (List.mem_cons_self ..))) fun _ =>
      ih fun c' hc' => hcs c' (List.mem_cons_of_mem _ hc')

theorem calls_uses {cs : List Call} (hcs : ∀ c ∈ cs, c.Uses k L) :
    (g.calls k cs).Meets (Has L) (fun _ => Has L) fail :=
  (calls_keeps hcs).meets fun w => ⟨(), calls_total g k cs w⟩

theorem enter_keeps (g : Group κ σ) (k : κ) : (g.enter k).Keeps (Has L) := by
  refine Attempt.keeps_of_leaves fun w hw => ?_
  obtain ⟨w', henter⟩ := enter_total g k w
  rw [henter]
  show InLots L w'.log
  rcases (enter_log henter).2 with hlog | hlog <;> rw [hlog]
  · exact hw
  · exact InLots.use hw rfl rfl (fun _ => rfl) (fun x hx => by cases hx)

theorem enter_meets (g : Group κ σ) (k : κ) :
    (g.enter k).Meets (Has L) (fun _ => Has L) fail :=
  (enter_keeps g k).meets fun w => ⟨(), enter_total g k w⟩

theorem check_keeps (refusal : Nat → Refusal) : (g.check k refusal).Keeps (Has L) := by
  refine Attempt.keeps_bind (call_keeps (.of_none rfl rfl)) fun code => ?_
  split
  · exact Attempt.keeps_throw _
  · exact Attempt.keeps_pure _

theorem deleteFence_keeps (mk : Marker) : (g.deleteFence k mk).Keeps (Has L) := by
  refine calls_keeps fun c hc => ?_
  split at hc
  · cases hc
  · rw [List.mem_singleton.1 hc]
    exact .of_none rfl rfl

theorem newFence_keeps (g : Group κ σ) (k : κ) : (g.newFence k).Keeps (Has L) := by
  refine Attempt.keeps_of_leaves fun w hw => ?_
  obtain ⟨sync, w', hcall, hok | ⟨-, reported, -, herror⟩⟩ := newFence_result g k w
  · exact hok ▸ (call_keeps (.of_none rfl rfl)).ok hcall hw
  · exact herror ▸ (call_keeps (.of_none rfl rfl)).ok hcall hw

theorem record_keeps (mk : Marker) : (g.record k mk).Keeps (Has L) := by
  refine Attempt.keeps_bind (enter_keeps g k) fun _ => ?_
  refine Attempt.keeps_bind (deleteFence_keeps mk) fun _ => ?_
  refine Attempt.keeps_bind (newFence_keeps g k) fun sync => ?_
  refine Attempt.keeps_bind (call_keeps (.of_none rfl rfl)) fun _ => ?_
  exact Attempt.keeps_pure _

theorem poll_keeps (mk : Marker) : (g.poll k mk).Keeps (Has L) := by
  refine Attempt.keeps_bind (enter_keeps g k) fun _ => ?_
  split
  · exact Attempt.keeps_pure _
  · refine Attempt.keeps_bind (call_keeps (.of_none rfl rfl)) fun status => ?_
    split
    · exact Attempt.keeps_bind (deleteFence_keeps mk) fun _ => Attempt.keeps_pure _
    · exact Attempt.keeps_pure _
    · exact Attempt.keeps_throw _

theorem freeMarker_keeps (mk : Marker) : (g.freeMarker k mk).Keeps (Has L) :=
  Attempt.keeps_bind (enter_keeps g k) fun _ => deleteFence_keeps mk

/-- The framebuffer of an image is there to be read from and drawn to. -/
def Readable (k : κ) (L : Multiset (Lot κ)) (i : Image) : Prop :=
  ∀ x ∈ Name.framebuffer? k i.framebuffer, InUse L x

theorem stage_keeps {i staging : Image} (hi : Readable k L i) (hs : Readable k L staging)
    (region : Extent) : (g.stage k i staging region).Keeps (Has L) := by
  refine Attempt.keeps_bind (enter_keeps g k) fun _ => ?_
  refine Attempt.keeps_bind (calls_keeps ?_) fun _ => check_keeps _
  simp only [List.forall_mem_cons]
  exact ⟨⟨rfl, hi⟩, ⟨rfl, hs⟩, .of_none rfl rfl, .of_none rfl rfl, fun _ h => by cases h⟩

theorem blockOn_keeps {staging : Image} (hs : Readable k L staging) :
    (g.blockOn k staging).Keeps (Has L) := by
  refine Attempt.keeps_bind (enter_keeps g k) fun _ => ?_
  refine Attempt.keeps_bind (calls_keeps ?_) fun _ => check_keeps _
  simp only [List.forall_mem_cons]
  exact ⟨⟨rfl, hs⟩, .of_none rfl rfl, .of_none rfl rfl, fun _ h => by cases h⟩

theorem upload_keeps {v : Image} (hv : ∀ x ∈ Name.texture? v.name, InUse L x)
    (data : List UInt8) : (g.upload k v data).Keeps (Has L) := by
  rw [upload]
  split
  · exact Attempt.keeps_throw _
  · refine Attempt.keeps_bind (enter_keeps g k) fun _ => ?_
    refine Attempt.keeps_bind (calls_keeps ?_) fun _ => check_keeps _
    simp only [List.forall_mem_cons]
    exact ⟨⟨rfl, hv⟩, .of_none rfl rfl, .of_none rfl rfl, fun _ h => by cases h⟩

/-! ### Making and deleting -/

/-- A new framebuffer is attached to the texture of its lot. -/
theorem attach_meets : (g.attach k t).Meets (Has (⟨m, t, fbs⟩ ::ₘ L))
    (fun n => Has (⟨m, t, (k, n) :: fbs⟩ ::ₘ L)) fail := by
  refine Attempt.meets_bind (call_meets fun log n h => InLots.genFramebuffers h) fun n => ?_
  refine Attempt.meets_bind (calls_meets fun log lines hmade h => ?_)
    fun _ => Attempt.meets_pure fun _ hw => hw
  obtain _ | ⟨⟨a₁, rfl⟩, _ | ⟨⟨a₂, rfl⟩, _ | ⟨⟨a₃, rfl⟩, ⟨⟩⟩⟩⟩ := hmade
  have hbound := h.useCall (a := a₁) (c := .bindFramebuffer .both n)
    ⟨rfl, framebuffer_inUse (Multiset.mem_cons_self ..) (List.mem_cons_self ..)⟩
  -- the framebuffer is bound when the texture is attached to it
  have hattached := hbound.framebufferTexture (a := a₂) (by
    rw [scene_snoc]
    exact Function.update_self ..)
  have hdone := hattached.useCall (k := k) (c := .bindFramebuffer .both 0) (a := a₃)
    (.of_none rfl rfl)
  simpa only [List.append_assoc, List.cons_append, List.nil_append] using hdone

theorem newImage_meets (size : Extent) : (g.newImage k size).Meets (Has L)
    (fun i w => i.owned = true ∧ Has (⟨k, i.name, [(k, i.framebuffer)]⟩ ::ₘ L) w) fail := by
  refine Attempt.meets_bind (call_meets fun log n h => h.genTextures) fun n => ?_
  have hbind : (Call.bindTexture n).Uses k (⟨k, n, []⟩ ::ₘ L) :=
    ⟨rfl, texture_inUse (Multiset.mem_cons_self (⟨k, n, []⟩ : Lot κ) L)⟩
  refine Attempt.meets_bind (calls_uses ?_) fun _ => ?_
  · simp only [List.forall_mem_cons]
    exact ⟨hbind, .of_none rfl rfl, .of_none rfl rfl, .of_none rfl rfl, .of_none rfl rfl,
      fun _ h => by cases h⟩
  · exact Attempt.meets_bind attach_meets fun n' => Attempt.meets_pure fun _ hw => ⟨rfl, hw⟩

/-- An image that owns its texture is deleted with it. -/
theorem deleteImage_owned {i : Image} (hi : i.owned = true) : (g.deleteImage k i).Meets
    (Has (⟨k, i.name, [(k, i.framebuffer)]⟩ ::ₘ L)) (fun _ => Has L) fail := by
  rw [deleteImage, if_pos hi]
  refine Attempt.meets_bind (call_meets fun log a h => h.deleteFramebuffers) fun _ => ?_
  refine Attempt.meets_bind (call_meets fun log a h => h.deleteTextures) fun _ => ?_
  exact Attempt.meets_pure fun _ hw => hw

/-- Of a view only the framebuffer is deleted. -/
theorem deleteImage_view {v : Image} (hv : v.owned = false) : (g.deleteImage k v).Meets
    (Has (⟨m, t, (k, v.framebuffer) :: fbs⟩ ::ₘ L)) (fun _ => Has (⟨m, t, fbs⟩ ::ₘ L)) fail := by
  rw [deleteImage, if_neg (by simp [hv])]
  refine Attempt.meets_bind (call_meets fun log a h => h.deleteFramebuffers) fun _ => ?_
  exact Attempt.meets_pure fun _ hw => hw

/-- An image that did not come about is deleted again. -/
theorem keepImage_meets {i : Image} {refusal : Nat → Refusal} {post : Image → World κ σ → Prop}
    (hpost : ∀ w, Has L w → post i w)
    (hdelete : (g.deleteImage k i).Meets (Has L) (fun _ => Has L') (Has L')) :
    (g.keepImage k i refusal).Meets (Has L) post (Has L') := by
  refine Attempt.meets_bind (call_meets fun log a h => h.useCall (.of_none rfl rfl))
    fun code => ?_
  split
  · exact Attempt.meets_pure hpost
  · exact Attempt.meets_bind hdelete fun _ => Attempt.meets_throw fun _ hw => hw

theorem create_meets (purpose : Purpose) (size : Extent) : (g.create k purpose size).Meets (Has L)
    (fun i w => i.owned = true ∧ Has (⟨k, i.name, [(k, i.framebuffer)]⟩ ::ₘ L) w) (Has L) := by
  refine Attempt.meets_bind (enter_meets g k) fun _ => ?_
  refine Attempt.meets_bind (newImage_meets size) fun i => ?_
  refine Attempt.meets_and fun hi => ?_
  exact keepImage_meets (fun _ hw => ⟨hi, hw⟩) (deleteImage_owned hi)

/-- A view adds a framebuffer to the lot of the texture that was shared. -/
theorem openShare_meets (size : Extent) : (g.openShare k t size).Meets (Has (⟨m, t, fbs⟩ ::ₘ L))
    (fun v w => (v.owned = false ∧ v.name = t) ∧ Has (⟨m, t, (k, v.framebuffer) :: fbs⟩ ::ₘ L) w)
    (Has (⟨m, t, fbs⟩ ::ₘ L)) := by
  rw [openShare]
  split
  · exact Attempt.meets_throw fun _ hw => hw
  · refine Attempt.meets_bind (enter_meets g k) fun _ => ?_
    refine Attempt.meets_bind attach_meets fun n => ?_
    exact keepImage_meets (fun _ hw => ⟨⟨rfl, rfl⟩, hw⟩)
      (deleteImage_view (v := ⟨n, t, size, false⟩) rfl)

end Group

/-! ### What a pool has of a share group -/

/-- An image of a context, with or without the view of its texture that another one opened. -/
inductive Stock (κ : Type)
  | image (k : κ) (i : Image)
  | viewed (k : κ) (i : Image) (c : κ) (v : Image)

namespace Stock

def lot : Stock κ → Lot κ
  | image k i => ⟨k, i.name, [(k, i.framebuffer)]⟩
  | viewed k i c v => ⟨k, i.name, [(c, v.framebuffer), (k, i.framebuffer)]⟩

/-- A texture belongs to the image that it was made for, and not to a view. -/
def Sound : Stock κ → Prop
  | image _ i => i.owned = true
  | viewed _ i _ v => i.owned = true ∧ v.owned = false ∧ v.name = i.name

end Stock

section
variable {L : Multiset (Stock κ)} {x : Stock κ}

theorem sound_add : (∀ y ∈ {x} + L, Stock.Sound y) ↔ x.Sound ∧ ∀ y ∈ L, y.Sound := by
  simp

theorem lots_add : ({x} + L).map Stock.lot = x.lot ::ₘ L.map Stock.lot := by
  simp

/-- Images can be read and drawn to while they are in stock. -/
theorem readable {k : κ} {i : Image} (hx : x ∈ L) (hi : (k, i.framebuffer) ∈ x.lot.framebuffers) :
    Group.Readable k (L.map Stock.lot) i :=
  framebuffer_inUse (Multiset.mem_map_of_mem _ hx) hi

end

variable [DecidableEq κ]

/-- What is alive in the world is this stock. -/
def Stocked (L : Multiset (Stock κ)) (w : World κ σ) : Prop :=
  (∀ x ∈ L, x.Sound) ∧ Has (L.map Stock.lot) w

/-- Textures and framebuffers of a pool between two contexts. A marker has none. -/
def accounts (k c : κ) : Accounts (World κ σ) Image Marker Image (Multiset (Stock κ)) where
  owes := Stocked
  texture t := {.image k t}
  viewed t v := {.viewed k t c v}
  staging s := {.image k s}
  marker _ := 0
  viewStaging v := {.image c v}
  exported t shared := shared = t.name

variable (g : Group κ σ) (k c : κ)

theorem create_stocked (purpose : Purpose) (size : Extent) (L : Multiset (Stock κ)) :
    (g.create k purpose size).Meets (Stocked L) (fun i => Stocked ({.image k i} + L))
      (Stocked L) := by
  refine Attempt.meets_and fun hL => (Group.create_meets purpose size).imp (fun _ hw => hw) ?_ ?_
  · rintro i w ⟨hi, hw⟩
    exact ⟨sound_add.2 ⟨hi, hL⟩, lots_add ▸ hw⟩
  · exact fun w hw => ⟨hL, hw⟩

theorem destroyImage_stocked (i : Image) (L : Multiset (Stock κ)) :
    (g.destroyImage k i).Meets (Stocked ({.image k i} + L)) (fun _ => Stocked L) (Stocked L) := by
  refine Attempt.meets_and fun hL => ?_
  obtain ⟨hi, hL⟩ := sound_add.1 hL
  rw [lots_add]
  refine Attempt.meets_bind (Group.enter_meets g k) fun _ => ?_
  exact (Group.deleteImage_owned hi).imp (fun _ hw => hw) (fun _ _ hw => ⟨hL, hw⟩)
    fun _ hw => ⟨hL, hw⟩

/-- Opening a texture adds the view to what there is of it. -/
theorem openShare_stocked (t : Image) (size : Extent) (L : Multiset (Stock κ)) :
    (g.openShare c t.name size).Meets (Stocked ({.image k t} + L))
      (fun v => Stocked ({.viewed k t c v} + L)) (Stocked ({.image k t} + L)) := by
  refine Attempt.meets_and fun hL => ?_
  obtain ⟨ht, hrest⟩ := sound_add.1 hL
  refine (Group.openShare_meets size).imp (fun _ hw => lots_add ▸ hw) ?_ ?_
  · rintro v w ⟨hv, hw⟩
    exact ⟨sound_add.2 ⟨⟨ht, hv⟩, hrest⟩, lots_add ▸ hw⟩
  · exact fun w hw => ⟨hL, lots_add ▸ hw⟩

/-- Destroying a view leaves the image that it was of. -/
theorem destroyView_stocked (t v : Image) (L : Multiset (Stock κ)) :
    (g.destroyImage c v).Meets (Stocked ({.viewed k t c v} + L))
      (fun _ => Stocked ({.image k t} + L)) (Stocked ({.image k t} + L)) := by
  refine Attempt.meets_and fun hL => ?_
  obtain ⟨⟨ht, hv, -⟩, hL⟩ := sound_add.1 hL
  have himage : ∀ y ∈ {.image k t} + L, Stock.Sound y := sound_add.2 ⟨ht, hL⟩
  rw [lots_add]
  refine Attempt.meets_bind (Group.enter_meets g c) fun _ => ?_
  exact (Group.deleteImage_view hv).imp (fun _ hw => hw)
    (fun _ _ hw => ⟨himage, lots_add ▸ hw⟩) fun _ hw => ⟨himage, lots_add ▸ hw⟩

theorem stocked_of_keeps {α : Type} {act : Attempt (World κ σ) α} {L : Multiset (Stock κ)}
    (h : act.Keeps (Has (L.map Stock.lot))) :
    act.Meets (Stocked L) (fun _ => Stocked L) (Stocked L) :=
  Attempt.meets_of_outcome fun w hw => ⟨hw.1, h w hw.2⟩

theorem accounts_kept : (accounts k c).Kept (g.backend k c) (g.uploader c) where
  note n L w hw := ⟨hw.1, hw.2.use rfl rfl (fun _ => rfl) fun x hx => by cases hx⟩
  newTexture size L := create_stocked g k .sharing size L
  share t L := Attempt.meets_pure fun w hw => ⟨rfl, hw⟩
  newStaging size L := create_stocked g k .staging size L
  newMarker L := Attempt.meets_pure fun w hw => (zero_add L).symm ▸ hw
  openShare {t shared} hshared size L := by
    cases hshared
    exact openShare_stocked g k c t size L
  newViewStaging size L := create_stocked g c .staging size L
  freeTexture t L := destroyImage_stocked g k t L
  freeStaging s L := destroyImage_stocked g k s L
  freeMarker m L := by
    show (g.freeMarker k m).Meets (Stocked (0 + L)) (fun _ => Stocked L) (Stocked L)
    rw [zero_add]
    exact stocked_of_keeps (Group.freeMarker_keeps m)
  freeView t v L := destroyView_stocked g k c t v L
  freeViewStaging v L := destroyImage_stocked g c v L
  poll m L := stocked_of_keeps (Group.poll_keeps m)
  record L := Attempt.keeps_inPlace (J := Stocked (0 + L)) fun m w hw =>
    ⟨hw.1, Group.record_keeps m w hw.2⟩
  stage t v s region L w hw := ⟨hw.1, Group.stage_keeps
    (readable (x := .viewed k t c v) (by simp [accounts]) (by simp [Stock.lot]))
    (readable (x := .image k s) (by simp [accounts]) (by simp [Stock.lot])) region w hw.2⟩
  blockOn s L w hw := ⟨hw.1, Group.blockOn_keeps
    (readable (x := .image k s) (by simp [accounts]) (by simp [Stock.lot])) w hw.2⟩
  stageView t v s region L w hw := ⟨hw.1, Group.stage_keeps
    (readable (x := .viewed k t c v) (by simp [accounts]) (by simp [Stock.lot]))
    (readable (x := .image c s) (by simp [accounts]) (by simp [Stock.lot])) region w hw.2⟩
  blockOnView s L w hw := ⟨hw.1, Group.blockOn_keeps
    (readable (x := .image c s) (by simp [accounts]) (by simp [Stock.lot])) w hw.2⟩
  convert frame t v L w hw := by
    have hmem : Stock.viewed k t c v ∈ {.viewed k t c v} + L := by simp
    have hname : v.name = t.name := (hw.1 _ hmem).2.2
    have hv := texture_inUse (Multiset.mem_map_of_mem Stock.lot hmem)
    exact ⟨hw.1, Group.upload_keeps (hname ▸ hv) frame w hw.2⟩

/-! ### Sessions -/

open Presenter (ofPool run after)

/-- The log of a presenter between two contexts, from nothing to the end of its pool. -/
def sessionLog (p : Pool Image Marker Image) (w : World κ σ)
    (moves : List (Presenter.Move (List UInt8))) (ending : Presenter.Move (List UInt8)) :
    List (Entry κ) :=
  (after (g.backend k c) (g.uploader c) ending
    (run (g.backend k c) (g.uploader c) moves (ofPool p, w))).2.log

/-- **Every texture and every framebuffer is deleted once, by the context that made it, and no call
mentions its name after that.** Whatever the GL answers, and in whatever way the pool ends: if
the GL gives no name out while that is alive, then every name it gave out is deleted later by a
call of the same context, also where the operation that asked for it failed. Names are mentioned
only while they are alive, by either context, so a context never deletes what the other one
made; and no texture is deleted while a framebuffer shows it. -/
theorem objects_deleted_once {cfg : Pool.Config} {p : Pool Image Marker Image}
    (hp : Pool.make cfg = .ok p) (gl : σ) (current : Option κ)
    (moves : List (Presenter.Move (List UInt8))) {ending : Presenter.Move (List UInt8)}
    (hending : ending = .closePool ∨ ending = .close)
    (hfresh : (reading κ).Fresh (sessionLog g k c p ⟨gl, current, []⟩ moves ending)) :
    (reading κ).DeletedOnce (sessionLog g k c p ⟨gl, current, []⟩ moves ending) ∧
      (reading κ).OnlyAlive (sessionLog g k c p ⟨gl, current, []⟩ moves ending) ∧
      Outlives (sessionLog g k c p ⟨gl, current, []⟩ moves ending) := by
  have hstart : Stocked (0 : Multiset (Stock κ)) (⟨gl, current, []⟩ : World κ σ) :=
    ⟨fun x hx => (by simp at hx), fun _ => Ledger.nil⟩
  have hend := Presenter.nothing_held (accounts_kept g k c) hp hstart moves hending
  have hledger : Ledger 0 (sessionLog g k c p ⟨gl, current, []⟩ moves ending) := hend.2 hfresh
  refine ⟨hledger.onlyAlive.deletedOnce hfresh ?_, hledger.onlyAlive, hledger.outlives⟩
  exact (Multiset.coe_eq_zero _).1 hledger.balance

namespace Scripted

/-- The first framebuffer of the consumer raises an error. -/
def refusing : World Side State :=
  { World.initial with gl := State.initial.fail .consumer "GenFramebuffers" ⟨0, some 1, 0x502⟩ }

/-- The first frame is dropped because its surface cannot be opened, the second one is presented. -/
theorem objects_deleted_once_refusing :
    ∃ log, log = sessionLog hooked .producer .consumer smallPool refusing
        [.present (List.replicate 16 0), .present (List.replicate 16 0)] .closePool ∧
      .call .consumer .getError 0x502 ∈ log ∧ (reading Side).Fresh log ∧
      (reading Side).DeletedOnce log := by
  have hp : Pool.make ⟨⟨2, 2⟩, 1⟩ = .ok smallPool := rfl
  have hfresh : (reading Side).Fresh (sessionLog hooked .producer .consumer smallPool refusing
      [.present (List.replicate 16 0), .present (List.replicate 16 0)] .closePool) := by
    decide +kernel
  refine ⟨_, rfl, ?_, hfresh, ?_⟩
  · exact List.mem_of_getElem? (i := 28) (by decide +kernel)
  · exact (objects_deleted_once hooked .producer .consumer hp _ none _ (.inl rfl) hfresh).1

end Scripted
end SurfaceRelay.Gl
