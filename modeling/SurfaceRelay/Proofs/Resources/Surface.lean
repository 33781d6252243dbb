import SurfaceRelay.Proofs.Resources.Books
import SurfaceRelay.Proofs.Surface

/-! Making and destroying a surface, on the books.

Over a numbered and recorded backend a call that makes something puts it on the books, a call
that destroys something takes it off, whether it succeeds or not, and any other call leaves them
as they are when it names only what is on them (`call_make`, `call_free`, `call_use`). So a
surface that was built has its five resources on the books, a build that failed has left nothing
there (`build_owes`), and taking a surface apart takes off what it has (`dismantle_owes`). -/
namespace SurfaceRelay
variable {W F T K V α β : Type}

/-- The books of a world: this is what is outstanding in it. -/
def Owes (L : List Resource) (r : Recorded (Numbered W) (Line F T K V)) : Prop :=
  Books L r.trace r.world.next

/-- The backend, numbered and recorded. -/
abbrev Backend.audited (b : Backend W T K V) :
    Backend (Recorded (Numbered W) (Line F T K V)) (Tagged T) (Tagged K) (Tagged V) :=
  b.numbered.recorded

abbrev Converter.audited (convert : Converter W F V) :
    Converter (Recorded (Numbered W) (Line F T K V)) F (Tagged V) :=
  Converter.recorded (Converter.numbered convert)

namespace Numbered

theorem makesNothing_lift (act : Attempt W α) : MakesNothing (lift act) := by
  intro n
  simp only [Attempt.outcome, lift]
  rcases act n.world with ⟨a, w⟩ | ⟨e, w⟩ <;> rfl

theorem makesNothing_map (f : α → β) {act : Attempt (Numbered W) α} (h : MakesNothing act) :
    MakesNothing (f <$> act) := by
  intro n
  rw [Attempt.outcome_map]
  have hn := h n
  rwa [Attempt.outcome_eq] at hn

end Numbered

open Numbered Recorded

variable {L : List Resource} {r : Resource}

/-! ### One call -/

/-- A recorded call adds one line. -/
theorem outcome_call {S E : Type} (act : Attempt S α) (entry : Except Fault α → E)
    (x : Recorded S E) :
    Attempt.outcome (call act entry) x =
      ((Attempt.outcome act x.world).1,
        ⟨(Attempt.outcome act x.world).2, x.trace ++ [entry (Attempt.outcome act x.world).1]⟩) := by
  simp only [Attempt.outcome, call]
  rcases act x.world with ⟨a, w⟩ | ⟨e, w⟩ <;> rfl

/-- A call that makes nothing and destroys nothing may name what is on the books. -/
theorem call_use {act : Attempt (Numbered W) α} (hact : MakesNothing act)
    {entry : Except Fault α → Line F T K V} (hm : ∀ a, (entry a).made = none)
    (hf : ∀ a, (entry a).freed = none) (he : ∀ a, ∀ r ∈ (entry a).named, r ∈ L) :
    (call act entry).Meets (Owes L) (fun _ => Owes L) (Owes L) := by
  refine Attempt.meets_of_outcome fun x hx => ?_
  rw [outcome_call, Owes, hact]
  exact Books.use hx (hm _) (hf _) (he _)

theorem call_use_one {act : Attempt (Numbered W) α} (hact : MakesNothing act)
    {entry : Except Fault α → Line F T K V} (hm : ∀ a, (entry a).made = none)
    (hf : ∀ a, (entry a).freed = none) (he : ∀ a, (entry a).named = [r]) (hr : r ∈ L) :
    (call act entry).Meets (Owes L) (fun _ => Owes L) (Owes L) :=
  call_use hact hm hf fun a r' hr' => by
    rw [he, List.mem_singleton] at hr'
    exact hr' ▸ hr

/-- What a call makes goes on the books. -/
theorem call_make {act : Attempt W α} {entry : Except Fault (Tagged α) → Line F T K V}
    {part : Part} (hm : ∀ a, (entry (.ok a)).made = some ⟨part, a.number⟩)
    (hm' : ∀ e, (entry (.error e)).made = none) (hf : ∀ a, (entry a).freed = none)
    (he : ∀ a, (entry a).named = []) :
    (call (make act) entry).Meets (Owes L) (fun a => Owes (⟨part, a.number⟩ :: L)) (Owes L) := by
  refine Attempt.meets_of_result fun x hx => ?_
  simp only [call, make]
  rcases act x.world.world with ⟨a, w⟩ | ⟨e, w⟩
  · exact Books.make hx (hm _) (hf _) (he _)
  · exact Books.use hx (hm' _) (hf _) (by simp [he])

/-- What a call destroys goes off the books, whatever the call answers. -/
theorem call_free {act : Attempt (Numbered W) α} (hact : MakesNothing act)
    {entry : Except Fault α → Line F T K V} (hf : ∀ a, (entry a).freed = some r) :
    (call act entry).Meets (Owes (r :: L)) (fun _ => Owes L) (Owes L) := by
  refine Attempt.meets_of_outcome fun x hx => ?_
  rw [outcome_call, Owes, hact]
  exact Books.free hx (hf _)

/-- A forced wait names a texture and its staging resource. -/
theorem drain_owes {I : Type} {d : Domain W I} {entry : ImageCall (Tagged I) → Line F T K V}
    {texture staging : Part} (hm : ∀ c, (entry c).made = c.made staging)
    (hf : ∀ c, (entry c).freed = c.freed texture staging)
    (hn : ∀ c, (entry c).named = c.named texture staging) {t s : Tagged I}
    (ht : ⟨texture, t.number⟩ ∈ L) (hs : ⟨staging, s.number⟩ ∈ L) (region : Extent) :
    ((Recorded.domain (Numbered.domain d) entry).drain t s region).Meets (Owes L)
      (fun _ => Owes L) (Owes L) := by
  refine Attempt.meets_bind (call_use (makesNothing_lift _) (fun _ => hm _) (fun _ => hf _)
    fun a r hr => ?_) fun _ => call_use_one (makesNothing_lift _) (fun _ => hm _)
    (fun _ => hf _) (fun _ => hn _) hs
  rw [Function.comp, hn] at hr
  rcases List.mem_cons.1 hr with rfl | hr
  · exact ht
  · exact List.mem_singleton.1 hr ▸ hs

variable {b : Backend W T K V}

theorem note_owes {x : Recorded (Numbered W) (Line F T K V)} (h : Owes L x) (n : Notice) :
    Owes L (b.audited.note n x) := by
  refine Books.use (h : Books L x.trace x.world.next) rfl rfl fun r hr => ?_
  cases hr

/-- A recorded call answers what the call answers. -/
theorem call_answer {S E : Type} {act : Attempt S α} {entry : Except Fault α → E}
    {x x' : Recorded S E} {a : α} (h : call act entry x = .ok a x') :
    act x.world = .ok a x'.world := by
  simp only [call] at h
  split at h <;> cases h
  assumption

/-- A marker keeps its number when it is recorded, whether that succeeds or not, and stays on the
books. -/
theorem record_owes {n : Nat} (hn : ⟨.marker, n⟩ ∈ L) :
    b.audited.producer.record.Keeps fun y => y.1.number = n ∧ Owes (F := F) L y.2 := by
  refine Attempt.keeps_of_leaves ?_
  rintro ⟨k, x⟩ ⟨rfl, hx⟩
  have huse (a : Except Fault (Tagged K)) :
      Books L (x.trace ++ [.producer (.record k a)]) x.world.next :=
    Books.use hx rfl rfl fun r hr => List.mem_singleton.1 hr ▸ hn
  show _ ∧ _
  simp only [Backend.recorded, Recorded.producer, recording, Backend.numbered, Numbered.producer,
    liftOn]
  rcases b.producer.record (k.value, x.world.world) with _ | _
  · exact ⟨rfl, huse _⟩
  · exact ⟨rfl, huse _⟩

/-- A marker keeps its number when it is polled. -/
theorem poll_number {k k' : Tagged K} {x x' : Recorded (Numbered W) (Line F T K V)}
    (h : b.audited.producer.poll k x = .ok (some k') x') : k'.number = k.number := by
  obtain ⟨a, hk⟩ := Attempt.map_ok (call_answer h)
  obtain ⟨a, -, hk⟩ := Option.map_eq_some_iff.1 hk
  rw [← hk]

/-! ### Surfaces -/

namespace Surface

/-- What a surface has, in the order in which it is destroyed. -/
def resources (s : Surface (Tagged T) (Tagged K) (Tagged V)) : List Resource :=
  [⟨.consumerStaging, s.viewStaging.number⟩, ⟨.consumerTexture, s.view.number⟩,
    ⟨.marker, s.marker.number⟩, ⟨.producerStaging, s.staging.number⟩,
    ⟨.producerTexture, s.texture.number⟩]

theorem dispose_owes (h : Handle) (part : Part) {destroy : Attempt _ Unit}
    (hd : destroy.Meets (Owes (r :: L)) (fun _ => Owes L) (Owes L))
    {x : Recorded (Numbered W) (Line F T K V)} (hx : Owes (r :: L) x) :
    Owes L (dispose b.audited h part destroy x) := by
  simp only [dispose]
  split <;> rename_i hx'
  · exact hd.ok hx' hx
  · exact note_owes (hd.error hx' hx) _

variable {x : Recorded (Numbered W) (Line F T K V)} (h : Handle)

theorem disposeTexture_owes {t : Tagged T} (hx : Owes (⟨.producerTexture, t.number⟩ :: L) x) :
    Owes L (disposeTexture b.audited h t x) :=
  dispose_owes h _ (call_free (makesNothing_lift _) fun _ => rfl) hx

theorem disposeStaging_owes {t : Tagged T} (hx : Owes (⟨.producerStaging, t.number⟩ :: L) x) :
    Owes L (disposeStaging b.audited h t x) :=
  dispose_owes h _ (call_free (makesNothing_lift _) fun _ => rfl) hx

theorem disposeMarker_owes {k : Tagged K} (hx : Owes (⟨.marker, k.number⟩ :: L) x) :
    Owes L (disposeMarker b.audited h k x) :=
  dispose_owes h _ (call_free (makesNothing_lift _) fun _ => rfl) hx

theorem disposeView_owes {v : Tagged V} (hx : Owes (⟨.consumerTexture, v.number⟩ :: L) x) :
    Owes L (disposeView b.audited h v x) :=
  dispose_owes h _ (call_free (makesNothing_lift _) fun _ => rfl) hx

theorem disposeViewStaging_owes {v : Tagged V} (hx : Owes (⟨.consumerStaging, v.number⟩ :: L) x) :
    Owes L (disposeViewStaging b.audited h v x) :=
  dispose_owes h _ (call_free (makesNothing_lift _) fun _ => rfl) hx

/-- A build that succeeds has put what the surface has on the books, and a build that fails has
left them as they were. -/
theorem build_owes (size stagingSize : Extent) :
    (build (b.audited (F := F)) h size stagingSize).Meets (Owes L)
      (fun s => Owes (s.resources ++ L)) (Owes L) := by
  refine holding_meets (call_make (fun _ => rfl) (fun _ => rfl) (fun _ => rfl) fun _ => rfl)
    (fun t x hx => disposeTexture_owes h hx) fun texture => ?_
  refine Attempt.meets_bind (call_use_one (makesNothing_lift _) (fun _ => rfl) (fun _ => rfl)
    (fun _ => rfl) (List.mem_cons_self ..)) fun shared => ?_
  refine holding_meets (call_make (fun _ => rfl) (fun _ => rfl) (fun _ => rfl) fun _ => rfl)
    (fun t x hx => disposeStaging_owes h hx) fun staging => ?_
  refine holding_meets (call_make (fun _ => rfl) (fun _ => rfl) (fun _ => rfl) fun _ => rfl)
    (fun k x hx => disposeMarker_owes h hx) fun marker => ?_
  refine holding_meets (call_make (fun _ => rfl) (fun _ => rfl) (fun _ => rfl) fun _ => rfl)
    (fun v x hx => disposeView_owes h hx) fun view => ?_
  exact Attempt.meets_bind
    (call_make (fun _ => rfl) (fun _ => rfl) (fun _ => rfl) fun _ => rfl)
    fun viewStaging => Attempt.meets_pure fun x hx => hx

/-- Taking a surface apart takes what it has off the books. -/
theorem dismantle_owes {s : Surface (Tagged T) (Tagged K) (Tagged V)}
    (hx : Owes (s.resources ++ L) x) : Owes L (s.dismantle b.audited x) :=
  disposeTexture_owes _ (disposeStaging_owes _ (disposeMarker_owes _ (disposeView_owes _
    (disposeViewStaging_owes _ hx))))

theorem dismantleAll_owes {surfaces : List (Surface (Tagged T) (Tagged K) (Tagged V))}
    (hx : Owes (surfaces.flatMap resources ++ L) x) :
    Owes L (surfaces.foldl (fun x s => s.dismantle b.audited x) x) := by
  induction surfaces generalizing x with
  | nil => exact hx
  | cons s rest ih =>
    rw [List.flatMap_cons, List.append_assoc] at hx
    exact ih (dismantle_owes hx)

end Surface
end SurfaceRelay
