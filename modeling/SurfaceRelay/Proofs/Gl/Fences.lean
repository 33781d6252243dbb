import SurfaceRelay.Proofs.Gl.Operations
import SurfaceRelay.Proofs.Gl.Reuse
import SurfaceRelay.Proofs.Pool.Accounts

/-! The life of sync objects.

A marker owns its sync object: a new recording deletes it and makes another, a poll deletes it
when it is signaled, and destroying the marker deletes it. Zero is not a sync object, so a
recording that got none leaves a marker that owns nothing, whether it fails or not. Every other
operation of a domain has nothing to do with sync objects. So those that are alive are those that
markers own: the markers that somebody keeps (`MarkerStep`), or those of the surfaces of a pool
(`fenceAccounts`). -/
namespace SurfaceRelay.Gl
variable {κ σ : Type}

/-- The sync object under a number. -/
def sync? (n : Nat) : Option Nat := if n = 0 then none else some n

/-- What the lines of a log say of sync objects. They are named for the whole share group. -/
def syncs (κ : Type) : Reading (Entry κ) Nat Nat where
  name := id
  made
    | .call _ .fenceSync answer => sync? answer
    | _ => none
  freed
    | .call _ (.deleteSync n) _ => sync? n
    | _ => none
  named
    | .call _ (.clientWaitSync n) _ | .call _ (.deleteSync n) _ => [n]
    | _ => []
  freed_only {e n} h := by
    rcases e with _ | ⟨k, c, answer⟩ | _
    · rfl
    · cases c <;> first | rfl | cases h
    · rfl

/-- The sync object that a marker owns. -/
def Marker.sync? (m : Marker) : Option Nat := Gl.sync? m.sync

/-- These sync objects are alive, and no other was mentioned; unless one was given out while it
was alive. -/
def Owned (L : Multiset Nat) (log : List (Entry κ)) : Prop :=
  (syncs κ).Fresh log → (syncs κ).Holds L log

/-- What a marker owns, as an amount. -/
def Marker.owns (m : Marker) : Multiset Nat := m.sync?.toList

theorem Marker.owns_of_sync {m : Marker} (h : m.sync ≠ 0) : m.owns = {m.sync} := by
  simp [owns, sync?, Gl.sync?, h]

theorem Marker.owns_of_null {m : Marker} (h : m.sync = 0) : m.owns = 0 := by
  simp [owns, sync?, Gl.sync?, h]

/-! ### Lines -/

/-- The line has nothing to do with sync objects. -/
structure Entry.Quiet (e : Entry κ) : Prop where
  made : (syncs κ).made e = none
  freed : (syncs κ).freed e = none
  named : (syncs κ).named e = []

theorem Entry.quiet_call {k : κ} {c : Call} {answer : Nat} (h : c.matter ≠ .fence) :
    (Entry.call k c answer).Quiet := by
  cases c <;> first | exact ⟨rfl, rfl, rfl⟩ | exact absurd rfl h

namespace Owned
variable {L : Multiset Nat} {log : List (Entry κ)} {k : κ} {n a : Nat}

theorem quiet (h : Owned L log) {e : Entry κ} (he : e.Quiet) : Owned L (log ++ [e]) := by
  intro hfresh
  refine (h hfresh.before).snoc hfresh.before (fun x hx => ?_) ?_
  · rw [he.named] at hx
    cases hx
  · rw [he.made, he.freed]

theorem fenceSync (h : Owned L log) :
    Owned ((⟨n⟩ : Marker).owns + L) (log ++ [.call k .fenceSync n]) := by
  intro hfresh
  refine (h hfresh.before).snoc hfresh.before (fun x hx => by cases hx) ?_
  exact (zero_add _).symm

theorem clientWaitSync (h : Owned ({n} + L) log) :
    Owned ({n} + L) (log ++ [.call k (.clientWaitSync n) a]) := by
  intro hfresh
  refine (h hfresh.before).snoc hfresh.before (fun x hx => ?_) rfl
  exact ⟨n, by simp, (List.mem_singleton.1 hx).symm⟩

theorem deleteSync (hn : n ≠ 0) (h : Owned ({n} + L) log) :
    Owned L (log ++ [.call k (.deleteSync n) a]) := by
  intro hfresh
  refine (h hfresh.before).snoc hfresh.before (fun x hx => ?_) ?_
  · exact ⟨n, by simp, (List.mem_singleton.1 hx).symm⟩
  · simp [syncs, sync?, hn]

end Owned

/-! ### Operations -/

namespace Group
variable {g : Group κ σ} {k : κ} {fail : World κ σ → Prop} {L : Multiset Nat} {w w' : World κ σ}

/-- The world owes the sync objects that are alive. -/
def Owes (L : Multiset Nat) (w : World κ σ) : Prop := Owned L w.log

theorem Calling.owes {P : Call → Prop} (h : g.Calling k P w w') (hP : ∀ c, P c → c.matter ≠ .fence)
    (hw : Owes L w) : Owes L w' := by
  refine h.keeps (fun c hc => ?_) hw
  exact Attempt.keeps_of_leaves fun w hw => Owned.quiet hw (Entry.quiet_call (hP c hc))

variable [DecidableEq κ]

theorem enter_owes (h : g.enter k w = .ok () w') (hw : Owes L w) : Owes L w' := by
  unfold Owes
  rcases (enter_log h).2 with hlog | hlog <;> rw [hlog]
  · exact hw
  · exact Owned.quiet hw ⟨rfl, rfl, rfl⟩

theorem enter_meets_owes (g : Group κ σ) (k : κ) :
    (g.enter k).Meets (Owes L) (fun _ => Owes L) fail where
  ok henter hw := enter_owes henter hw
  error {e w w'} henter _ := by
    obtain ⟨w₁, hok⟩ := g.enter_total k w
    rw [hok] at henter
    cases henter

/-- An operation on images leaves the sync objects alone. -/
theorem perform_owes (op : Operation) (hop : op.matter = .image) :
    (g.perform k op).Keeps (Owes L) := by
  refine Attempt.keeps_of_leaves fun w hw => ?_
  rcases g.perform_leaves k op w with ⟨-, hsame⟩ | ⟨-, w₁, henter, hcalling⟩
  · rw [hsame]
    exact hw
  · refine hcalling.owes (fun c hc => ?_) (enter_owes henter hw)
    rw [hop] at hc
    rcases hc with hc | hc <;> rw [hc] <;> exact Matter.noConfusion

omit [DecidableEq κ] in
theorem deleteFence_owes (m : Marker) :
    (g.deleteFence k m).Meets (Owes (m.owns + L)) (fun _ => Owes L) fail := by
  unfold deleteFence
  by_cases hm : m.sync = 0
  · rw [if_pos hm, Marker.owns_of_null hm, zero_add]
    exact Attempt.meets_pure fun _ hw => hw
  · rw [if_neg hm, Marker.owns_of_sync hm]
    refine Attempt.meets_bind (call_meets fun log a h => h.deleteSync hm) fun _ => ?_
    exact Attempt.meets_pure fun _ hw => hw

omit [DecidableEq κ] in
/-- A context that reports an error made no sync object. -/
theorem newFence_owes (g : Group κ σ) (k : κ) : (g.newFence k).Meets (Owes L)
    (fun n => Owes ((⟨n⟩ : Marker).owns + L)) (Owes L) := by
  refine Attempt.meets_of_result fun w hw => ?_
  obtain ⟨sync, w', hcall, hnew⟩ := newFence_result g k w
  have hasked : Owes ((⟨sync⟩ : Marker).owns + L) w' := by
    unfold Owes
    rw [(call_log hcall).1]
    exact hw.fenceSync
  rcases hnew with hok | ⟨rfl, reported, -, herror⟩
  · rw [hok]
    exact hasked
  · rw [herror]
    rwa [Marker.owns_of_null rfl, zero_add] at hasked

/-- The sync object that a marker had is deleted before it gets another. It is gone also when
there is no other. -/
theorem record_owes (m : Marker) : (g.record k m).Meets (Owes (m.owns + L))
    (fun m' => Owes (m'.owns + L)) (Owes L) := by
  refine Attempt.meets_bind (enter_meets_owes g k) fun _ => ?_
  refine Attempt.meets_bind (deleteFence_owes m) fun _ => ?_
  refine Attempt.meets_bind (newFence_owes g k) fun n => ?_
  refine Attempt.meets_bind (calls_meets fun log lines hmade h => ?_)
    fun _ => Attempt.meets_pure fun _ hw => hw
  obtain _ | ⟨⟨a, rfl⟩, ⟨⟩⟩ := hmade
  exact h.quiet ⟨rfl, rfl, rfl⟩

/-- Whether or not a marker could be recorded, it owns what is left of its own. -/
theorem producer_record_owes :
    (g.producer k).record.Keeps fun x => Owes (x.1.owns + L) x.2 :=
  Attempt.keeps_inPlace_of_meets (J := fun m => Owes (m.owns + L)) fun m =>
    (record_owes m).imp (fun _ hw => hw) (fun _ _ hw => hw) fun _ hw =>
      (Marker.owns_of_null (m := m.cleared) rfl).symm ▸ (zero_add L).symm ▸ hw

/-- A marker keeps its sync object until a poll finds it signaled. -/
theorem poll_owes (m : Marker) : (g.poll k m).Meets (Owes (m.owns + L))
    (fun m' => Owes ((m'.getD m).owns + L)) (Owes (m.owns + L)) := by
  refine Attempt.meets_bind (enter_meets_owes g k) fun _ => ?_
  by_cases hm : m.sync = 0
  · rw [if_pos hm]
    exact Attempt.meets_pure fun _ hw => hw
  rw [if_neg hm]
  have hwait : (g.call k (.clientWaitSync m.sync)).Meets (Owes (m.owns + L))
      (fun _ => Owes (m.owns + L)) (Owes (m.owns + L)) := by
    rw [Marker.owns_of_sync hm]
    exact call_meets fun log a h => h.clientWaitSync
  refine Attempt.meets_bind hwait fun status => ?_
  split
  · refine Attempt.meets_bind (deleteFence_owes m) fun _ => Attempt.meets_pure fun _ hw => ?_
    exact (zero_add L).symm ▸ hw
  · exact Attempt.meets_pure fun _ hw => hw
  · exact Attempt.meets_throw fun _ hw => hw

theorem freeMarker_owes (m : Marker) :
    (g.freeMarker k m).Meets (Owes (m.owns + L)) (fun _ => Owes L) fail :=
  Attempt.meets_bind (enter_meets_owes g k) fun _ => deleteFence_owes m

/-! ### Markers that somebody keeps -/

/-- What can be done with markers, each of which goes by its place among them. -/
inductive MarkerStep (κ : Type)
  | create (k : κ)
  | record (k : κ) (i : Nat)
  | poll (k : κ) (i : Nat)
  | free (k : κ) (i : Nat)

/-- Has an operation on one marker leave others in its place. -/
def onMarker (i : Nat) (act : Marker × World κ σ → List Marker × World κ σ)
    (x : List Marker × World κ σ) : List Marker × World κ σ :=
  match x.1[i]? with
  | none => x
  | some m =>
    let (left, w) := act (m, x.2)
    (x.1.take i ++ left ++ x.1.drop (i + 1), w)

/-- Leaves the marker as an operation leaves it, also when that fails. -/
def leaving (act : Attempt (Marker × World κ σ) Unit) (y : Marker × World κ σ) :
    List Marker × World κ σ :=
  let (m, w) := Attempt.leaves (act y)
  ([m], w)

variable (g)

def stepMarkers (x : List Marker × World κ σ) : MarkerStep κ → List Marker × World κ σ
  | .create k =>
    match (g.producer k).newMarker x.2 with
    | .ok m w => (x.1 ++ [m], w)
    | .error _ w => (x.1, w)
  | .record k i => onMarker i (leaving (g.producer k).record) x
  | .poll k i => onMarker i (leaving (.inPlace (fun m => do return (← g.poll k m).getD m) id)) x
  | .free k i => onMarker i (fun (m, w) => ([], Attempt.leaves (g.freeMarker k m w))) x

def runMarkers (x : List Marker × World κ σ) (steps : List (MarkerStep κ)) :
    List Marker × World κ σ := steps.foldl g.stepMarkers x

/-- What some markers own together. -/
def owned (markers : List Marker) : Multiset Nat := (markers.map Marker.owns).sum

theorem owned_append (markers others : List Marker) :
    owned (markers ++ others) = owned markers + owned others := by
  simp only [owned, List.map_append, List.sum_append]

theorem owned_singleton (m : Marker) : owned [m] = m.owns := by
  simp [owned]

variable {g}

omit [DecidableEq κ] in
theorem onMarker_owes {act : Marker × World κ σ → List Marker × World κ σ} {i : Nat}
    (hact : ∀ m L w, Owes (m.owns + L) w → Owes (owned (act (m, w)).1 + L) (act (m, w)).2)
    {x : List Marker × World κ σ} (hx : Owes (owned x.1) x.2) :
    Owes (owned (onMarker i act x).1) (onMarker i act x).2 := by
  obtain ⟨markers, w⟩ := x
  unfold onMarker
  dsimp only at hx ⊢
  split
  · exact hx
  rename_i m hm
  -- what the others own stays theirs
  have hsplit (left : List Marker) : owned (markers.take i ++ left ++ markers.drop (i + 1)) =
      owned left + (owned (markers.take i) + owned (markers.drop (i + 1))) := by
    rw [owned_append, owned_append]
    abel
  have hmarkers : markers = markers.take i ++ [m] ++ markers.drop (i + 1) := by
    obtain ⟨hi, rfl⟩ := List.getElem?_eq_some_iff.1 hm
    rw [List.append_assoc, List.singleton_append, List.getElem_cons_drop, List.take_append_drop]
  have hm' : owned markers = m.owns + (owned (markers.take i) + owned (markers.drop (i + 1))) := by
    conv_lhs => rw [hmarkers]
    rw [hsplit, owned_singleton]
  show Owes (owned (_ ++ _ ++ _)) _
  rw [hsplit]
  exact hact m _ w (hm' ▸ hx)

omit [DecidableEq κ] in
theorem leaving_owes {act : Attempt (Marker × World κ σ) Unit}
    (hact : ∀ L, act.Keeps fun y => Owes (y.1.owns + L) y.2) (m : Marker) (L : Multiset Nat)
    (w : World κ σ) (hw : Owes (m.owns + L) w) :
    Owes (owned (leaving act (m, w)).1 + L) (leaving act (m, w)).2 := by
  show Owes (owned [_] + L) _
  rw [owned_singleton]
  exact (hact L).leaves (s := (m, w)) hw

theorem stepMarkers_owes {x : List Marker × World κ σ} (hx : Owes (owned x.1) x.2)
    (step : MarkerStep κ) :
    Owes (owned (g.stepMarkers x step).1) (g.stepMarkers x step).2 := by
  cases step with
  | create k =>
    show Owes (owned (x.1 ++ [⟨0⟩])) x.2
    rwa [owned_append, owned_singleton, Marker.owns_of_null rfl, add_zero]
  | record k i =>
    exact onMarker_owes (leaving_owes fun _ => producer_record_owes (g := g) (k := k)) hx
  | poll k i =>
    refine onMarker_owes (leaving_owes fun L => ?_) hx
    exact Attempt.keeps_inPlace_of_meets (J := fun m => Owes (m.owns + L)) fun m =>
      Attempt.meets_bind (poll_owes (g := g) (k := k) m) fun _ => Attempt.meets_pure fun _ hw => hw
  | free k i =>
    refine onMarker_owes (fun m L w hw => ?_) hx
    exact (zero_add L).symm ▸ (freeMarker_owes m).leaves hw

theorem runMarkers_owes {x : List Marker × World κ σ} (hx : Owes (owned x.1) x.2)
    (steps : List (MarkerStep κ)) :
    Owes (owned (g.runMarkers x steps).1) (g.runMarkers x steps).2 := by
  induction steps generalizing x with
  | nil => exact hx
  | cons step steps ih => exact ih (stepMarkers_owes hx step)

theorem enter_alive (h : g.enter k w = .ok () w') :
    (syncs κ).alive w'.log = (syncs κ).alive w.log := by
  rcases (enter_log h).2 with hlog | hlog <;> rw [hlog]
  rw [Reading.alive_snoc, Reading.next_quiet rfl rfl]

/-- A poll that does not find its marker retired leaves the sync objects alone. -/
theorem poll_alive {m : Marker} (h : ∀ m', Attempt.answers (g.poll k m w) ≠ .ok (some m')) :
    (syncs κ).alive (Attempt.leaves (g.poll k m w)).log = (syncs κ).alive w.log := by
  obtain ⟨w₁, henter⟩ := g.enter_total k w
  by_cases hm : m.sync = 0
  · rw [poll_null hm henter] at h
    exact absurd rfl (h m)
  obtain ⟨status, w₂, hwait⟩ := call_total g k (.clientWaitSync m.sync) w₁
  have hwaited : (syncs κ).alive w₂.log = (syncs κ).alive w.log := by
    rw [(call_log hwait).1, Reading.alive_snoc, Reading.next_quiet rfl rfl, enter_alive henter]
  have hpoll := poll_waited hm henter hwait
  rcases hstatus : signaled? status with _ | _ | _ <;> rw [hstatus] at hpoll
  · rw [hpoll]
    exact hwaited
  · rw [hpoll]
    exact hwaited
  · obtain ⟨w₃, hdelete, -⟩ := g.deleteFence_calling k m w₂
    rw [hpoll.trans (Attempt.bind_of_ok hdelete)] at h
    exact absurd rfl (h ⟨0⟩)

end Group

/-! ### Markers of a pool -/

section
variable [DecidableEq κ] (g : Group κ σ) (k c : κ)

/-- Sync objects of a pool between two contexts. Only markers have any. -/
def fenceAccounts : Accounts (World κ σ) Image Marker Image (Multiset Nat) where
  owes := Group.Owes
  texture _ := 0
  viewed _ _ := 0
  staging _ := 0
  marker := Marker.owns
  viewStaging _ := 0
  exported _ _ := True

omit [DecidableEq κ] in
/-- What leaves sync objects alone costs nothing and gives nothing back. -/
theorem meets_of_keeps {α : Type} {act : Attempt (World κ σ) α} {L before after failed : Multiset Nat}
    (h : act.Keeps (Group.Owes L)) (hbefore : before = L) (hafter : after = L)
    (hfailed : failed = L) :
    act.Meets (Group.Owes before) (fun _ => Group.Owes after) (Group.Owes failed) := by
  subst hbefore hafter hfailed
  exact Attempt.meets_of_outcome h

theorem newImage_owes {make : Attempt (World κ σ) Image} (op : Operation) (hop : op.matter = .image)
    (hmake : g.perform k op = (fun _ => ()) <$> make) (L : Multiset Nat) :
    make.Meets (Group.Owes L) (fun _ => Group.Owes (0 + L)) (Group.Owes L) := by
  have hkeeps : (g.perform k op).Keeps (Group.Owes L) := Group.perform_owes op hop
  rw [hmake] at hkeeps
  exact meets_of_keeps (Attempt.keeps_of_map hkeeps) rfl (zero_add L) rfl

theorem freeImage_owes (op : Operation) (hop : op.matter = .image) (L : Multiset Nat) :
    (g.perform k op).Meets (Group.Owes (0 + L)) (fun _ => Group.Owes L) (Group.Owes L) :=
  meets_of_keeps (Group.perform_owes op hop) (zero_add L) rfl rfl

theorem fenceAccounts_kept :
    (fenceAccounts (κ := κ) (σ := σ)).Kept (g.backend k c) (g.uploader c) where
  note _ _ _ hw := Owned.quiet hw ⟨rfl, rfl, rfl⟩
  newTexture size := newImage_owes g k (.newTexture size) rfl rfl
  share _ _ := Attempt.meets_pure fun _ hw => ⟨trivial, hw⟩
  newStaging size := newImage_owes g k (.newStaging size) rfl rfl
  newMarker L := Attempt.meets_pure fun _ hw => (zero_add L).symm ▸ hw
  openShare {_ shared} _ size _ := meets_of_keeps
    (Attempt.keeps_of_map (Group.perform_owes (.openShare shared size) rfl)) rfl rfl rfl
  newViewStaging size := newImage_owes g c (.newStaging size) rfl rfl
  freeTexture t := freeImage_owes g k (.freeTexture t) rfl
  freeStaging s := freeImage_owes g k (.freeStaging s) rfl
  freeMarker m _ := Group.freeMarker_owes m
  freeView _ v _ := meets_of_keeps (Group.perform_owes (.freeTexture v) rfl) rfl rfl rfl
  freeViewStaging v := freeImage_owes g c (.freeStaging v) rfl
  poll m _ := Group.poll_owes m
  record _ := Group.producer_record_owes
  stage t _ s region _ := Group.perform_owes (.stage t s region) rfl
  blockOn s _ := Group.perform_owes (.blockOn s) rfl
  stageView _ v s region _ := Group.perform_owes (.stage v s region) rfl
  blockOnView s _ := Group.perform_owes (.blockOn s) rfl
  convert frame _ v _ := Group.perform_owes (.upload v frame) rfl

/-! ### All of them -/

open Presenter (ofPool run)

/-- The markers of the surfaces of a pool. -/
def markersOf (p : Pool Image Marker Image) : List Marker := p.ring.slots.map (·.marker)

/-- Markers, and the world that their owner has brought about. -/
inductive Reached : List Marker → World κ σ → Prop
  /-- Somebody made them, and did with them whatever there is to do. -/
  | kept (gl : σ) (current : Option κ) (steps : List (Group.MarkerStep κ)) :
      Reached (g.runMarkers ([], ⟨gl, current, []⟩) steps).1
        (g.runMarkers ([], ⟨gl, current, []⟩) steps).2
  /-- They belong to the surfaces of a pool that is in use. -/
  | pooled {cfg : Pool.Config} {p : Pool Image Marker Image} (made : Pool.make cfg = .ok p)
      (gl : σ) (current : Option κ) (moves : List (Presenter.Move (List UInt8))) :
      Reached (markersOf
          (run (g.backend k c) (g.uploader c) moves (ofPool p, ⟨gl, current, []⟩)).1.pool)
        (run (g.backend k c) (g.uploader c) moves (ofPool p, ⟨gl, current, []⟩)).2
  /-- They are none, because the pool was torn down. -/
  | ended {cfg : Pool.Config} {p : Pool Image Marker Image} (made : Pool.make cfg = .ok p)
      (gl : σ) (current : Option κ) (moves : List (Presenter.Move (List UInt8)))
      {ending : Presenter.Move (List UInt8)} (ends : ending = .closePool ∨ ending = .close) :
      Reached [] (Presenter.after (g.backend k c) (g.uploader c) ending
        (run (g.backend k c) (g.uploader c) moves (ofPool p, ⟨gl, current, []⟩))).2

omit [DecidableEq κ] in
theorem owes_nil (gl : σ) (current : Option κ) :
    Group.Owes 0 (⟨gl, current, []⟩ : World κ σ) := fun _ => .nil

omit [DecidableEq κ] in
theorem held_fences (p : Pool Image Marker Image) :
    (fenceAccounts (κ := κ) (σ := σ)).held p.ring = Group.owned (markersOf p) := by
  unfold Accounts.held Group.owned markersOf
  rw [List.map_map]
  refine congrArg List.sum (List.map_congr_left fun s _ => ?_)
  show (0 : Multiset Nat) + (0 + (s.marker.owns + 0)) = s.marker.owns
  rw [zero_add, zero_add, add_zero]

variable {g k c} {markers : List Marker} {w : World κ σ}

theorem Reached.owes (h : Reached g k c markers w) : Group.Owes (Group.owned markers) w := by
  cases h with
  | kept gl current steps =>
    exact Group.runMarkers_owes (x := ([], ⟨gl, current, []⟩)) (owes_nil gl current) steps
  | pooled hp gl current moves =>
    have hbalanced := (Presenter.accounts_run (fenceAccounts_kept g k c) hp
      (owes_nil gl current) moves).2
    rw [Accounts.Balanced, held_fences] at hbalanced
    exact hbalanced
  | ended hp gl current moves hends =>
    exact Presenter.nothing_held (fenceAccounts_kept g k c) hp (owes_nil gl current) moves hends

end

/-- The sync objects of a log, as they belong to some markers. -/
structure Fenced (markers : List Marker) (log : List (Entry κ)) : Prop where
  /-- Only what is alive is waited for or deleted. -/
  onlyAlive : (syncs κ).OnlyAlive log
  nonzero : ∀ e ∈ log, 0 ∉ (syncs κ).named e
  /-- What is alive belongs to the markers. -/
  owned : ((syncs κ).alive log).Perm (markers.filterMap Marker.sync?)
  /-- No two markers have the same. -/
  distinct : (markers.filterMap Marker.sync?).Nodup
  /-- What was made is deleted once, unless a marker still has it. -/
  once : ∀ past e later n, log = past ++ e :: later → (syncs κ).made e = some n →
    (syncs κ).DeletedIn n later ∨
      (n ∈ markers.filterMap Marker.sync? ∧ ∀ e' ∈ later, (syncs κ).freed e' ≠ some n)

theorem coe_filterMap_sync? (markers : List Marker) :
    ((markers.filterMap Marker.sync? : List Nat) : Multiset Nat) = Group.owned markers := by
  induction markers with
  | nil => rfl
  | cons m markers ih =>
    have hcons : Group.owned (m :: markers) = m.owns + Group.owned markers := rfl
    rw [hcons, ← ih, List.filterMap_cons, Marker.owns]
    cases m.sync? <;> rfl

/-- Zero is never alive. -/
theorem zero_not_alive (log : List (Entry κ)) : 0 ∉ (syncs κ).alive log := by
  induction log using List.reverseRecOn with
  | nil => exact List.not_mem_nil
  | append_singleton log e ih =>
    rw [Reading.alive_snoc, Reading.mem_next, not_or]
    refine ⟨fun h => ih h.1, fun h => ?_⟩
    rcases e with _ | ⟨k, c, answer⟩ | _
    · cases h
    · cases c <;> simp [syncs, sync?] at h
    · cases h

theorem Fenced.of_holds {markers : List Marker} {log : List (Entry κ)}
    (hfresh : (syncs κ).Fresh log) (h : (syncs κ).Holds (Group.owned markers) log) :
    Fenced markers log := by
  have howned : ((syncs κ).alive log).Perm (markers.filterMap Marker.sync?) := by
    rw [← Multiset.coe_eq_coe, h.balance, coe_filterMap_sync?]
  refine ⟨h.onlyAlive, fun e he hzero => ?_, howned, ?_, ?_⟩
  · obtain ⟨past, later, rfl⟩ := List.append_of_mem he
    obtain ⟨n, hn, hname⟩ := (h.onlyAlive past e later rfl).1 0 hzero
    cases hname
    exact zero_not_alive past hn
  · refine howned.nodup_iff.1 ?_
    simpa [syncs] using hfresh.nodup
  · rintro past e later n rfl hmade
    exact (h.onlyAlive.deleted_of_made hfresh hmade).imp_right fun halive =>
      ⟨howned.mem_iff.1 halive.1, halive.2⟩

/-- **Every sync object is deleted once, by the marker that owns it.** While no sync object is given
out that is alive, the ones that are alive belong to markers, each to its own; no call mentions
one that is not, or zero; and when the markers are gone, no sync object is left. A poll that does
not find its marker retired leaves all of them alone. -/
theorem syncs_deleted_once [DecidableEq κ] {g : Group κ σ} {k c : κ} {markers : List Marker}
    {w : World κ σ} (h : Reached g k c markers w) (hfresh : (syncs κ).Fresh w.log) :
    Fenced markers w.log ∧ ∀ k m, (∀ m', Attempt.answers (g.poll k m w) ≠ .ok (some m')) →
      (syncs κ).alive (Attempt.leaves (g.poll k m w)).log = (syncs κ).alive w.log :=
  ⟨.of_holds hfresh (h.owes hfresh), fun _ _ hpoll => Group.poll_alive hpoll⟩

namespace Scripted

/-- Two contexts with hooks that make three sync objects, and report an error from then on. -/
def scarce : Group Side State where
  driver
    | side, .fenceSync, s => if s.nextSync < 4 then driver side .fenceSync s else (0, s)
    | side, c, s => driver side c s
  hooked _ := true
  fenceError? _ _ := some "no sync object"

/-- Two markers are recorded. The first is polled before its sync object is signaled. Both are
recorded again, for which there is but one sync object, and the first is destroyed. -/
def twoMarkers : List (Group.MarkerStep Side) :=
  [.create .producer, .create .producer, .record .producer 0, .record .producer 1,
    .poll .producer 0, .record .producer 0, .record .producer 1, .free .producer 0]

/-- The second marker is left without a sync object. -/
theorem syncs_deleted_once_reissued :
    ∃ x, x = scarce.runMarkers ([], World.initial) twoMarkers ∧ x.1 = [⟨0⟩] ∧
      .call .producer (.clientWaitSync 1) timeoutExpired ∈ x.2.log ∧
      .call .producer .fenceSync 0 ∈ x.2.log ∧
      (syncs Side).Fresh x.2.log ∧ Fenced x.1 x.2.log := by
  have hfresh : (syncs Side).Fresh (scarce.runMarkers ([], World.initial) twoMarkers).2.log := by
    decide +kernel
  refine ⟨_, rfl, by decide +kernel, List.mem_of_getElem? (i := 5) (by decide +kernel),
    List.mem_of_getElem? (i := 10) (by decide +kernel), hfresh, ?_⟩
  exact (syncs_deleted_once (k := .producer) (c := .consumer) (.kept _ none twoMarkers) hfresh).1

end Scripted
end SurfaceRelay.Gl
