import SurfaceRelay.Proofs.Faults
import SurfaceRelay.Proofs.Gl.Operations
import SurfaceRelay.Proofs.Soft.Presentation
import SurfaceRelay.Proofs.Soft.Views

/-! The faults of software and GL domains.

Software domains hand all their commands to one queue, which refuses them in one way when the
worker is dead; what the caller hears depends on the operation. GL domains read one error flag,
which may have been raised by anything that was done on the context before, and are told when no
sync object could be made. Both fail as domains should in every world, with any worker dead and any
flag raised (`Bundled.classified`), and GL converters never lose a frame. The converter of software
domains does: a frame that fits is refused as if a map had failed when the worker is dead
(`Soft.Lost`), where a marker is refused as a marker. -/
namespace SurfaceRelay

/-! ### Software domains -/

namespace Soft
variable {α : Type}

theorem refuse_failsAs (r : Refusal) : (refuse r : Attempt World α).FailsAs r.fault.kind := by
  rintro _ _ _ ⟨⟩
  rfl

/-- Only a dead worker refuses a command. -/
theorem accept_error {d : Nat} {c : Command} {w w' : World} {e : Fault}
    (h : accept d c w = .error e w') : w.Dead d ∧ e = workerExited := by
  rcases accept_cases d c w with ⟨haccept, -⟩ | ⟨haccept, hdead⟩ <;> rw [haccept] at h <;> cases h
  exact ⟨hdead, rfl⟩

theorem accept_failsAs (d : Nat) (c : Command) : (accept d c).FailsAs .mapping := by
  intro w e w' he
  rw [(accept_error he).2]
  rfl

theorem addTexture_failsAs (d : Nat) (size : Extent) (storage : Nat) :
    (addTexture d size storage).FailsAs .allocation :=
  Attempt.failsAs_of_ok fun _ => ⟨_, _, rfl⟩

theorem openShare_failsAs (d shared : Nat) (size : Extent) :
    (openShare d shared size).FailsAs .allocation := by
  intro w e w' he
  simp only [openShare] at he
  split at he
  · exact refuse_failsAs _ he
  · split at he
    · exact refuse_failsAs _ he
    · exact addTexture_failsAs _ _ _ he

theorem stage_failsAs (d : Nat) (texture staging : Texture) (region : Extent) :
    (stage d texture staging region).FailsAs .mapping := by
  intro w e w' he
  simp only [stage] at he
  split at he
  · exact refuse_failsAs _ he
  · split at he
    · exact refuse_failsAs _ he
    · exact accept_failsAs _ _ he

theorem complete_failsAs (d : Nat) : (complete d).FailsAs .mapping := by
  intro w e w' he
  simp only [complete] at he
  split at he
  · exact refuse_failsAs _ he
  · exact refuse_failsAs _ he
  · split at he
    · exact refuse_failsAs _ he
    · cases he

/-- A marker that is not accepted is refused as a marker. -/
theorem record_failsAs (d : Nat) (m : Marker) : (record d m).FailsAs .marker := by
  intro w e w' he
  simp only [record] at he
  split at he
  · cases he
  · exact refuse_failsAs _ he

theorem domain_classified (d : Nat) : (domain d).Classified where
  newStaging _ := Attempt.failsAs_of_ok fun _ => ⟨_, _, rfl⟩
  stage := stage_failsAs d
  blockOn _ := complete_failsAs d

theorem backend_classified (p c : Nat) : (backend p c).Classified where
  producer :=
    { domain_classified p with
      newTexture := fun _ => Attempt.failsAs_of_ok fun _ => ⟨_, _, rfl⟩
      share := fun _ => Attempt.failsAs_of_ok fun _ => ⟨_, _, rfl⟩
      newMarker := Attempt.failsAs_of_ok fun _ => ⟨_, _, rfl⟩
      record := Attempt.failsAs_inPlace (record_failsAs p)
      poll := fun _ => Attempt.failsAs_of_ok fun _ => ⟨_, _, rfl⟩ }
  consumer := { domain_classified c with openShare := openShare_failsAs c }

/-- A frame that fits the view is lost when the worker that should write it is dead. The fault is
the one of a map. -/
def Lost (c : Nat) (frame : Pixels) (view : Texture) (w : World) (e : Fault) : Prop :=
  frame.length = view.size.byteCount ∧ w.Dead c ∧ e = workerExited

theorem identity_classified (c : Nat) : (identity c).Classified (Lost c) where
  failed {frame view w e w'} he := by
    simp only [identity, write] at he
    split at he
    · exact .inl (refuse_failsAs _ he)
    · obtain ⟨hdead, rfl⟩ := accept_error he
      exact .inr ⟨not_not.1 ‹_›, hdead, rfl⟩
  lost {frame view w e} hlost := by
    obtain ⟨hlength, hdead, rfl⟩ := hlost
    exact ⟨w, (if_neg (not_not.2 hlength)).trans (if_pos hdead)⟩

/-! Workers at work between the calls change nothing about it. -/

namespace Concurrent

theorem call_failsAs {kind : Fault.Kind} {act : Attempt World α} (h : act.FailsAs kind) :
    (call act).FailsAs kind := fun _ _ _ he => h (call_error he)

theorem alive_failsAs (d : Nat) (r : Refusal) : (alive d r).FailsAs r.fault.kind := by
  intro w e w' he
  simp only [alive] at he
  split at he
  · exact refuse_failsAs r he
  · cases he

/-- The worker may die on either side of the map's end being handed in. -/
theorem blockOn_failsAs (d : Nat) : (blockOn d).FailsAs .mapping :=
  Attempt.failsAs_bind (call_failsAs (alive_failsAs d .workerExited)) fun _ =>
    call_failsAs (Attempt.failsAs_bind (alive_failsAs d .diedInMap) fun _ => complete_failsAs d)

theorem domain_classified (d : Nat) : (domain d).Classified where
  newStaging size := call_failsAs ((Soft.domain_classified d).newStaging size)
  stage texture staging region := call_failsAs (stage_failsAs d texture staging region)
  blockOn _ := blockOn_failsAs d

theorem backend_classified (p c : Nat) : (backend p c).Classified where
  producer :=
    { domain_classified p with
      newTexture := fun _ => call_failsAs ((Soft.backend_classified p c).producer.newTexture _)
      share := fun t => call_failsAs ((Soft.backend_classified p c).producer.share t)
      newMarker := call_failsAs (Soft.backend_classified p c).producer.newMarker
      record := Attempt.failsAs_inPlace fun m => call_failsAs (record_failsAs p m)
      poll := fun m => call_failsAs ((Soft.backend_classified p c).producer.poll m) }
  consumer :=
    { domain_classified c with
      openShare := fun shared size => call_failsAs (openShare_failsAs c shared size) }

/-- The worker may have died when its turn came, before the frame was handed in. -/
theorem identity_classified (c : Nat) :
    (identity c).Classified fun frame view x => Lost c frame view x.yield.world where
  failed he := (Soft.identity_classified c).failed (call_error he)
  lost {frame view x e} hlost := by
    obtain ⟨w', he⟩ := (Soft.identity_classified c).lost hlost
    rw [Soft.identity] at he
    simp only [identity, call, he]
    exact ⟨_, rfl⟩

end Concurrent
end Soft

/-! ### GL domains -/

namespace Gl

/-- The kind of fault that an operation fails with, if it can fail at all. -/
def Operation.kind? : Operation → Option Fault.Kind
  | newTexture _ | newStaging _ | openShare .. => some .allocation
  | upload .. => some .conversion
  | stage .. | blockOn _ => some .mapping
  | record _ | poll _ => some .marker
  | share _ | newMarker | freeTexture _ | freeStaging _ | freeMarker _ => none

namespace Group
variable {κ σ : Type} [DecidableEq κ] (g : Group κ σ) (k : κ)

/-- **An operation fails with one kind of fault**, whatever its calls answer and whoever raised
the flag that it finds. -/
theorem kind_of_perform {op : Operation} {w w' : World κ σ} {e : Fault}
    (h : g.perform k op w = .error e w') : op.kind? = some e.kind := by
  have hperforming := g.performing k op w
  rw [h] at hperforming
  cases hperforming with
  | refused _ hrefused =>
    cases op with
    | openShare | upload =>
      simp only [Operation.refused?, Option.ite_none_right_eq_some, Option.some.injEq] at hrefused
      obtain ⟨-, rfl⟩ := hrefused
      rfl
    | _ => cases hrefused
  | unclear hpoll =>
    subst hpoll
    rfl
  | unfenced hrecord =>
    subst hrecord
    rfl
  | failed _ hchecks => cases op <;> cases hchecks <;> rfl

theorem perform_failsAs {kind : Fault.Kind} (op : Operation) (h : kind ∈ op.kind?) :
    (g.perform k op).FailsAs kind := fun _ _ _ he =>
  Option.some.inj ((g.kind_of_perform k he).symm.trans h)

theorem domain_classified : (g.domain k).Classified where
  newStaging size := Attempt.failsAs_of_map (g.perform_failsAs k (.newStaging size) rfl)
  stage i staging region := g.perform_failsAs k (.stage i staging region) rfl
  blockOn staging := g.perform_failsAs k (.blockOn staging) rfl

theorem backend_classified (p c : κ) : (g.backend p c).Classified where
  producer :=
    { g.domain_classified p with
      newTexture := fun size =>
        Attempt.failsAs_of_map (g.perform_failsAs p (.newTexture size) rfl)
      share := fun _ => Attempt.failsAs_of_ok fun _ => ⟨_, _, rfl⟩
      newMarker := Attempt.failsAs_of_ok fun _ => ⟨_, _, rfl⟩
      record := Attempt.failsAs_inPlace fun m =>
        Attempt.failsAs_of_map (g.perform_failsAs p (.record m) rfl)
      poll := fun m => Attempt.failsAs_of_map (g.perform_failsAs p (.poll m) rfl) }
  consumer :=
    { g.domain_classified c with
      openShare := fun shared size =>
        Attempt.failsAs_of_map (g.perform_failsAs c (.openShare shared size) rfl) }

theorem uploader_classified (c : κ) : (g.uploader c).Classified fun _ _ _ _ => False where
  failed {frame view _ _ _} he := .inl (g.perform_failsAs c (.upload view frame) rfl he)
  lost := False.elim

end Group
end Gl

/-! ### Both -/

/-- Two domains of one kind with the converter that goes with them, and the frames that it loses. -/
inductive Bundled : {W F T K V : Type} → Backend W T K V → Converter W F V →
    (F → V → W → Fault → Prop) → Prop
  | soft (p c : Nat) : Bundled (Soft.backend p c) (Soft.identity c) (Soft.Lost c)
  /-- Workers go on with their queues, or die, between any two calls. -/
  | concurrent (p c : Nat) :
    Bundled (Soft.Concurrent.backend p c) (Soft.Concurrent.identity c) fun frame view x =>
      Soft.Lost c frame view x.yield.world
  | gl {κ σ : Type} [DecidableEq κ] (g : Gl.Group κ σ) (p c : κ) :
    Bundled (g.backend p c) (g.uploader c) fun _ _ _ _ => False

variable {W F T K V : Type} {b : Backend W T K V} {convert : Converter W F V}
  {lost : F → V → W → Fault → Prop}

theorem Bundled.classified (h : Bundled b convert lost) :
    b.Classified ∧ convert.Classified lost := by
  cases h with
  | soft p c => exact ⟨Soft.backend_classified p c, Soft.identity_classified c⟩
  | concurrent p c =>
    exact ⟨Soft.Concurrent.backend_classified p c, Soft.Concurrent.identity_classified c⟩
  | gl g p c => exact ⟨g.backend_classified p c, g.uploader_classified c⟩

open Presenter in
/-- **The kind of a fault tells which operation failed, but for one.** In every world of software
or GL domains, whichever workers are dead and whatever error flags are raised: what creates or
opens fails as an allocation, what copies or maps as a mapping, what records or polls as a marker,
and a converter as a conversion, except that a frame of the right length is lost as if a map had
failed when the software worker that should write it is dead. So after any moves of a presenter, a
frame that is dropped was dropped because the pool was torn down, which is said before any domain is
asked, or for an allocation or a mapping that the acquire needed, or for the converter, or for
the mapping of the consumer's wait, and the fault says which. -/
theorem faults_tell_what_failed (hb : Bundled b convert lost) :
    b.Classified ∧ convert.Classified lost ∧
    ∀ {config : Pool.Config} {p : Pool T K V} (_ : Pool.make config = .ok p) (w : W)
      {may : Recorded W (Entry F T K V) → Recorded W (Entry F T K V) → Prop}
      {first rest : List (Turn (Recorded W (Entry F T K V)) F T K V)}
      {t : Turn (Recorded W (Entry F T K V)) F T K V}
      (_ : Course b.recorded (Converter.recorded convert) may (ofPool p, .ofWorld w)
        (first ++ t :: rest))
      {frame : F} {e : Fault}, t.move = .present frame → t.answer = .error e →
      t.Blames b convert lost frame e := by
  obtain ⟨hbackend, hconvert⟩ := hb.classified
  exact ⟨hbackend, hconvert, fun hp w _ _ _ _ hcourse _ _ hmove hfail =>
    hcourse.present_fails hbackend hconvert (Pool.inv_make hp) hmove hfail⟩

open Presenter Soft Soft.Presentation in
/-- A frame of three bytes does not fill the one pixel of a surface. -/
theorem faults_tell_what_failed_short :
    let b : Backend Soft.World Texture Marker Texture := backend 0 1
    let start : Presenter Texture Marker Texture × Recorded Soft.World (Entry Pixels _ _ _) :=
      (ofPool smallPool, .ofWorld twoWorkers)
    let t := turn b.recorded (Converter.recorded (identity 1)) start (.present [1, 2, 3])
    let e : Fault := .conversion "expected 4 bytes for 1x1, got 3"
    Pool.make { size := ⟨1, 1⟩, capacity := 2 } = .ok smallPool ∧ t.answer = .error e ∧
      t.Blames b (identity 1) (Lost 1) [1, 2, 3] e := by
  intro b start t e
  have hmake : Pool.make { size := ⟨1, 1⟩, capacity := 2 } = .ok smallPool := rfl
  have hfail : t.answer = .error e := rfl
  have hcourse : Course b.recorded (Converter.recorded (identity 1)) Eq start ([] ++ [t]) :=
    course_turns start [.present [1, 2, 3]]
  obtain ⟨-, -, hblames⟩ := faults_tell_what_failed (.soft 0 1)
  exact ⟨hmake, hfail, hblames hmake twoWorkers hcourse rfl hfail⟩

namespace Session.SoftDomains.State

/-- **A conversion that says a map failed.** A frame of four bytes is converted into a texture of
one pixel, which it fills, but the worker is dead. -/
theorem dead_worker_fails_conversion_as_mapping :
    let s := ({} : State).run [.start "d" 0, .texture "d" "t" ⟨1, 1⟩, .kill "d"]
    let e : Fault := .mapping "timeline worker has exited"
    s.step (.convert "d" "t" [1, 2, 3, 4]) = some (.error e, s) ∧ e.kind ≠ .conversion :=
  ⟨rfl, by decide⟩

end Session.SoftDomains.State
end SurfaceRelay
