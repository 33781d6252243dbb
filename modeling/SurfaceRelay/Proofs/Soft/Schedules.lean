import SurfaceRelay.Proofs.Soft.Submitting

/-! Schedules of a session.

Workers execute what they have accepted at times of their own. A program that lets no two workers
name one storage cannot tell (`executed_as_submitted`): whenever the workers execute, every
operation answers as if each command had been executed when it was handed in, and so do the
storages and the receivers come out. -/
namespace SurfaceRelay.Session.SoftDomains
open SurfaceRelay.Soft

namespace Step

/-- An operation on domains, their handles, textures and pixels. -/
def isCall : Step → Bool
  | start .. | keep .. | letGo .. | texture .. | staging .. | openShare .. | share ..
  | aliasTexture .. | write .. | convert .. | read .. | copy .. | map .. | freeTexture ..
  | freeStaging .. => true
  | _ => false

/-- A worker executes something by itself. -/
def isAdvance : Step → Bool
  | advance .. => true
  | _ => false

/-- The name of the domain that a command is handed to. -/
def queue? : Step → Option String
  | write d .. | convert d .. | read d .. | copy d .. => some d
  | _ => none

/-- The step, and the command that it hands in executed at once. -/
def atOnce (x : Step) : List Step := x :: (x.queue?.map (advance · none)).toList

end Step

/-- A program whose commands are executed as soon as they are handed in. -/
def immediately (program : List Step) : List Step := program.flatMap Step.atOnce

/-- No storage is named by the commands of two workers. -/
def Separate (commands : List (Nat × Command)) : Prop :=
  ∀ a ∈ commands, ∀ b ∈ commands, ∀ i ∈ a.2.storages, i ∈ b.2.storages → a.1 = b.1

instance (commands : List (Nat × Command)) : Decidable (Separate commands) :=
  inferInstanceAs (Decidable (∀ a ∈ commands, ∀ b ∈ commands, ∀ i ∈ a.2.storages,
    i ∈ b.2.storages → a.1 = b.1))

namespace State

/-- What the steps of a run give, one after the other. -/
def gather {β : Type} (f : State → Step → List β) : State → List Step → List β
  | _, [] => []
  | s, x :: rest => f s x ++ gather f (s.after x) rest

/-- The answer of an operation. What workers do by themselves answers nobody. -/
def answer (s : State) (x : Step) : List (Option (Except Fault Answer)) :=
  if x.isAdvance then [] else [(s.step x).map (·.1)]

/-- The answers of the operations in a run. -/
abbrev results : State → List Step → List (Option (Except Fault Answer)) := gather answer

/-- The commands that a step adds to the queue of a worker. -/
def handed (s : State) (x : Step) : List (Nat × Command) :=
  match x.queue?.bind s.domains.get? with
  | none => []
  | some d => (((s.after x).world.queue d).drop (s.world.queue d).length).map (d, ·)

/-- The commands that were accepted in a run, each with its worker. -/
abbrev accepted : State → List Step → List (Nat × Command) := gather handed

/-! ### Two sessions side by side -/

/-- Two sessions give the same answer to a step, if any, and are left as `Q` says. -/
inductive Both (Q : State → State → Prop) (s t : State) : Outcome → Outcome → Prop
  | missing (h : Q s t) : Both Q s t none none
  | answered (a : Except Fault Answer) {s' t' : State} (h : Q s' t') :
    Both Q s t (some (a, s')) (some (a, t'))

/-- What a session does with an answer concerns nothing but the names of textures and
receivers. -/
structure Noting {α : Type} (next : α → State → Answer × State) : Prop where
  world : ∀ a s v, next a (s.onWorld v) = ((next a s).1, (next a s).2.onWorld v)
  domains : ∀ a s, (next a s).2.domains = s.domains

theorem noting_done {α : Type} : Noting fun (_ : α) s => s.done :=
  ⟨fun _ _ _ => rfl, fun _ _ => rfl⟩

theorem noting_texture (name : String) : Noting (putTexture name) :=
  ⟨fun _ _ _ => rfl, fun _ _ => rfl⟩

section
variable {Q : State → State → Prop} {s t s₀ t₀ : State} {v : World} {x : Step} {α : Type}

namespace Both

theorem answer (h : Both Q s t (s.step x) (t.step x)) : t.answer x = s.answer x := by
  simp only [State.answer]
  generalize s.step x = r at h ⊢
  generalize t.step x = r' at h ⊢
  cases h <;> rfl

theorem after (h : Both Q s t (s.step x) (t.step x)) : Q (s.after x) (t.after x) := by
  simp only [State.after]
  generalize s.step x = r at h ⊢
  generalize t.step x = r' at h ⊢
  cases h with
  | missing h => exact h
  | answered a h => exact h

/-- The call of a step answers the same in two worlds. -/
theorem attempt {act : Attempt World α} {next : α → State → Answer × State} (hnext : Noting next)
    (hanswers : Attempt.answers (act v) = Attempt.answers (act s.world))
    (hleaves : ∀ s', s'.world = Attempt.leaves (act s.world) → s'.domains = s.domains →
      Q s' (s'.onWorld (Attempt.leaves (act v)))) :
    Both Q s₀ t₀ (some (s.attempt act next)) (some ((s.onWorld v).attempt act next)) := by
  have hworld (a : α) (w : World) : (next a (s.onWorld w)).2.world = w := by
    have h := hnext.world a (s.onWorld w) w
    exact congrArg (·.2.world) h
  simp only [State.attempt, Attempt.outcome, show (s.onWorld v).world = v from rfl]
  generalize act s.world = r at hanswers hleaves ⊢
  generalize act v = r' at hanswers hleaves ⊢
  cases r with
  | ok a w =>
    cases r' with
    | ok a' w' =>
      cases hanswers
      have h := hleaves (next a (s.onWorld w)).2 (hworld a w) (hnext.domains a _)
      have hsame : next a ((s.onWorld v).onWorld w') =
          ((next a (s.onWorld w)).1, (next a (s.onWorld w)).2.onWorld w') :=
        hnext.world a (s.onWorld w) w'
      simp only [hsame]
      exact .answered _ h
    | error => cases hanswers
  | error e w =>
    cases r' with
    | ok => cases hanswers
    | error =>
      cases hanswers
      exact .answered _ (hleaves (s.onWorld w) rfl rfl)

theorem withDomain {name : String} {next next' : Nat → Except Fault Answer × State}
    (hmissing : Q s (s.onWorld v))
    (hnext : ∀ d, s.domains.get? name = some d →
      Both Q s (s.onWorld v) (some (next d)) (some (next' d))) :
    Both Q s (s.onWorld v) (s.withDomain name next) ((s.onWorld v).withDomain name next') := by
  simp only [State.withDomain, show (s.onWorld v).domains = s.domains from rfl]
  cases hd : s.domains.get? name with
  | none => exact .missing hmissing
  | some d => exact hnext d hd

theorem withTexture {d t : String} {next next' : Nat → Texture → Except Fault Answer × State}
    (hmissing : Q s (s.onWorld v))
    (hnext : ∀ k texture, s.domains.get? d = some k → s.textures.get? t = some texture →
      Both Q s (s.onWorld v) (some (next k texture)) (some (next' k texture))) :
    Both Q s (s.onWorld v) (s.withTexture d t next) ((s.onWorld v).withTexture d t next') := by
  simp only [State.withTexture, show (s.onWorld v).domains = s.domains from rfl,
    show (s.onWorld v).textures = s.textures from rfl]
  cases hd : s.domains.get? d with
  | none => exact .missing hmissing
  | some k =>
    cases ht : s.textures.get? t with
    | none => exact .missing hmissing
    | some texture => exact hnext k texture hd ht

end Both
end

/-! ### A session and the one that does not wait -/

/-- World `v` is what becomes of the world of a session that has accepted these commands. -/
structure Tracks (o : Owners) (commands : List (Nat × Command)) (s : State) (v : World) : Prop where
  worlds : World.Matches o s.world v
  started : ∀ r ∈ s.domains, r.2 < s.world.workerCount
  owned : ∀ a ∈ commands, a.2.Of o a.1
  known : ∀ a ∈ commands, ∀ r, a.2.receiver? = some r → r < s.world.receiverCount
  apart : (commands.filterMap (·.2.receiver?)).Nodup

/-- Session `t` is the same as session `s`, in the world that does not wait. -/
def Ahead (o : Owners) (commands : List (Nat × Command)) (s t : State) : Prop :=
  ∃ v, t = s.onWorld v ∧ s.Tracks o commands v

section
variable {o : Owners} {commands : List (Nat × Command)} {s s' s₀ t₀ : State} {v v' : World}
  {d : Nat} {x : Step} {name : String} {c : Command} {α : Type}

namespace Tracks

theorem of_matches (h : s.Tracks o commands v) (hw : World.Matches o s'.world v')
    (hworkers : s'.world.workerCount = s.world.workerCount)
    (hreceivers : s'.world.receiverCount = s.world.receiverCount)
    (hdomains : ∀ r ∈ s'.domains, r ∈ s.domains) : s'.Tracks o commands v' := by
  refine ⟨hw, fun r hr => ?_, h.owned, fun a ha r hr => ?_, h.apart⟩
  · rw [hworkers]
    exact h.started r (hdomains r hr)
  · rw [hreceivers]
    exact h.known a ha r hr

theorem ahead (h : s.Tracks o commands v) : Ahead o commands s (s.onWorld v) := ⟨v, rfl, h⟩

theorem attempt (h : s.Tracks o commands v) {act : Attempt World α}
    (hact : Alike o s.world (act s.world) (act v)) {next : α → State → Answer × State}
    (hnext : Noting next) :
    Both (Ahead o commands) s₀ t₀ (some (s.attempt act next))
      (some ((s.onWorld v).attempt act next)) := by
  refine .attempt hnext hact.answers fun s' hw hdomains => (h.of_matches ?_ ?_ ?_ ?_).ahead
  · rw [hw]
    exact hact.leaves
  · rw [hw]
    exact hact.workerCount
  · rw [hw]
    exact hact.receiverCount
  · rw [hdomains]
    exact fun _ hr => hr

theorem letGo (h : s.Tracks o commands v) (name : String) :
    ∃ v', (s.onWorld v).letGo name = (s.letGo name).onWorld v' ∧
      (s.letGo name).Tracks o commands v' ∧
        (s.letGo name).world.workerCount = s.world.workerCount := by
  simp only [State.letGo, State.onWorld]
  cases s.domains.get? name with
  | none => exact ⟨v, rfl, h, rfl⟩
  | some d =>
    obtain ⟨hworkers, hreceivers⟩ := h.worlds.counts_letGo d
    exact ⟨v.letGo d, rfl, h.of_matches (h.worlds.letGo d) hworkers hreceivers
      fun _ hr => Registers.mem_of_mem_erase hr, hworkers⟩

theorem putDomain (h : s.Tracks o commands v) (hd : d < s.world.workerCount) (name : String) :
    (s.putDomain name d).Tracks o commands v := by
  refine ⟨h.worlds, fun r hr => ?_, h.owned, h.known, h.apart⟩
  rcases Registers.mem_put hr with rfl | hr
  · exact hd
  · exact h.started r hr

/-- A texture can go out of both sessions. -/
theorem erase (h : s.Tracks o commands v) (t : String) :
    { s with textures := s.textures.erase t }.Tracks o commands v :=
  h.of_matches h.worlds rfl rfl fun _ hr => hr

theorem start (h : s.Tracks o commands v) (name : String) (device : Nat) :
    Both (Ahead o commands) s (s.onWorld v) (s.step (.start name device))
      ((s.onWorld v).step (.start name device)) := by
  obtain ⟨v', hletGo, h', -⟩ := h.letGo name
  have hnumber : (v'.startWorker name device).1 =
      ((s.letGo name).world.startWorker name device).1 := h'.worlds.workerCount
  have hstarted : ((s.letGo name).onWorld
      ((s.letGo name).world.startWorker name device).2).Tracks o commands
      (v'.startWorker name device).2 :=
    ⟨h'.worlds.startWorker name device, fun r hr => Nat.lt_succ_of_lt (h'.started r hr),
      h'.owned, h'.known, h'.apart⟩
  simp only [State.step, hletGo]
  rw [show ((s.letGo name).onWorld v').world = v' from rfl, hnumber]
  exact .answered (.ok (.label name)) (hstarted.putDomain (Nat.lt_succ_self _) name).ahead

theorem keep (h : s.Tracks o commands v) (name copy : String) :
    Both (Ahead o commands) s (s.onWorld v) (s.step (.keep name copy))
      ((s.onWorld v).step (.keep name copy)) := by
  refine .withDomain h.ahead fun d hd => ?_
  have hkept : (s.onWorld (s.world.keep d)).Tracks o commands (v.keep d) := by
    have hset := h.worlds.setWorker (d := d)
      (k := { s.world.workers d with handles := (s.world.workers d).handles + 1 }) rfl rfl
    refine h.of_matches ?_ rfl rfl fun _ hr => hr
    simp only [World.keep, h.worlds.workers d]
    exact hset
  obtain ⟨v', hletGo, h', hcount⟩ := hkept.letGo copy
  have hstarted : d < ((s.onWorld (s.world.keep d)).letGo copy).world.workerCount := by
    rw [hcount]
    exact h.started _ (Registers.mem_of_get? hd)
  simp only [show ((s.onWorld v).onWorld ((s.onWorld v).world.keep d)).letGo copy = _ from hletGo]
  rw [show ((((s.onWorld (s.world.keep d)).letGo copy).onWorld v').world.workers d) =
    v'.workers d from rfl, h'.worlds.workers d]
  exact .answered (.ok (.label _)) (h'.putDomain hstarted copy).ahead

/-- An operation that hands nothing in. -/
theorem calm (h : s.Tracks o commands v) (hcall : x.isCall = true) (hqueue : x.queue? = none) :
    Both (Ahead o commands) s (s.onWorld v) (s.step x) ((s.onWorld v).step x) := by
  cases x with
  | start name device => exact h.start name device
  | keep name copy => exact h.keep name copy
  | letGo name =>
    refine .withDomain h.ahead fun d hd => ?_
    obtain ⟨v', hletGo, h', -⟩ := h.letGo name
    rw [hletGo]
    exact .answered (.ok .done) h'.ahead
  | texture d t size | staging d t size =>
    exact .withDomain h.ahead fun d _ => h.attempt (newTexture_alike h.worlds d size)
      (noting_texture t)
  | openShare d t shared size =>
    exact .withDomain h.ahead fun d _ => h.attempt (openShare_alike h.worlds d shared size)
      (noting_texture t)
  | share d t =>
    exact .withTexture h.ahead fun d t _ _ => h.attempt (share_alike h.worlds d t)
      ⟨fun _ _ _ => rfl, fun _ _ => rfl⟩
  | aliasTexture t copy =>
    simp only [State.step, show (s.onWorld v).textures = s.textures from rfl]
    cases s.textures.get? t with
    | none => exact .missing h.ahead
    | some t =>
      have hput : (putTexture copy t s).2.Tracks o commands v :=
        h.of_matches h.worlds rfl rfl fun _ hr => hr
      exact .answered (.ok (.texture t)) hput.ahead
  | map d t =>
    exact .withTexture h.ahead fun d _ _ _ => h.attempt (complete_alike h.worlds d) noting_done
  | freeTexture d t =>
    refine .withTexture h.ahead fun d texture _ _ => ?_
    exact (h.erase t).attempt (freeTexture_alike h.worlds d texture) noting_done
  | freeStaging d t =>
    refine .withTexture h.ahead fun d _ _ _ => ?_
    exact (h.erase t).attempt (countDestroyed_alike h.worlds d) noting_done
  | write | convert | read | copy => cases hqueue
  | _ => cases hcall

/-- One more command was accepted. -/
theorem enqueue (h : s.Tracks o commands v) (hw : s'.world = s.world.enqueue d c)
    (hdomains : s'.domains = s.domains) (hc : s.world.Admissible d c)
    (hown : ∀ i ∈ c.storages, o.storage i = d) :
    s'.Tracks (o.claim d c) (commands ++ [(d, c)]) ((v.enqueue d c).drain d) := by
  have holder (a : Nat × Command) (ha : a ∈ commands) (r : Nat) (hr : c.receiver? = some r) :
      a.2.receiver? ≠ some r := fun hr' =>
    Nat.lt_irrefl _ (hc.fresh r hr ▸ h.known a ha r hr')
  have hcount : s'.world.receiverCount =
      s.world.receiverCount + c.receiver?.toList.length := by
    rw [hw]
    exact World.receiverCount_await hc.fresh
  refine ⟨hw ▸ h.worlds.enqueue hc hown, fun r hr => ?_, fun a ha => ?_, fun a ha r hr => ?_, ?_⟩
  · rw [hw, World.workerCount_enqueue]
    exact h.started r (hdomains ▸ hr)
  · rcases List.mem_append.1 ha with ha | ha
    · exact (h.owned a ha).claim (holder a ha)
    · rw [List.mem_singleton.1 ha]
      exact ⟨hown, fun r hr => if_pos hr⟩
  · rw [hcount]
    rcases List.mem_append.1 ha with ha | ha
    · exact Nat.lt_add_right _ (h.known a ha r hr)
    · rw [List.mem_singleton.1 ha] at hr
      rw [hr, hc.fresh r hr]
      exact Nat.lt_succ_self _
  · exact nodup_filterMap_snoc h.apart fun r hr a ha => holder a ha r hr

end Tracks

/-! ### Handing commands in -/

/-- A step changed nothing in a world, or had worker `d` accept the same command in both. -/
inductive Submitted (d : Nat) (s : State) (v : World) : State → State → Prop
  | refused {s' : State} (hw : s'.world = s.world) (hdomains : s'.domains = s.domains) :
    Submitted d s v s' (s'.onWorld v)
  | accepted {s' : State} {c : Command} (hw : s'.world = s.world.enqueue d c)
    (hdomains : s'.domains = s.domains) (hc : s.world.Admissible d c) :
    Submitted d s v s' (s'.onWorld (v.enqueue d c))

theorem Submitted.attempt {act : Attempt World α}
    (hact : Submits d s.world v (act s.world) (act v)) {next : α → State → Answer × State}
    (hnext : Noting next) :
    Both (Submitted d s v) s (s.onWorld v) (some (s.attempt act next))
      (some ((s.onWorld v).attempt act next)) := by
  apply Both.attempt hnext <;> generalize act s.world = r at hact ⊢ <;>
    generalize act v = r' at hact ⊢
  · cases hact <;> rfl
  · intro s' hw hdomains
    cases hact with
    | refused e => exact .refused hw hdomains
    | accepted a hc => exact .accepted hw hdomains hc

theorem Tracks.submitted (h : s.Tracks o commands v)
    (hshows : ∀ name t, s.textures.get? name = some t → Shows s.world t)
    (hx : x.queue? = some name) (hd : s.domains.get? name = some d) :
    Both (Submitted d s v) s (s.onWorld v) (s.step x) ((s.onWorld v).step x) := by
  have hstarted := h.started _ (Registers.mem_of_get? hd)
  have hnothing : Submitted d s v s (s.onWorld v) := .refused rfl rfl
  cases x with
  | write name t data | convert name t data =>
    cases hx
    refine .withTexture hnothing fun k texture hk ht => ?_
    obtain rfl := Option.some.inj (hd.symm.trans hk)
    exact Submitted.attempt (write_submits h.worlds hstarted (hshows t texture ht) data)
      noting_done
  | read name t r =>
    cases hx
    refine .withTexture hnothing fun k texture hk ht => ?_
    obtain rfl := Option.some.inj (hd.symm.trans hk)
    exact Submitted.attempt (read_submits h.worlds hstarted (hshows t texture ht))
      ⟨fun _ _ _ => rfl, fun _ _ => rfl⟩
  | copy name t dest region =>
    cases hx
    simp only [State.step, show (s.onWorld v).textures = s.textures from rfl]
    cases hdest : s.textures.get? dest with
    | none => exact .missing hnothing
    | some staging =>
      refine .withTexture hnothing fun k texture hk ht => ?_
      obtain rfl := Option.some.inj (hd.symm.trans hk)
      exact Submitted.attempt (stage_submits h.worlds hstarted (hshows t texture ht)
        (hshows dest staging hdest) region) noting_done
  | _ => cases hx

/-- A domain that does not exist is handed nothing. -/
theorem step_missing (hx : x.queue? = some name) (hd : s.domains.get? name = none) :
    s.step x = none := by
  cases x with
  | copy name t dest region =>
    cases hx
    simp only [State.step, State.withTexture, hd]
    cases s.textures.get? dest <;> rfl
  | write | convert | read =>
    cases hx
    simp only [State.step, State.withTexture, hd]
    rfl
  | _ => cases hx

theorem after_advance (s : State) (name : String) (limit : Option Nat) :
    s.after (.advance name limit) =
      match s.domains.get? name with
      | none => s
      | some d => s.onWorld (s.world.step d limit) := by
  simp only [after, State.step, State.withDomain]
  cases s.domains.get? name <;> rfl

/-- What a step hands in stands behind everything else. -/
theorem handed_eq (hx : x.queue? = some name) (hd : s.domains.get? name = some d)
    {new : List Command} (hnew : (s.after x).world.queue d = s.world.queue d ++ new) :
    s.handed x = new.map (d, ·) := by
  simp only [handed, hx, Option.bind_some, hd, hnew, List.drop_left]

/-- What a step hands in is executed at once. -/
theorem run_atOnce (hx : x.queue? = some name) (hd : (s.after x).domains.get? name = some d) :
    s.run x.atOnce = (s.after x).onWorld ((s.after x).world.drain d) := by
  have hadvance := after_advance (s.after x) name none
  simp only [hd, World.step_unlimited] at hadvance
  rw [Step.atOnce, hx, ← hadvance]
  rfl

/-- What a step comes to in both sessions, when the other one executes at once what the step hands
in. -/
structure Paired (o : Owners) (commands : List (Nat × Command)) (s : State) (v : World)
    (x : Step) : Prop where
  answer : (s.onWorld v).answer x = s.answer x
  handed : (s.onWorld v).handed x = s.handed x
  ahead : ∃ o', o'.storage = o.storage ∧
    Ahead o' (commands ++ s.handed x) (s.after x) ((s.onWorld v).run x.atOnce)

namespace Tracks

/-- A step that names a domain that does not exist, or hands nothing in. -/
theorem unhanded (hstep : Both (Ahead o commands) s (s.onWorld v) (s.step x) ((s.onWorld v).step x))
    (hnone : x.queue?.bind s.domains.get? = none)
    (hrun : (s.onWorld v).run x.atOnce = (s.onWorld v).after x) : Paired o commands s v x := by
  have hhanded : s.handed x = [] := by rw [handed, hnone]
  have hhanded' : (s.onWorld v).handed x = [] := by
    rw [handed, show x.queue?.bind (s.onWorld v).domains.get? = none from hnone]
  refine ⟨hstep.answer, hhanded'.trans hhanded.symm, o, rfl, ?_⟩
  rw [hhanded, List.append_nil, hrun]
  exact hstep.after

theorem submit (h : s.Tracks o commands v)
    (hshows : ∀ name t, s.textures.get? name = some t → Shows s.world t)
    (hx : x.queue? = some name) (hd : s.domains.get? name = some d)
    (hown : ∀ a ∈ (s.onWorld v).handed x, ∀ i ∈ a.2.storages, o.storage i = a.1) :
    Paired o commands s v x := by
  have hstep := h.submitted hshows hx hd
  have hafter := hstep.after
  -- what was handed in is read off the queues, and what the other session runs off its names
  have hhanded (new : List Command) (hq : (s.after x).world.queue d = s.world.queue d ++ new) :
      s.handed x = new.map (d, ·) := handed_eq hx hd hq
  have hhanded' (new : List Command) (hq : ((s.onWorld v).after x).world.queue d =
      v.queue d ++ new) : (s.onWorld v).handed x = new.map (d, ·) :=
    handed_eq (s := s.onWorld v) hx hd hq
  have hrun (hdomains : ((s.onWorld v).after x).domains = s.domains) :
      (s.onWorld v).run x.atOnce =
        ((s.onWorld v).after x).onWorld (((s.onWorld v).after x).world.drain d) :=
    run_atOnce hx (hdomains ▸ hd)
  have hanswer := hstep.answer
  generalize (s.onWorld v).after x = t' at hafter hhanded' hrun
  generalize hs' : s.after x = s' at hafter hhanded
  cases hafter with
  | refused hw hdomains =>
    have hnone : s.handed x = [] := hhanded [] (by rw [hw, List.append_nil])
    have hnone' : (s.onWorld v).handed x = [] := hhanded' [] (List.append_nil _).symm
    refine ⟨hanswer, hnone'.trans hnone.symm, o, rfl, v, ?_, ?_⟩
    · rw [hrun hdomains, hs']
      exact congrArg s'.onWorld (World.drain_idle (h.worlds.queue d))
    · rw [hnone, List.append_nil, hs']
      exact h.of_matches (hw ▸ h.worlds) (by rw [hw]) (by rw [hw]) fun _ hr => hdomains ▸ hr
  | accepted hw hdomains hc =>
    rename_i c
    have hone : s.handed x = [(d, c)] := hhanded [c] (by rw [hw, World.queue_enqueue, if_pos rfl])
    have hone' : (s.onWorld v).handed x = [(d, c)] :=
      hhanded' [c] ((World.queue_enqueue v c d d).trans (if_pos rfl))
    rw [hone'] at hown
    refine ⟨hanswer, hone'.trans hone.symm, o.claim d c, rfl, (v.enqueue d c).drain d, ?_, ?_⟩
    · rw [hrun hdomains, hs']
      rfl
    · rw [hone, hs']
      exact h.enqueue hw hdomains hc (hown (d, c) (List.mem_singleton_self _))

/-- **An operation is answered alike, and what it hands in is executed at once there.** -/
theorem step (h : s.Tracks o commands v)
    (hshows : ∀ name t, s.textures.get? name = some t → Shows s.world t) (hcall : x.isCall = true)
    (hown : ∀ a ∈ (s.onWorld v).handed x, ∀ i ∈ a.2.storages, o.storage i = a.1) :
    Paired o commands s v x := by
  cases hx : x.queue? with
  | none =>
    refine unhanded (h.calm hcall hx) (by rw [hx, Option.bind_none]) ?_
    rw [Step.atOnce, hx]
    rfl
  | some name =>
    cases hd : s.domains.get? name with
    | none =>
      have hs : s.step x = none := step_missing hx hd
      have ht : (s.onWorld v).step x = none := step_missing (s := s.onWorld v) hx hd
      refine unhanded (by rw [hs, ht]; exact .missing h.ahead) (by rw [hx, Option.bind_some, hd]) ?_
      have hafter : (s.onWorld v).after x = s.onWorld v := by rw [State.after, ht]; rfl
      have hadvance := after_advance (s.onWorld v) name none
      simp only [show (s.onWorld v).domains.get? name = none from hd] at hadvance
      rw [Step.atOnce, hx]
      show ((s.onWorld v).after x).after (.advance name none) = (s.onWorld v).after x
      rw [hafter, hadvance]
    | some d => exact h.submit hshows hx hd hown

/-- Whatever workers execute by themselves, the other session has executed before. -/
theorem advance (h : s.Tracks o commands v) (name : String) (limit : Option Nat) :
    (s.after (.advance name limit)).Tracks o commands v ∧
      s.onWorld v = (s.after (.advance name limit)).onWorld v := by
  rw [after_advance]
  split
  · exact ⟨h, rfl⟩
  · rename_i d hd
    have hstep := h.worlds.executeMany d (s.world.pace d limit)
    exact ⟨h.of_matches hstep (hstep.workerCount.symm.trans h.worlds.workerCount)
      (hstep.receiverCount.symm.trans h.worlds.receiverCount) fun _ hr => hr, rfl⟩

end Tracks
end

/-! ### Runs -/

section
variable {o : Owners} {commands : List (Nat × Command)} {s : State} {v : World} {name : String}

theorem Agreeing.shows {made opened : List Texture} (h : s.Agreeing made opened) {t : Texture}
    (ht : s.textures.get? name = some t) : Shows s.world t := by
  obtain ⟨u, hu, hstorage, hbytes⟩ := h.view ht
  obtain ⟨hlt, hlength⟩ := h.world.bytes u hu
  rw [hstorage] at hlt hlength
  exact ⟨hlt, hlength.trans hbytes⟩

theorem gather_append {β : Type} (f : State → Step → List β) (s : State) (first rest : List Step) :
    gather f s (first ++ rest) = gather f s first ++ gather f (s.run first) rest := by
  induction first generalizing s with
  | nil => rfl
  | cons x first ih =>
    show f s x ++ gather f (s.after x) (first ++ rest) = _
    rw [ih, ← List.append_assoc]
    rfl

/-- The worker that executes at once what it is handed gives nothing of its own. -/
theorem gather_atOnce {β : Type} {f : State → Step → List β}
    (hf : ∀ s d limit, f s (.advance d limit) = []) (s : State) (x : Step) :
    gather f s x.atOnce = f s x := by
  rw [Step.atOnce]
  cases x.queue? with
  | none => exact List.append_nil _
  | some d =>
    show f s x ++ (f (s.after x) (.advance d none) ++ []) = f s x
    rw [hf, List.append_nil, List.append_nil]

theorem gather_immediately {β : Type} {f : State → Step → List β}
    (hf : ∀ s d limit, f s (.advance d limit) = []) (s : State) (x : Step) (program : List Step) :
    gather f s (immediately (x :: program)) =
      f s x ++ gather f (s.run x.atOnce) (immediately program) := by
  rw [immediately, List.flatMap_cons, gather_append, gather_atOnce hf]
  rfl

theorem run_immediately (s : State) (x : Step) (program : List Step) :
    s.run (immediately (x :: program)) = (s.run x.atOnce).run (immediately program) := by
  rw [immediately, List.flatMap_cons]
  exact List.foldl_append

/-- What a run comes to in both sessions. -/
structure Reaches (o : Owners) (commands : List (Nat × Command)) (s : State) (v : World)
    (steps program : List Step) : Prop where
  results : (s.onWorld v).results (immediately program) = s.results steps
  accepted : (s.onWorld v).accepted (immediately program) = s.accepted steps
  ahead : ∃ o', o'.storage = o.storage ∧
    Ahead o' (commands ++ s.accepted steps) (s.run steps) ((s.onWorld v).run (immediately program))

theorem Tracks.run {made opened : List Texture} (h : s.Tracks o commands v)
    (hs : s.Agreeing made opened) {steps program : List Step}
    (hsteps : steps.filter (!·.isAdvance) = program) (hcalls : ∀ x ∈ program, x.isCall = true)
    (hown : ∀ a ∈ (s.onWorld v).accepted (immediately program), ∀ i ∈ a.2.storages,
      o.storage i = a.1) : Reaches o commands s v steps program := by
  induction steps generalizing o commands s v made opened program with
  | nil =>
    subst hsteps
    refine ⟨rfl, rfl, o, rfl, v, rfl, ?_⟩
    show s.Tracks o (commands ++ []) v
    rwa [List.append_nil]
  | cons x steps ih =>
    have hs' := hs.run [x]
    cases hx : x.isAdvance with
    | true =>
      obtain ⟨d, limit, rfl⟩ : ∃ d limit, x = .advance d limit := by
        cases x with
        | advance d limit => exact ⟨d, limit, rfl⟩
        | _ => cases hx
      obtain ⟨h', hsame⟩ := h.advance d limit
      rw [List.filter_cons_of_neg (by simp [Step.isAdvance])] at hsteps
      rw [hsame] at hown
      obtain ⟨hr, ha, ht⟩ := ih h' hs' hsteps hcalls hown
      rw [← hsame] at hr ha ht
      exact ⟨hr, ha, ht⟩
    | false =>
      rw [List.filter_cons_of_pos (by simp [hx])] at hsteps
      subst hsteps
      obtain ⟨hcall, hcalls⟩ := List.forall_mem_cons.1 hcalls
      have hresults := gather_immediately (f := answer) (fun _ _ _ => rfl) (s.onWorld v) x
        (steps.filter (!·.isAdvance))
      have haccepted := gather_immediately (f := State.handed) (fun _ _ _ => rfl) (s.onWorld v) x
        (steps.filter (!·.isAdvance))
      rw [accepted, haccepted] at hown
      obtain ⟨hanswer, hhanded, o', ho, v', hrun, h'⟩ := h.step (fun _ _ ht => hs.shows ht) hcall
        fun a ha => hown a (List.mem_append_left _ ha)
      rw [hrun] at hown hresults haccepted
      obtain ⟨hr, ha, o'', ho', v'', ht, h''⟩ := ih h' hs' rfl hcalls
        fun a ha i hi => (congrFun ho i).trans (hown a (List.mem_append_right _ ha) i hi)
      refine ⟨?_, ?_, o'', ho'.trans ho, v'', ?_, ?_⟩
      · rw [results, hresults, hanswer]
        exact congrArg (s.answer x ++ ·) hr
      · rw [accepted, haccepted, hhanded]
        exact congrArg (s.handed x ++ ·) ha
      · rw [run_immediately, hrun]
        exact ht
      · rw [List.append_assoc] at h''
        exact h''

end

theorem tracks_blank (o : Owners) : ({} : State).Tracks o [] {} :=
  ⟨World.matches_blank o, fun _ hr => (by cases hr), fun _ ha => (by cases ha),
    fun _ ha => (by cases ha), .nil⟩

end State

/-- When no storage is named by the commands of two workers, every storage has an owner. -/
theorem Separate.owner {commands : List (Nat × Command)} (h : Separate commands) :
    ∃ owner : Nat → Nat, ∀ a ∈ commands, ∀ i ∈ a.2.storages, owner i = a.1 := by
  have hone (i : Nat) : ∃ d, ∀ a ∈ commands, i ∈ a.2.storages → d = a.1 := by
    by_cases hnamed : ∃ a ∈ commands, i ∈ a.2.storages
    · obtain ⟨a, ha, hi⟩ := hnamed
      exact ⟨a.1, fun b hb hi' => h a ha b hb i hi hi'⟩
    · exact ⟨0, fun a ha hi => absurd ⟨a, ha, hi⟩ hnamed⟩
  choose owner howner using hone
  exact ⟨owner, fun a ha i hi => howner i a ha hi⟩

namespace State

/-- **Commands might as well be executed when they are handed in.** Let no storage be named by the
commands of two workers in a program in which no worker is killed, and let the workers execute what
they have accepted at any times between its operations. Every operation answers as if each command
had been executed at once, and the same commands are accepted. When everything has executed, the
two sessions are the same, every storage included. The storages and receivers of one worker are so
already when that worker has executed everything: each read has a receiver of its own, waits in the
queue once or is done, and delivers what it delivers at once. When the last handle to a worker goes,
everything it accepted is done. -/
theorem executed_as_submitted (program steps : List Step)
    (hcalls : ∀ x ∈ program, x.isCall = true)
    (hseparate : Separate (accepted {} (immediately program)))
    (hschedule : steps.filter (!·.isAdvance) = program) :
    let s := ({} : State).run steps
    let t := ({} : State).run (immediately program)
    let commands := accepted {} (immediately program)
    results {} steps = results {} (immediately program) ∧
    accepted {} steps = commands ∧
    (∀ d, t.world.queue d = []) ∧
    s.onWorld s.world.drainAll = t ∧
    (commands.filterMap (·.2.receiver?)).Nodup ∧
    (∀ d c, (d, c) ∈ commands →
      (∀ i ∈ c.storages, (s.world.drain d).storages i = t.world.storages i) ∧
      ∀ r, c.receiver? = some r → ∃ data, t.world.receivers r = .delivered data ∧
        (s.world.drain d).receivers r = .delivered data ∧
        (s.world.receivers r = .pending ∧ (s.world.awaited d).count r = 1 ∨
          s.world.receivers r = .delivered data ∧ (s.world.awaited d).count r = 0)) ∧
    ∀ name d, s.domains.get? name = some d → (s.world.workers d).handles ≤ 1 →
      (s.letGo name).world.queue d = [] ∧
      ∀ c, (d, c) ∈ commands →
        (∀ i ∈ c.storages, (s.letGo name).world.storages i = t.world.storages i) ∧
        ∀ r, c.receiver? = some r → (s.letGo name).world.receivers r = t.world.receivers r := by
  intro s t commands
  obtain ⟨owner, howner⟩ := hseparate.owner
  obtain ⟨hresults, haccepted, o, -, v, hrun, h⟩ :=
    (tracks_blank ⟨owner, fun _ => 0⟩).run agreeing_blank hschedule hcalls howner
  have ht : t = s.onWorld v := hrun
  have hv : t.world = v := by rw [ht]; rfl
  have hcommands : commands = accepted {} steps := haccepted
  rw [List.nil_append, ← hcommands] at h
  rw [hv]
  refine ⟨hresults.symm, hcommands.symm, h.worlds.toBooks.queue, ?_, h.apart,
    fun d c hc => ⟨fun i hi => ?_, fun r hr => ?_⟩, fun name d hd hlast => ?_⟩
  · rw [ht, h.worlds.drainAll]
  · exact ((h.worlds.drain d).agree (queue_drain _ d)).storages i ((h.owned _ hc).storages i hi)
  · have hown : o.receiver r = d := (h.owned _ hc).receiver r hr
    have hknown := h.known _ hc r hr
    rw [← h.worlds.receiverCount] at hknown
    obtain ⟨data, hdata⟩ := h.worlds.delivered r hknown
    refine ⟨data, hdata, ?_, hdata ▸ h.worlds.receiver hown⟩
    rw [← hdata]
    exact ((h.worlds.drain d).agree (queue_drain _ d)).receivers r hown
  · obtain ⟨hidle, hagree⟩ := h.worlds.agree_letGo hlast
    have hletGo : (s.letGo name).world = s.world.letGo d := by
      simp only [State.letGo, hd]
    rw [hletGo]
    exact ⟨hidle, fun c hc => ⟨fun i hi => hagree.storages i ((h.owned _ hc).storages i hi),
      fun r hr => hagree.receivers r ((h.owned _ hc).receiver r hr)⟩⟩

/-- Domain `a` shares a texture. Domain `b` opens it as a column, writes it, copies its first pixel,
reads the copy and destroys the column, while `a` works on a texture of its own. -/
def column : List Step :=
  [.start "a" 0, .start "b" 0, .texture "a" "row" ⟨2, 1⟩, .share "a" "row",
    .openShare "b" "column" 1 ⟨1, 2⟩, .staging "b" "copy" ⟨2, 1⟩, .texture "a" "own" ⟨1, 1⟩,
    .write "b" "column" [1, 2, 3, 4, 5, 6, 7, 8], .write "a" "own" [9, 9, 9, 9],
    .copy "b" "column" "copy" ⟨1, 1⟩, .read "b" "copy" "r", .freeTexture "b" "column",
    .read "a" "own" "q", .write "b" "copy" [0, 0, 0, 0, 0, 0, 0, 0]]

/-- Worker `b` writes the column before anything else is handed in, and copies from it when it is
destroyed already. -/
def columnLate : List Step :=
  column.take 9 ++ .advance "b" (some 1) :: column.drop 9 ++ [.advance "b" (some 1)]

/-- The read waits ahead of the write that was handed in behind it, and delivers the copy, also when
the domain is let go of. -/
theorem executed_as_submitted_column :
    let s := ({} : State).run columnLate
    s.world.receivers 0 = .pending ∧
    (s.world.drain 1).receivers 0 = .delivered [1, 2, 3, 4, 0, 0, 0, 0] ∧
    (s.letGo "b").world.receivers 0 = .delivered [1, 2, 3, 4, 0, 0, 0, 0] ∧
    s.world.drainAll.storages 0 = [1, 2, 3, 4, 5, 6, 7, 8] := by
  obtain ⟨-, -, -, hall, -, hcommands, hletGo⟩ :=
    executed_as_submitted column columnLate (by decide) (by decide) rfl
  have hread : (1, Command.read 1 0) ∈ accepted {} (immediately column) := by
    show _ ∈ [_, _, _, (1, Command.read 1 0), _, _]
    simp
  obtain ⟨data, hdata, hdrained, -⟩ := (hcommands 1 _ hread).2 0 rfl
  have ht : (({} : State).run (immediately column)).world.receivers 0 =
      .delivered [1, 2, 3, 4, 0, 0, 0, 0] := rfl
  refine ⟨rfl, ?_, ?_, ?_⟩
  · rw [hdrained, ← hdata, ht]
  · exact (((hletGo "b" 1 rfl (by decide)).2 _ hread).2 0 rfl).trans ht
  · exact congrFun (congrArg (·.world.storages) hall) 0

end State
end SurfaceRelay.Session.SoftDomains
