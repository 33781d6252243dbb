import SurfaceRelay.Proofs.Pool.Course
import SurfaceRelay.Proofs.Soft.Accepting
import SurfaceRelay.Proofs.Soft.Watched

/-! What lasts whatever is done with watched domains.

Everything that is done with them comes down to three kinds of step: an event happens, a call is
answered at once (`Prompt`), or a delivery is taken out of its receiver. A map is events only, and
so is giving way: that much needs no more than what workers do on their own (`Watched.Working`).
What all three kinds of step keep (`Watched.Lasting`) lasts through every request of a pool and
through everything an embedder does (`Lasting.backend`, `Lasting.perform`).

Of the account of one worker there is less to show: a worker takes commands, executes the oldest,
or dies (`Worker.Kept`), and what happens to the other workers does not matter to it. -/
namespace SurfaceRelay.Soft
variable {α : Type} {w : World} {d : Nat} {given : List Texture}

namespace Watched

/-- A property of watched worlds that workers keep, whatever they do and whenever they do it. -/
structure Working (J : Watched → Prop) : Prop where
  reschedule : ∀ (x : Watched) (schedule : List (List Event)), J x → J { x with schedule }
  happen : ∀ (x : Watched) (e : Event), J x → J (x.happen e)

namespace Working
variable {J : Watched → Prop} (h : Working J)
include h

theorem elapse (events : List Event) {x : Watched} (hx : J x) : J (x.elapse events) := by
  induction events generalizing x with
  | nil => exact hx
  | cons e events ih => exact ih (h.happen x e hx)

theorem yield {x : Watched} (hx : J x) : J x.yield := by
  simp only [Watched.yield]
  split
  · exact hx
  · exact h.elapse _ (h.reschedule x _ hx)

theorem executeMany (d n : Nat) {x : Watched} (hx : J x) : J (x.executeMany d n) := by
  induction n generalizing x with
  | zero => exact hx
  | succ n ih => exact ih (h.happen x (.execute d) hx)

/-- A call keeps it when it does so once the workers have had their turn. -/
theorem call_of_entered {act : Attempt World α}
    (hact : ∀ x : Watched, J x → J (x.enter (Attempt.leaves (act x.world)))) :
    (call act).Keeps J := by
  refine Attempt.keeps_of_leaves fun x hx => ?_
  have hentered := hact x.yield (h.yield hx)
  simp only [Watched.call]
  cases hr : act x.yield.world <;> rwa [hr] at hentered

theorem finish (d : Nat) : (finish d).Keeps J := by
  refine Attempt.keeps_of_leaves fun x hx => ?_
  have hdrained : J (x.yield.drain d) := h.executeMany d _ (h.yield hx)
  simp only [Watched.finish]
  split
  · exact h.yield hx
  · exact h.happen _ (.kill d) hdrained
  · split <;> exact hdrained

end Working

/-- A property of watched worlds that every kind of step keeps. -/
structure Lasting (J : Watched → Prop) : Prop extends Working J where
  prompt : ∀ {α : Type} {given : List Texture} {act : Attempt World α}, Prompt given act →
    ∀ x : Watched, J x → J (x.enter (Attempt.leaves (act x.world)))
  receive : ∀ (x : Watched) (r : Nat), J x → J { x with world := (x.world.receive r).2 }

namespace Lasting
variable {J : Watched → Prop} (h : Lasting J)
include h

theorem call {act : Attempt World α} (hact : Prompt given act) : (call act).Keeps J :=
  h.call_of_entered fun x hx => h.prompt hact x hx

theorem blockOn (d : Nat) : (blockOn d).Keeps J :=
  Attempt.keeps_bind (h.call (.alive d _)) fun _ => h.finish d

/-- It lasts through everything that a pool asks of its domains. -/
theorem backend (p c : Nat) : (backend p c).Keeps J where
  newTexture size := h.call (.newTexture p size)
  share t := h.call (.share p t)
  newStaging size := h.call (.newTexture p size)
  newMarker := h.call (.newMarker p)
  openShare shared size := h.call (.openShare c shared size)
  newViewStaging size := h.call (.newTexture c size)
  freeTexture t := h.call (.freeTexture p t)
  freeStaging _ := h.call (.countDestroyed p)
  freeMarker _ := h.call (.countDestroyed p)
  freeView v := h.call (.freeTexture c v)
  freeViewStaging _ := h.call (.countDestroyed c)
  note _ _ hx := hx
  record := Attempt.keeps_inPlace fun m => h.call (.record p m)
  poll m := h.call (.poll p m)
  stage t s region := h.call (.stage p t s region)
  blockOn _ := h.blockOn p
  stageView v s region := h.call (.stage c v s region)
  blockOnView _ := h.blockOn c

/-- And through everything that an embedder does with them. -/
theorem perform (deed : Deed) {x : Watched} (hx : J x) : J (x.perform deed) := by
  cases deed with
  | newTexture d size => exact h.call (.newTexture d size) x hx
  | freeTexture d t => exact h.call (.freeTexture d t) x hx
  | share d t => exact h.call (.share d t) x hx
  | openShare d shared size => exact h.call (.openShare d shared size) x hx
  | write d t data => exact h.call (.write d t data) x hx
  | read d t => exact h.call (.read d t) x hx
  | copy d t s region => exact h.call (.stage d t s region) x hx
  | map d => exact h.blockOn d x hx
  | record d m => exact h.call (.record d m) x hx
  | poll d m => exact h.call (.poll d m) x hx
  | receive r => exact h.receive x r hx
  | happen e => exact h.happen x e hx

theorem meanwhile {x x' : Watched} (hmay : Meanwhile x x') (hx : J x) : J x' := by
  obtain ⟨deeds, rfl⟩ := hmay
  induction deeds generalizing x with
  | nil => exact hx
  | cons deed deeds ih => exact ih (h.perform deed hx)

end Lasting
end Watched

/-! ### The account of one worker -/

/-- The worker took its oldest command and carried it out. -/
structure Worker.Executes (k k' : Worker) (c : Command) : Prop where
  queue : k.queue = c :: k'.queue
  health : k'.health = k.health
  lastCount : k'.lastCount = k.lastCount
  retired : k'.retired = max k.retired (c.count?.getD 0)

/-- Carrying out a command of a worker does nothing to the others. -/
theorem World.workers_execute {w' : World} {c : Command} {rest : List Command}
    (hqueue : w.queue d = c :: rest) (h : (w.pop d rest).execute d c = some w') :
    ∃ k, (w.workers d).Executes k c ∧ w'.workers = Table.put w.workers d k := by
  have hidle (hcount : c.count? = none) :
      (w.workers d).Executes { w.workers d with queue := rest } c :=
    ⟨hqueue, rfl, rfl, by rw [hcount]; exact (Nat.max_zero _).symm⟩
  rcases World.execute_eq h with ⟨i, x, ht, -, rfl⟩ | ⟨i, r, rfl, rfl⟩ | ⟨n, rfl, rfl⟩
  · refine ⟨_, hidle ?_, rfl⟩
    cases c with
    | retire n => cases ht
    | _ => rfl
  · exact ⟨_, hidle rfl, rfl⟩
  · have hk : (w.pop d rest).workers d = { w.workers d with queue := rest } := Table.put_same ..
    rw [hk]
    exact ⟨{ w.workers d with queue := rest, retired := max (w.workers d).retired n },
      ⟨hqueue, rfl, rfl, rfl⟩, Table.put_put ..⟩

/-- What executing the oldest command of a worker does to the workers. -/
theorem World.workers_executeNext (w : World) (d : Nat) :
    w.next? d = none ∧ (w.executeNext d = w ∨ w.executeNext d = w.die d) ∨
    ∃ c k, w.next? d = some c ∧ (w.workers d).Executes k c ∧
      (w.executeNext d).workers = Table.put w.workers d k := by
  rcases World.executeNext_next w d with ⟨hnone, ⟨-, hsame⟩ | hdie⟩ | ⟨c, rest, hnext, hexecuted⟩
  · exact .inl ⟨hnone, .inl hsame⟩
  · exact .inl ⟨hnone, .inr hdie⟩
  · have hqueue := hexecuted.taken
    have hexec : (w.pop d rest).execute d c = some (w.executeNext d) := by
      have hsome := hnext
      simp only [World.next?, hqueue, Option.map_eq_some_iff] at hsome
      obtain ⟨w', hw', -⟩ := hsome
      simp only [World.executeNext, show (w.workers d).queue = c :: rest from hqueue]
      rw [show World.execute (w.setWorker d { w.workers d with queue := rest }) d c = _ from hw']
      exact hw'
    obtain ⟨k, hk, hworkers⟩ := World.workers_execute hqueue hexec
    exact .inr ⟨c, k, hnext, hk, hworkers⟩

/-- A property of a worker, of what it accepted and of what it executed, that its steps keep. -/
structure Worker.Kept (J : Worker → List Command → List Command → Prop) : Prop where
  takes : ∀ {k k' : Worker} {accepted executed new : List Command}, J k accepted executed →
    k.Takes k' new → J k' (accepted ++ new) executed
  executes : ∀ {k k' : Worker} {accepted executed : List Command} {c : Command},
    J k accepted executed → k.Executes k' c → J k' accepted (executed ++ [c])
  dies : ∀ {k : Worker} {accepted executed : List Command}, J k accepted executed →
    J { k with queue := [], health := .dead } accepted executed

namespace Watched

/-- What a worker takes goes on its account. -/
theorem accepted_enter {x : Watched} {new : List Command} {w : World}
    (htakes : (x.world.workers d).Takes (w.workers d) new) :
    (x.enter w).accepted d = x.accepted d ++ new := by
  show x.accepted d ++ (w.queue d).drop (x.world.queue d).length = _
  rw [World.queue, World.queue, htakes.queue, List.drop_left]

theorem executed_executeNext (x : Watched) (d e : Nat) : (x.executeNext e).executed d =
    if d = e then x.executed e ++ (x.world.next? e).toList else x.executed d := rfl

/-- The account of a worker has a property. -/
def Of (J : Worker → List Command → List Command → Prop) (d : Nat) (x : Watched) : Prop :=
  J (x.world.workers d) (x.accepted d) (x.executed d)

end Watched

namespace Worker.Kept
variable {J : Worker → List Command → List Command → Prop} (h : Kept J)
include h

theorem die {x : Watched} (hx : x.Of J d) (e : Nat) :
    Watched.Of J d { x with world := x.world.die e } := by
  show J ((x.world.die e).workers d) _ _
  rw [World.workers_die]
  split
  · rename_i hd
    exact hd ▸ h.dies hx
  · exact hx

theorem doom {x : Watched} (hx : x.Of J d) (e : Nat) :
    Watched.Of J d { x with world := x.world.doom e } := by
  show J ((x.world.doom e).workers d) _ _
  rw [World.doom, World.workers_setWorker]
  split
  · rename_i hd
    subst hd
    have htakes : (x.world.workers d).Takes
        { x.world.workers d with
          health := if (x.world.workers d).health = .dead then .dead else .doomed } [] := by
      refine Worker.takes_nothing rfl ?_ rfl (Nat.le_refl _)
      dsimp only
      split <;> simp_all
    simpa using h.takes hx htakes
  · exact hx

theorem executeNext {x : Watched} (hx : x.Of J d) (e : Nat) : (x.executeNext e).Of J d := by
  show J ((x.world.executeNext e).workers d) _ _
  rw [Watched.executed_executeNext]
  rcases World.workers_executeNext x.world e with ⟨hnone, hworld⟩ | ⟨c, k, hnext, hk, hworkers⟩
  · have hsame : (if d = e then x.executed e ++ (x.world.next? e).toList else x.executed d) =
        x.executed d := by
      rw [hnone]
      split
      · rename_i hd
        rw [hd]
        exact List.append_nil _
      · rfl
    rw [hsame]
    rcases hworld with hworld | hworld
    · rw [hworld]
      exact hx
    · rw [hworld]
      exact h.die hx e
  · rw [hworkers]
    by_cases hd : d = e
    · subst hd
      rw [Table.put_same, if_pos rfl, hnext]
      exact h.executes hx hk
    · rw [Table.put_other _ hd, if_neg hd]
      exact hx

/-- What the steps of a worker keep lasts whatever is done. -/
theorem lasting (d : Nat) : Watched.Lasting (Watched.Of J d) where
  reschedule _ _ hx := hx
  happen x e hx := by
    cases e with
    | execute e => exact h.executeNext hx e
    | kill e => exact h.die hx e
    | doom e => exact h.doom hx e
  prompt hact x hx := by
    obtain ⟨new, htakes⟩ := hact.takes x.world d
    show J _ ((x.enter _).accepted d) _
    rw [Watched.accepted_enter htakes]
    exact h.takes hx htakes
  receive x r hx := by
    have hworkers : (x.world.receive r).2.workers = x.world.workers := by
      simp only [World.receive]
      split <;> rfl
    show J ((x.world.receive r).2.workers d) _ _
    rw [hworkers]
    exact hx

/-- Handles are not on the account. -/
theorem setHandles {x : Watched} (hx : x.Of J d) (e handles : Nat) :
    Watched.Of J d
      { x with world := x.world.setWorker e { x.world.workers e with handles } } := by
  have hsame : (x.world.workers e).Takes { x.world.workers e with handles } [] :=
    Worker.takes_nothing rfl Iff.rfl rfl (Nat.le_refl _)
  show J ((x.world.setWorker e _).workers d) _ _
  rw [World.workers_setWorker]
  split
  · rename_i hd
    subst hd
    simpa using h.takes hx hsame
  · exact hx

theorem keep {x : Watched} (hx : x.Of J d) (e : Nat) : (x.keep e).Of J d :=
  h.setHandles ((h.lasting d).yield hx) e _

theorem letGo {x : Watched} (hx : x.Of J d) (e : Nat) : (x.letGo e).Of J d := by
  have hcounted := h.setHandles ((h.lasting d).yield hx) e
    ((x.yield.world.workers e).handles - 1)
  simp only [Watched.letGo]
  split
  · exact (h.lasting d).happen _ (.kill e) ((h.lasting d).executeMany e _ hcounted)
  · exact hcounted

end Worker.Kept
end SurfaceRelay.Soft
