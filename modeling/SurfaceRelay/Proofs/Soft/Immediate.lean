import SurfaceRelay.Proofs.Soft.Footprint

/-! Execution that does not wait.

A world is compared with one that has executed every command as soon as it was accepted
(`Matches`). When no two workers name the same storage, the commands that worker `d` has still to
execute decide alone what becomes of the storages of `d` (`World.fate`), and that is what the
other world holds already. Whatever workers execute changes no fate (`Matches.executeNext`). A
command that is accepted is the last part of the fate of its worker, and the other world executes
it at once (`Matches.enqueue`). -/
namespace SurfaceRelay.Soft

/-- The worker whose commands name a storage, and the worker that fills a receiver. -/
structure Owners where
  storage : Nat → Nat
  receiver : Nat → Nat

/-- Worker `d` gets to fill the receiver of a command. -/
def Owners.claim (o : Owners) (d : Nat) (c : Command) : Owners :=
  { o with receiver := fun r => if c.receiver? = some r then d else o.receiver r }

/-- The command names what worker `d` owns. -/
structure Command.Of (o : Owners) (d : Nat) (c : Command) : Prop where
  storages : ∀ i ∈ c.storages, o.storage i = d
  receiver : ∀ r, c.receiver? = some r → o.receiver r = d

/-- Receivers that the command does not fill can be claimed. -/
theorem Command.Of.claim {o : Owners} {d e : Nat} {c c' : Command} (h : c'.Of o e)
    (hfresh : ∀ r, c.receiver? = some r → c'.receiver? ≠ some r) : c'.Of (o.claim d c) e := by
  refine ⟨h.storages, fun r hr => ?_⟩
  have hne : c.receiver? ≠ some r := fun hc => hfresh r hc hr
  exact (if_neg hne).trans (h.receiver r hr)

/-- What one more element gives is not among what the others give. -/
theorem nodup_filterMap_snoc {α β : Type} {f : α → Option β} {xs : List α} {x : α}
    (h : (xs.filterMap f).Nodup) (hx : ∀ b, f x = some b → ∀ a ∈ xs, f a ≠ some b) :
    ((xs ++ [x]).filterMap f).Nodup := by
  rw [List.filterMap_append, List.nodup_append]
  refine ⟨h, ?_, fun b hb b' hb' heq => ?_⟩
  · cases hfx : f x <;> simp [hfx]
  · obtain ⟨a, ha, hab⟩ := List.mem_filterMap.1 hb
    obtain ⟨a', ha', hab'⟩ := List.mem_filterMap.1 hb'
    rw [List.mem_singleton.1 ha'] at hab'
    exact hx b' hab' a ha (heq ▸ hab)

namespace World

/-- The world after everything that worker `d` has accepted, as far as storages and receivers
go. -/
def fate (w : World) (d : Nat) : World := w.carryAll (w.queue d)

/-- The receivers that worker `d` has still to fill. -/
def awaited (w : World) (d : Nat) : List Nat := (w.queue d).filterMap Command.receiver?

/-- Two worlds agree on what worker `d` owns. -/
abbrev AgreeFor (o : Owners) (d : Nat) : World → World → Prop :=
  AgreeOn (o.storage · = d) (o.receiver · = d)

/-- Worker `d` can carry out a command that it has accepted, and nobody but its receiver waits
for it. -/
structure Pending (o : Owners) (w : World) (d : Nat) (c : Command) : Prop where
  own : c.Of o d
  fits : c.Fits fun i => (w.storages i).length
  known : ∀ i ∈ c.storages, i < w.storageCount
  receiver : ∀ r, c.receiver? = some r → r < w.receiverCount ∧ w.receivers r = .pending

/-- Workers and devices are the same, except that those of `v` have nothing to do. A worker that
has something to do was started and lives. -/
structure Books (w v : World) : Prop where
  devices : v.devices = w.devices
  workers : ∀ d, v.workers d = { w.workers d with queue := [] }
  workerCount : v.workerCount = w.workerCount
  busy : ∀ d, w.queue d ≠ [] → d < w.workerCount ∧ (w.workers d).health = .live
  doomed : ∀ d, (w.workers d).health ≠ .doomed

/-- World `v` is what becomes of world `w` when everything that was accepted executes. -/
structure Matches (o : Owners) (w v : World) : Prop extends Books w v where
  storageCount : v.storageCount = w.storageCount
  receiverCount : v.receiverCount = w.receiverCount
  lengths : ∀ i, (v.storages i).length = (w.storages i).length
  fates : ∀ d, AgreeFor o d (w.fate d) v
  pending : ∀ d, ∀ c ∈ w.queue d, Pending o w d c
  awaited : ∀ d, (w.awaited d).Nodup
  delivered : ∀ r < v.receiverCount, ∃ data, v.receivers r = .delivered data

variable {o : Owners} {w w' v v' : World} {d : Nat} {c : Command} {rest : List Command}

theorem Books.queue (h : Books w v) (d : Nat) : v.queue d = [] := by
  rw [World.queue, h.workers]

theorem matches_blank (o : Owners) : Matches o {} {} where
  devices := rfl
  workers _ := rfl
  workerCount := rfl
  busy _ h := absurd rfl h
  doomed _ := by simp
  storageCount := rfl
  receiverCount := rfl
  lengths _ := rfl
  fates _ := .of_eq rfl rfl
  pending _ _ hc := by cases hc
  awaited _ := .nil
  delivered _ hr := absurd hr (Nat.not_lt_zero _)

theorem drain_idle (h : w.queue d = []) : w.drain d = w := by
  rw [drain, show (w.workers d).queue = [] from h]
  rfl

theorem die_idle (h : w.queue d = []) :
    w.die d = w.setWorker d { w.workers d with queue := [], health := .dead } := by
  simp only [die, show (w.workers d).queue = [] from h]
  rfl

/-! ### Executing -/

theorem executeNext_fitting (hq : w.queue d = c :: rest)
    (h : c.Fits fun i => (w.storages i).length) : w.executeNext d = (w.pop d rest).carry c := by
  have hexecute : (w.pop d rest).execute d c = some ((w.pop d rest).carry c) :=
    execute_fitting (w := w.pop d rest) h d
  simp only [executeNext, show (w.workers d).queue = c :: rest from hq]
  rw [show (w.setWorker d { w.workers d with queue := rest }).execute d c = _ from hexecute]

namespace Matches

/-- What worker `e` owns stays the same when neither it nor its queue changes. -/
theorem fate_congr (h : Matches o w v) {e : Nat} (hagree : AgreeFor o e w' w)
    (hq : w'.queue e = w.queue e) : AgreeFor o e (w'.fate e) v := by
  rw [fate, hq]
  exact (hagree.carryAll fun c hc => (h.pending e c hc).own.storages).trans (h.fates e)

/-- A command that executes fills a receiver that no other command is to fill. -/
theorem receiver_ne (h : Matches o w v) (hq : w.queue d = c :: rest) {e r : Nat} {c' : Command}
    (hc' : c' ∈ if e = d then rest else w.queue e) (hr : c'.receiver? = some r) :
    c.receiver? ≠ some r := by
  intro hc
  have hown := (h.pending d c (hq ▸ List.mem_cons_self ..)).own.receiver r hc
  split at hc'
  · have hnodup := h.awaited d
    rw [World.awaited, hq, List.filterMap_cons_some hc] at hnodup
    exact (List.nodup_cons.1 hnodup).1 (List.mem_filterMap.2 ⟨c', hc', hr⟩)
  · rename_i hne
    exact hne (((h.pending e c' hc').own.receiver r hr).symm.trans hown)

theorem executed (h : Matches o w v) (hq : w.queue d = c :: rest) :
    Matches o ((w.pop d rest).carry c) v := by
  obtain ⟨hown, hfits, -, -⟩ := h.pending d c (hq ▸ List.mem_cons_self ..)
  have hqueue (e : Nat) : ((w.pop d rest).carry c).queue e = if e = d then rest else w.queue e := by
    rw [queue_carry, queue_pop]
  have hworkers (e : Nat) : ((w.pop d rest).carry c).workers e =
      { w.workers e with queue := ((w.pop d rest).carry c).queue e } := by
    rw [workers_carry, workers_pop, queue_carry]
  have hlengths (i : Nat) : (((w.pop d rest).carry c).storages i).length =
      (w.storages i).length := length_carry (w := w.pop d rest) hfits i
  have hmem {e : Nat} {c' : Command} (hc' : c' ∈ if e = d then rest else w.queue e) :
      c' ∈ w.queue e := by
    split at hc'
    · rename_i he
      rw [he, hq]
      exact List.mem_cons_of_mem _ hc'
    · exact hc'
  refine { devices := ?_, workers := fun e => ?_, workerCount := ?_, busy := fun e he => ?_,
           doomed := fun e => ?_, storageCount := ?_, receiverCount := ?_,
           lengths := fun i => (h.lengths i).trans (hlengths i).symm, fates := fun e => ?_,
           pending := fun e c' hc' => ?_, awaited := fun e => ?_, delivered := h.delivered }
  · rw [devices_carry]
    exact h.devices
  · rw [hworkers]
    exact h.workers e
  · rw [workerCount_carry]
    exact h.workerCount
  · obtain ⟨c', hc'⟩ := List.exists_mem_of_ne_nil _ he
    rw [hqueue] at hc'
    rw [workerCount_carry, hworkers]
    exact h.busy e (List.ne_nil_of_mem (hmem hc'))
  · rw [hworkers]
    exact h.doomed e
  · rw [storageCount_carry]
    exact h.storageCount
  · rw [receiverCount_carry]
    exact h.receiverCount
  · by_cases he : e = d
    · -- the command was the first part of this fate
      subst he
      have hfate := h.fates e
      rw [fate, hq] at hfate
      rw [fate, hqueue, if_pos rfl]
      have hstart : AgreeFor o e (w.pop e rest) w := .of_eq rfl rfl
      refine ((hstart.carry hown.storages fun r hr _ => hr).carryAll fun c' hc' => ?_).trans hfate
      exact (h.pending e c' (hq ▸ List.mem_cons_of_mem _ hc')).own.storages
    · refine h.fate_congr ?_ (by rw [hqueue, if_neg he])
      refine (agree_carry (fun i hi hi' => he ?_) fun r hr hr' => he ?_).trans (.of_eq rfl rfl)
      · rw [← hi', hown.storages i hi]
      · rw [← hr', hown.receiver r hr]
  · rw [hqueue] at hc'
    obtain ⟨hown', hfits', hknown', hreceiver'⟩ := h.pending e c' (hmem hc')
    refine ⟨hown', hfits'.congr fun i _ => hlengths i, ?_, fun r hr => ?_⟩
    · rw [storageCount_carry]
      exact hknown'
    · have hsame : AgreeOn (fun _ => False) (· = r) ((w.pop d rest).carry c) (w.pop d rest) :=
        agree_carry (fun _ _ hi => hi) fun r' hr' heq => h.receiver_ne hq hc' hr (heq ▸ hr')
      rw [receiverCount_carry, hsame.receivers r rfl]
      exact hreceiver' r hr
  · rw [World.awaited, hqueue]
    split
    · have hnodup := h.awaited d
      rw [World.awaited, hq] at hnodup
      exact hnodup.sublist ((List.sublist_cons_self c rest).filterMap _)
    · exact h.awaited e

/-- Whatever a worker executes changes no fate. -/
theorem executeNext (h : Matches o w v) (d : Nat) : Matches o (w.executeNext d) v := by
  cases hq : w.queue d with
  | nil =>
    rw [World.executeNext, show (w.workers d).queue = [] from hq]
    exact h
  | cons c rest =>
    rw [executeNext_fitting hq (h.pending d c (hq ▸ List.mem_cons_self ..)).fits]
    exact h.executed hq

theorem executeMany (h : Matches o w v) (d n : Nat) : Matches o (w.executeMany d n) v := by
  induction n generalizing w with
  | zero => exact h
  | succ n ih => exact ih (h.executeNext d)

theorem drain (h : Matches o w v) (d : Nat) : Matches o (w.drain d) v := h.executeMany d _

/-- Where a worker has nothing left to do, its storages and receivers are as they will be. -/
theorem agree (h : Matches o w v) (hq : w.queue d = []) : AgreeFor o d w v := by
  have hfate := h.fates d
  rwa [fate, hq] at hfate

/-- A receiver waits as long as its read does, and is filled for good afterwards. -/
theorem receiver (h : Matches o w v) {r : Nat} (hd : o.receiver r = d) :
    w.receivers r = .pending ∧ (w.awaited d).count r = 1 ∨
      w.receivers r = v.receivers r ∧ (w.awaited d).count r = 0 := by
  by_cases hmem : r ∈ w.awaited d
  · obtain ⟨c, hc, hcr⟩ := List.mem_filterMap.1 hmem
    exact .inl ⟨((h.pending d c hc).receiver r hcr).2, List.count_eq_one_of_mem (h.awaited d) hmem⟩
  · have hsame : AgreeOn (fun _ => False) (· = r) (w.fate d) w := by
      refine agree_carryAll (fun _ _ _ _ hi => hi) fun c hc r' hr' heq => hmem ?_
      exact List.mem_filterMap.2 ⟨c, hc, heq ▸ hr'⟩
    refine .inr ⟨?_, List.count_eq_zero.2 hmem⟩
    rw [← hsame.receivers r rfl, (h.fates d).receivers r hd]

/-- A world in which nothing is left to do is the other one. -/
theorem eq_of_idle (h : Matches o w v) (hidle : ∀ d, w.queue d = []) : w = v := by
  have hworkers : w.workers = v.workers := by
    funext d
    rw [h.workers, ← hidle d]
    rfl
  have hstorages : w.storages = v.storages :=
    funext fun i => (h.agree (hidle _)).storages i rfl
  have hreceivers : w.receivers = v.receivers :=
    funext fun r => (h.agree (hidle _)).receivers r rfl
  have hdevices := h.devices
  have hworkerCount := h.workerCount
  have hstorageCount := h.storageCount
  have hreceiverCount := h.receiverCount
  cases w
  cases v
  cases hworkers
  cases hstorages
  cases hreceivers
  cases hdevices
  cases hworkerCount
  cases hstorageCount
  cases hreceiverCount
  rfl

end Matches

/-! ### Executing everything -/

theorem step_unlimited (w : World) (d : Nat) : w.step d none = w.drain d := by
  rw [step, pace, Option.getD_none, Nat.min_self, drain]

/-- Every worker executes everything it has accepted. -/
def drainAll (w : World) : World := (List.range w.workerCount).foldl World.drain w

/-- A worker that has nothing to do gets nothing while others execute. -/
theorem queue_drain_idle (hidle : w.queue d = []) (e : Nat) : (w.drain e).queue d = [] := by
  have hmany (n : Nat) : (w.executeMany e n).queue d = [] := by
    induction n generalizing w with
    | zero => exact hidle
    | succ n ih =>
      obtain ⟨gone, hgone⟩ := (progress_executeNext w e).queues d
      rw [hidle] at hgone
      exact ih (List.append_eq_nil_iff.1 hgone.symm).2
  exact hmany _

theorem queue_foldl_drain {ds : List Nat} (h : d ∈ ds ∨ w.queue d = []) :
    (ds.foldl World.drain w).queue d = [] := by
  induction ds generalizing w with
  | nil => exact h.resolve_left List.not_mem_nil
  | cons e ds ih =>
    refine ih ?_
    rcases h with hmem | hidle
    · rcases List.mem_cons.1 hmem with rfl | hmem
      · exact .inr (queue_drain w d)
      · exact .inl hmem
    · exact .inr (queue_drain_idle hidle e)

/-- When everything has executed, the worlds are the same. -/
theorem Matches.drainAll (h : Matches o w v) : w.drainAll = v := by
  have hfold (ds : List Nat) : Matches o (ds.foldl World.drain w) v := by
    induction ds generalizing w with
    | nil => exact h
    | cons d ds ih => exact ih (h.drain d)
  refine (hfold _).eq_of_idle fun d => queue_foldl_drain ?_
  rw [List.mem_range]
  by_contra hne
  obtain ⟨hstarted, hbusy⟩ := not_or.1 hne
  exact hstarted (h.busy d hbusy).1

end World
end SurfaceRelay.Soft
