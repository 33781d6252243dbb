import SurfaceRelay.Proofs.Soft.Concurrent

/-! What can happen to a world.

`Sound` says what holds of a world that is only worked on through its domains: commands name
what exists, a dead worker has no commands, and markers retire in the order of their counts.
`Progress` says, once for all events, what may be different afterwards: queues lose commands
at their front only, a storage changes only when a command that targets it executes, and a
receiver gets what the storage held when its read executed. -/
namespace SurfaceRelay.Soft

/-- The storage that the command changes. -/
def Command.target? : Command → Option Nat
  | .write storage _ => some storage
  | .copy _ target _ => some target.storage
  | .read .. | .retire _ => none

def Command.count? : Command → Option Nat
  | .retire count => some count
  | _ => none

/-- What storage `i`, holding `x`, holds once the writes of a queue have executed. -/
def settle (i : Nat) : List Command → Pixels → Pixels
  | [], x => x
  | .write storage data :: rest, x => settle i rest (if storage = i then data else x)
  | _ :: rest, x => settle i rest x

theorem settle_append (i : Nat) (first rest : List Command) (x : Pixels) :
    settle i (first ++ rest) x = settle i rest (settle i first x) := by
  induction first generalizing x with
  | nil => rfl
  | cons c first ih => cases c <;> exact ih _

/-- A command that is no write to the storage does not change what it settles to. -/
theorem settle_cons {i : Nat} {c : Command} (h : ∀ data, c ≠ .write i data)
    (rest : List Command) (x : Pixels) : settle i (c :: rest) x = settle i rest x := by
  cases c with
  | write storage data =>
    by_cases hs : storage = i
    · subst hs
      exact absurd rfl (h data)
    · simp only [settle, if_neg hs]
  | _ => rfl

namespace World

def queue (w : World) (d : Nat) : List Command := (w.workers d).queue

def Dead (w : World) (d : Nat) : Prop := (w.workers d).health = .dead

structure Sound (w : World) : Prop where
  targets : ∀ d, ∀ c ∈ w.queue d, ∀ i, c.target? = some i → i < w.storageCount
  reads : ∀ d i r, .read i r ∈ w.queue d → i < w.storageCount ∧ r < w.receiverCount
  dead : ∀ d, w.Dead d → w.queue d = []
  counts : ∀ d, ((w.queue d).filterMap Command.count?).Pairwise (· < ·)
  pending : ∀ d n, .retire n ∈ w.queue d → (w.workers d).retired < n ∧ n ≤ (w.workers d).lastCount
  retired : ∀ d, (w.workers d).retired ≤ (w.workers d).lastCount

/-- Storage `i` is changed by writes of worker `c` only. -/
def WrittenBy (w : World) (c i : Nat) : Prop :=
  ∀ d, ∀ cmd ∈ w.queue d, cmd.target? = some i → d = c ∧ ∃ data, cmd = .write i data

/-- No command that is still to execute changes storage `i`. -/
def Unwritten (w : World) (i : Nat) : Prop := ∀ d, ∀ cmd ∈ w.queue d, cmd.target? ≠ some i

/-- What may have become of a world while its workers worked. -/
structure Progress (w w' : World) : Prop where
  queues : ∀ d, ∃ gone, w.queue d = gone ++ w'.queue d
  devices : w'.devices = w.devices
  device : ∀ d, (w'.workers d).device = (w.workers d).device
  storageCount : w'.storageCount = w.storageCount
  receiverCount : w'.receiverCount = w.receiverCount
  dead : ∀ d, w.Dead d → w'.Dead d
  unwritten : ∀ i, w.Unwritten i → w'.storages i = w.storages i
  settled : ∀ c i, w.WrittenBy c i →
    w'.Dead c ∨ settle i (w'.queue c) (w'.storages i) = settle i (w.queue c) (w.storages i)
  receivers : ∀ r, w'.receivers r = w.receivers r ∨ w'.receivers r = .closed ∨
    ∃ d i, .read i r ∈ w.queue d ∧ w'.receivers r = .delivered (w.storages i)
  sound : w.Sound → w'.Sound

theorem Progress.refl (w : World) : w.Progress w :=
  ⟨fun _ => ⟨[], rfl⟩, rfl, fun _ => rfl, rfl, rfl, fun _ h => h, fun _ _ => rfl,
    fun _ _ _ => .inr rfl, fun _ => .inl rfl, id⟩

/-- What is queued afterwards was queued before. -/
theorem Progress.mem {w w' : World} (h : w.Progress w') {d : Nat} {c : Command}
    (hc : c ∈ w'.queue d) : c ∈ w.queue d := by
  obtain ⟨gone, hq⟩ := h.queues d
  rw [hq]
  exact List.mem_append_right _ hc

/-! ### Changing one entry -/

variable (w : World)

theorem workers_setWorker (d e : Nat) (k : Worker) :
    (w.setWorker d k).workers e = if e = d then k else w.workers e := rfl

theorem queue_setWorker (d e : Nat) (k : Worker) :
    (w.setWorker d k).queue e = if e = d then k.queue else w.queue e := by
  simp only [queue, workers_setWorker]
  split <;> rfl

/-! ### Every event -/

/-- A world stays sound when its queues lose commands at their front. -/
theorem Sound.shrink {w w' : World} (h : w.Sound) (hq : ∀ d, ∃ gone, w.queue d = gone ++ w'.queue d)
    (hstorages : w'.storageCount = w.storageCount) (hreceivers : w'.receiverCount = w.receiverCount)
    (hdead : ∀ d, w'.Dead d → w'.queue d = [])
    (hcount : ∀ d, (w.workers d).lastCount ≤ (w'.workers d).lastCount)
    (hpending : ∀ d n, .retire n ∈ w'.queue d → (w'.workers d).retired < n)
    (hretired : ∀ d, (w'.workers d).retired ≤ (w'.workers d).lastCount) : w'.Sound := by
  have hmem {d : Nat} {c : Command} (hc : c ∈ w'.queue d) : c ∈ w.queue d := by
    obtain ⟨gone, hgone⟩ := hq d
    rw [hgone]
    exact List.mem_append_right _ hc
  refine ⟨fun d c hc i hi => ?_, fun d i r hr => ?_, hdead, fun d => ?_, fun d n hn => ?_, hretired⟩
  · rw [hstorages]
    exact h.targets d c (hmem hc) i hi
  · rw [hstorages, hreceivers]
    exact h.reads d i r (hmem hr)
  · obtain ⟨gone, hgone⟩ := hq d
    have hcounts := h.counts d
    rw [hgone, List.filterMap_append] at hcounts
    exact (List.pairwise_append.1 hcounts).2.1
  · exact ⟨hpending d n hn, Nat.le_trans (h.pending d n (hmem hn)).2 (hcount d)⟩

/-- The books of a worker can be changed without touching its commands or its markers. -/
theorem progress_setWorker {w : World} {d : Nat} {k : Worker} (hqueue : k.queue = w.queue d)
    (hdevice : k.device = (w.workers d).device) (hretired : k.retired = (w.workers d).retired)
    (hcount : (w.workers d).lastCount ≤ k.lastCount)
    (hdead : k.health = .dead ↔ w.Dead d) : w.Progress (w.setWorker d k) := by
  have hq (e : Nat) : (w.setWorker d k).queue e = w.queue e := by
    rw [queue_setWorker]
    split
    · rename_i he
      rw [he, hqueue]
    · rfl
  have hd (e : Nat) : (w.setWorker d k).Dead e ↔ w.Dead e := by
    by_cases he : e = d
    · subst he
      rw [Dead, workers_setWorker, if_pos rfl, hdead]
    · rw [Dead, workers_setWorker, if_neg he, Dead]
  have hk (e : Nat) : ((w.setWorker d k).workers e).device = (w.workers e).device ∧
      ((w.setWorker d k).workers e).retired = (w.workers e).retired ∧
      (w.workers e).lastCount ≤ ((w.setWorker d k).workers e).lastCount := by
    by_cases he : e = d
    · subst he
      rw [workers_setWorker, if_pos rfl]
      exact ⟨hdevice, hretired, hcount⟩
    · rw [workers_setWorker, if_neg he]
      exact ⟨rfl, rfl, Nat.le_refl _⟩
  refine ⟨fun e => ⟨[], (hq e).symm⟩, rfl, fun e => (hk e).1, rfl, rfl, fun e => (hd e).2,
    fun _ _ => rfl, fun c i _ => .inr (by rw [hq]; rfl), fun _ => .inl rfl, fun h => ?_⟩
  refine h.shrink (fun e => ⟨[], (hq e).symm⟩) rfl rfl (fun e he => ?_) (fun e => (hk e).2.2)
    (fun e n hn => ?_) fun e => ?_
  · rw [hq]
    exact h.dead e ((hd e).1 he)
  · rw [hq] at hn
    rw [(hk e).2.1]
    exact (h.pending e n hn).1
  · rw [(hk e).2.1]
    exact Nat.le_trans (h.retired e) (hk e).2.2

theorem progress_doom (w : World) (d : Nat) : w.Progress (w.doom d) := by
  refine progress_setWorker rfl rfl rfl (Nat.le_refl _) ?_
  show (if (w.workers d).health = .dead then Health.dead else Health.doomed) = .dead ↔ _
  split <;> simp_all [Dead]

/-! ### A worker dies -/

/-- Discarding commands closes receivers, and changes nothing else. -/
theorem discard_eq (commands : List Command) :
    ∃ receivers, w.discard commands = { w with receivers } ∧
      ∀ r, receivers r = w.receivers r ∨ receivers r = .closed := by
  induction commands generalizing w with
  | nil => exact ⟨w.receivers, rfl, fun _ => .inl rfl⟩
  | cons c commands ih =>
    cases c with
    | read storage receiver =>
      obtain ⟨receivers, heq, hr⟩ := ih (w.setReceiver receiver .closed)
      refine ⟨receivers, heq, fun r => ?_⟩
      rcases hr r with hr | hr
      · by_cases he : r = receiver
        · exact .inr (hr.trans (he ▸ Table.put_same ..))
        · exact .inl (hr.trans (Table.put_other _ he))
      · exact .inr hr
    | _ => exact ih w

/-- Death empties the queue of the worker and closes receivers, and changes nothing else. -/
theorem die_eq (w : World) (d : Nat) :
    ∃ receivers, w.die d =
        { w.setWorker d { w.workers d with queue := [], health := .dead } with receivers } ∧
      ∀ r, receivers r = w.receivers r ∨ receivers r = .closed :=
  discard_eq (w.setWorker d { w.workers d with queue := [], health := .dead }) (w.queue d)

theorem workers_die (w : World) (d e : Nat) : (w.die d).workers e =
    if e = d then { w.workers d with queue := [], health := .dead } else w.workers e := by
  obtain ⟨receivers, hdie, -⟩ := die_eq w d
  rw [hdie]
  exact workers_setWorker w d e _

theorem queue_die (w : World) (d e : Nat) :
    (w.die d).queue e = if e = d then [] else w.queue e := by
  obtain ⟨receivers, hdie, -⟩ := die_eq w d
  rw [hdie]
  exact queue_setWorker w d e _

theorem gone_die (w : World) (d e : Nat) : ∃ gone, w.queue e = gone ++ (w.die d).queue e := by
  rw [queue_die]
  split
  · exact ⟨_, (List.append_nil _).symm⟩
  · exact ⟨[], rfl⟩

theorem Sound.die {w : World} (h : w.Sound) (d : Nat) : (w.die d).Sound := by
  obtain ⟨receivers, hdie, -⟩ := die_eq w d
  refine h.shrink (gone_die w d) (by rw [hdie]; rfl) (by rw [hdie]; rfl) (fun e he => ?_)
    (fun e => ?_) (fun e n hn => ?_) fun e => ?_
  · rw [queue_die]
    split
    · rfl
    · rename_i hne
      rw [Dead, workers_die, if_neg hne] at he
      exact h.dead e he
  · rw [workers_die]
    split
    · rename_i he
      exact he ▸ Nat.le_refl _
    · exact Nat.le_refl _
  · rw [queue_die] at hn
    split at hn
    · cases hn
    · rename_i hne
      rw [workers_die, if_neg hne]
      exact (h.pending e n hn).1
  · rw [workers_die]
    split
    · exact h.retired d
    · exact h.retired e

theorem progress_die (w : World) (d : Nat) : w.Progress (w.die d) := by
  obtain ⟨receivers, hdie, hr⟩ := die_eq w d
  refine ⟨gone_die w d, by rw [hdie]; rfl, fun e => ?_, by rw [hdie]; rfl, by rw [hdie]; rfl,
    fun e he => ?_, fun i _ => by rw [hdie]; rfl, fun c i _ => ?_, fun r => ?_, fun h => h.die d⟩
  · rw [workers_die]
    split
    · rename_i he
      exact he ▸ rfl
    · rfl
  · rw [Dead, workers_die]
    split
    · rfl
    · exact he
  · by_cases hc : c = d
    · exact .inl (by rw [Dead, workers_die, if_pos hc])
    · exact .inr (by rw [queue_die, if_neg hc, hdie]; rfl)
  · rw [hdie]
    exact (hr r).imp_right .inl

/-! ### A command is carried out -/

/-- What carrying out a command does besides taking it off the queue. -/
theorem execute_eq {w w' : World} {d : Nat} {c : Command} (h : w.execute d c = some w') :
    (∃ i x, c.target? = some i ∧ (∀ data, c = .write i data → x = data) ∧ w' = w.setStorage i x) ∨
    (∃ i r, c = .read i r ∧ w' = w.setReceiver r (.delivered (w.storages i))) ∨
    (∃ n, c = .retire n ∧
      w' = w.setWorker d { w.workers d with retired := max (w.workers d).retired n }) := by
  cases c with
  | write i data =>
    obtain ⟨x, hx, rfl⟩ := Option.map_eq_some_iff.1 h
    simp only [Pixels.overwrite, Option.ite_none_right_eq_some, Option.some_inj] at hx
    refine .inl ⟨i, x, rfl, ?_, rfl⟩
    rintro _ ⟨⟩
    exact hx.2.symm
  | read i r =>
    cases h
    exact .inr (.inl ⟨i, r, rfl, rfl⟩)
  | copy source target region =>
    obtain ⟨x, -, rfl⟩ := Option.map_eq_some_iff.1 h
    exact .inl ⟨target.storage, x, rfl, by simp, rfl⟩
  | retire n =>
    cases h
    exact .inr (.inr ⟨n, rfl, rfl⟩)

theorem setWorker_setWorker (w : World) (d : Nat) (k k' : Worker) :
    (w.setWorker d k).setWorker d k' = w.setWorker d k' := by
  simp only [setWorker, Table.put_put]

/-- The world without the oldest command of a worker, given what is left. -/
def pop (w : World) (d : Nat) (rest : List Command) : World :=
  w.setWorker d { w.workers d with queue := rest }

theorem queue_pop (w : World) (d e : Nat) (rest : List Command) :
    (w.pop d rest).queue e = if e = d then rest else w.queue e := queue_setWorker w d e _

/-- Everything about a worker but its queue is as it was. -/
theorem workers_pop (w : World) (d e : Nat) (rest : List Command) :
    (w.pop d rest).workers e = { w.workers e with queue := (w.pop d rest).queue e } := by
  by_cases he : e = d
  · subst he
    rw [queue, pop, workers_setWorker, if_pos rfl]
  · rw [queue, pop, workers_setWorker, if_neg he]

/-- The oldest command of a worker was taken and carried out. -/
structure Executed (w w' : World) (d : Nat) (c : Command) (rest : List Command) : Prop where
  taken : w.queue d = c :: rest
  queue : ∀ e, w'.queue e = if e = d then rest else w.queue e
  devices : w'.devices = w.devices
  storageCount : w'.storageCount = w.storageCount
  receiverCount : w'.receiverCount = w.receiverCount
  books : ∀ e, (w'.workers e).device = (w.workers e).device ∧
    (w'.workers e).health = (w.workers e).health ∧
    (w'.workers e).lastCount = (w.workers e).lastCount
  storage : ∀ i, c.target? = some i ∧ (∀ data, c = .write i data → w'.storages i = data) ∨
    c.target? ≠ some i ∧ w'.storages i = w.storages i
  receiver : ∀ r, w'.receivers r = w.receivers r ∨
    ∃ i, c = .read i r ∧ w'.receivers r = .delivered (w.storages i)
  retired : ∀ e, (w'.workers e).retired = (w.workers e).retired ∨ e = d ∧
    ∃ n, c = .retire n ∧ (w'.workers e).retired = max (w.workers e).retired n

section Carried
variable {w : World} {d : Nat} {c : Command} {rest : List Command}

theorem executed_setStorage (hc : w.queue d = c :: rest) {i : Nat} {x : Pixels}
    (ht : c.target? = some i) (hx : ∀ data, c = .write i data → x = data) :
    w.Executed ((w.pop d rest).setStorage i x) d c rest := by
  have hbooks (e : Nat) : ((w.pop d rest).setStorage i x).workers e =
      { w.workers e with queue := (w.pop d rest).queue e } := workers_pop w d e rest
  refine ⟨hc, fun e => queue_pop w d e rest, rfl, rfl, rfl, fun e => ?_, fun j => ?_,
    fun r => .inl rfl, fun e => .inl ?_⟩
  · rw [hbooks]
    exact ⟨rfl, rfl, rfl⟩
  · by_cases hj : j = i
    · subst hj
      exact .inl ⟨ht, fun data hdata => (Table.put_same ..).trans (hx data hdata)⟩
    · refine .inr ⟨?_, Table.put_other _ hj⟩
      rw [ht, ne_eq, Option.some_inj]
      exact Ne.symm hj
  · rw [hbooks]

theorem executed_setReceiver {i r : Nat} (hc : w.queue d = .read i r :: rest) :
    w.Executed ((w.pop d rest).setReceiver r (.delivered (w.storages i))) d (.read i r) rest := by
  have hbooks (e : Nat) : ((w.pop d rest).setReceiver r (.delivered (w.storages i))).workers e =
      { w.workers e with queue := (w.pop d rest).queue e } := workers_pop w d e rest
  refine ⟨hc, fun e => queue_pop w d e rest, rfl, rfl, rfl, fun e => ?_,
    fun j => .inr ⟨by simp [Command.target?], rfl⟩, fun r' => ?_, fun e => .inl ?_⟩
  · rw [hbooks]
    exact ⟨rfl, rfl, rfl⟩
  · by_cases hr : r' = r
    · subst hr
      exact .inr ⟨i, rfl, Table.put_same ..⟩
    · exact .inl (Table.put_other _ hr)
  · rw [hbooks]

theorem executed_retire {n : Nat} (hc : w.queue d = .retire n :: rest) :
    w.Executed ((w.pop d rest).setWorker d
      { (w.pop d rest).workers d with retired := max ((w.pop d rest).workers d).retired n })
      d (.retire n) rest := by
  rw [workers_pop]
  refine ⟨hc, fun e => ?_, rfl, rfl, rfl, fun e => ?_,
    fun j => .inr ⟨by simp [Command.target?], rfl⟩, fun r => .inl rfl, fun e => ?_⟩
  · by_cases he : e = d
    · rw [queue_setWorker, if_pos he, if_pos he]
      exact (queue_pop w d d rest).trans (if_pos rfl)
    · rw [queue_setWorker, if_neg he, queue_pop]
  · rw [workers_setWorker]
    split
    · rename_i he
      exact he ▸ ⟨rfl, rfl, rfl⟩
    · rw [workers_pop]
      exact ⟨rfl, rfl, rfl⟩
  · rw [workers_setWorker]
    split
    · rename_i he
      exact .inr ⟨he, n, rfl, by rw [he]⟩
    · exact .inl (by rw [workers_pop])

theorem executed_of_execute {w' : World} (hc : w.queue d = c :: rest)
    (h : (w.pop d rest).execute d c = some w') : w.Executed w' d c rest := by
  rcases execute_eq h with ⟨i, x, ht, hx, rfl⟩ | ⟨i, r, rfl, rfl⟩ | ⟨n, rfl, rfl⟩
  · exact executed_setStorage hc ht hx
  · exact executed_setReceiver hc
  · exact executed_retire hc

namespace Executed
variable {w' : World}

theorem mem (h : w.Executed w' d c rest) : c ∈ w.queue d := by
  rw [h.taken]
  exact List.mem_cons_self ..

theorem gone (h : w.Executed w' d c rest) (e : Nat) : ∃ gone, w.queue e = gone ++ w'.queue e := by
  rw [h.queue]
  split
  · rename_i he
    exact ⟨[c], by rw [he, h.taken]; rfl⟩
  · exact ⟨[], rfl⟩

theorem dead (h : w.Executed w' d c rest) (e : Nat) : w'.Dead e ↔ w.Dead e := by
  rw [Dead, (h.books e).2.1, Dead]

/-- What storage `i` settles to was settled before the command. -/
theorem settled (h : w.Executed w' d c rest) {e i : Nat} (hi : w.WrittenBy e i) :
    settle i (w'.queue e) (w'.storages i) = settle i (w.queue e) (w.storages i) := by
  rw [h.queue]
  rcases h.storage i with ⟨ht, hx⟩ | ⟨ht, hs⟩
  · obtain ⟨rfl, data, rfl⟩ := hi d c h.mem ht
    rw [if_pos rfl, hx data rfl, h.taken]
    simp only [settle, if_true]
  · rw [hs]
    split
    · rename_i he
      rw [he, h.taken, settle_cons]
      intro data hdata
      exact ht (by rw [hdata]; rfl)
    · rfl

/-- The counts behind a marker are higher than its own. -/
theorem above (h : w.Executed w' d c rest) (hw : w.Sound) {n m : Nat} (hc : c = .retire m)
    (hn : .retire n ∈ w'.queue d) : m < n := by
  subst hc
  have hcounts := hw.counts d
  rw [h.taken] at hcounts
  rw [h.queue, if_pos rfl] at hn
  exact (List.pairwise_cons.1 hcounts).1 n (List.mem_filterMap.2 ⟨.retire n, hn, rfl⟩)

theorem sound (h : w.Executed w' d c rest) (hw : w.Sound) : w'.Sound := by
  refine hw.shrink h.gone h.storageCount h.receiverCount (fun e he => ?_)
    (fun e => Nat.le_of_eq (h.books e).2.2.symm) (fun e n hn => ?_) fun e => ?_
  · obtain ⟨gone, hgone⟩ := h.gone e
    rw [hw.dead e ((h.dead e).1 he)] at hgone
    exact (List.append_eq_nil_iff.1 hgone.symm).2
  · have hqueued : .retire n ∈ w.queue e := by
      obtain ⟨gone, hgone⟩ := h.gone e
      rw [hgone]
      exact List.mem_append_right _ hn
    have hbefore := (hw.pending e n hqueued).1
    rcases h.retired e with hr | ⟨rfl, m, hm, hr⟩
    · omega
    · have hlt := h.above hw hm hn
      omega
  · rw [(h.books e).2.2]
    have hbefore := hw.retired e
    rcases h.retired e with hr | ⟨rfl, m, rfl, hr⟩
    · omega
    · have hle := (hw.pending e m h.mem).2
      omega

theorem progress (h : w.Executed w' d c rest) : w.Progress w' := by
  refine ⟨h.gone, h.devices, fun e => (h.books e).1, h.storageCount, h.receiverCount,
    fun e => (h.dead e).2, fun i hi => ?_, fun e i hi => .inr (h.settled hi), fun r => ?_, h.sound⟩
  · rcases h.storage i with ⟨ht, -⟩ | ⟨-, hs⟩
    · exact absurd ht (hi d c h.mem)
    · exact hs
  · rcases h.receiver r with hr | ⟨i, rfl, hr⟩
    · exact .inl hr
    · exact .inr (.inr ⟨d, i, h.mem, hr⟩)

end Executed
end Carried

/-- The oldest command of a worker, if it can be carried out. -/
def next? (w : World) (d : Nat) : Option Command :=
  match w.queue d with
  | [] => none
  | c :: rest => ((w.pop d rest).execute d c).map fun _ => c

/-- What executing the oldest command can come to: there is none, or it cannot be carried out
and the worker dies, or it is carried out. -/
theorem executeNext_next (w : World) (d : Nat) :
    w.next? d = none ∧ (w.queue d = [] ∧ w.executeNext d = w ∨ w.executeNext d = w.die d) ∨
    ∃ c rest, w.next? d = some c ∧ w.Executed (w.executeNext d) d c rest := by
  simp only [executeNext, next?]
  cases hq : w.queue d with
  | nil =>
    rw [show (w.workers d).queue = [] from hq]
    exact .inl ⟨rfl, .inl ⟨rfl, rfl⟩⟩
  | cons c rest =>
    rw [show (w.workers d).queue = c :: rest from hq]
    dsimp only
    cases hexec : (w.pop d rest).execute d c with
    | some w' =>
      refine .inr ⟨c, rest, rfl, executed_of_execute hq ?_⟩
      rw [show execute (w.setWorker d { w.workers d with queue := rest }) d c = _ from hexec, hexec]
    | none =>
      refine .inl ⟨rfl, .inr ?_⟩
      rw [show execute (w.setWorker d { w.workers d with queue := rest }) d c = _ from hexec]
      show (w.pop d rest).die d = w.die d
      have hread : (w.setWorker d { w.workers d with queue := [], health := .dead }).discard
          (c :: rest) = (w.setWorker d { w.workers d with queue := [], health := .dead }).discard
          rest := by
        cases c with
        | read => cases hexec
        | _ => rfl
      have hk : (w.pop d rest).workers d = { w.workers d with queue := rest } := Table.put_same ..
      simp only [die, hk, show (w.workers d).queue = c :: rest from hq, hread]
      rw [pop, setWorker_setWorker]

theorem executeNext_cases (w : World) (d : Nat) :
    w.queue d = [] ∧ w.executeNext d = w ∨ w.executeNext d = w.die d ∨
    ∃ c rest, w.Executed (w.executeNext d) d c rest := by
  rcases executeNext_next w d with ⟨-, hempty | hdead⟩ | ⟨c, rest, -, h⟩
  · exact .inl hempty
  · exact .inr (.inl hdead)
  · exact .inr (.inr ⟨c, rest, h⟩)

theorem progress_executeNext (w : World) (d : Nat) : w.Progress (w.executeNext d) := by
  rcases executeNext_cases w d with ⟨-, h⟩ | h | ⟨c, rest, h⟩
  · rw [h]
    exact .refl w
  · rw [h]
    exact progress_die w d
  · exact h.progress

/-- A worker that executes a command has one less, or is dead and has none. -/
theorem length_queue_executeNext (w : World) (d : Nat) :
    ((w.executeNext d).queue d).length ≤ (w.queue d).length - 1 := by
  rcases executeNext_cases w d with ⟨hempty, h⟩ | h | ⟨c, rest, h⟩
  · simp [h, hempty]
  · simp [h, queue_die]
  · simp [h.queue, h.taken]

theorem progress_happen (w : World) (e : Event) : w.Progress (w.happen e) := by
  cases e with
  | execute d => exact progress_executeNext w d
  | kill d => exact progress_die w d
  | doom d => exact progress_doom w d

/-- Taking a delivery out of its receiver closes the receiver, and changes nothing else. -/
theorem progress_receive (w : World) (i : Nat) : w.Progress (w.receive i).2 := by
  simp only [receive]
  split
  · refine ⟨fun _ => ⟨[], rfl⟩, rfl, fun _ => rfl, rfl, rfl, fun _ h => h, fun _ _ => rfl,
      fun _ _ _ => .inr rfl, fun r => ?_, fun h => ⟨h.targets, h.reads, h.dead, h.counts, h.pending,
      h.retired⟩⟩
    by_cases hr : r = i
    · exact .inr (.inl (hr ▸ Table.put_same ..))
    · exact .inl (Table.put_other _ hr)
  · exact .refl w

/-! ### Worlds to start from -/

theorem sound_blank : ({} : World).Sound :=
  ⟨fun _ _ hc => (by cases hc), fun _ _ _ hr => (by cases hr), fun _ _ => rfl, fun _ => .nil,
    fun _ _ hn => (by cases hn), fun _ => Nat.le_refl _⟩

variable {w} in
/-- A worker that is started has nothing to do. -/
theorem Sound.startWorker (h : w.Sound) (label : String) (device : Nat) :
    (w.startWorker label device).2.Sound := by
  have hworker (e : Nat) : (w.startWorker label device).2.workers e =
      if e = w.workerCount then { label, device, handles := 1 } else w.workers e := rfl
  have hqueue (e : Nat) : (w.startWorker label device).2.queue e =
      if e = w.workerCount then [] else w.queue e := queue_setWorker w _ e _
  have hmem {e : Nat} {cmd : Command} (hcmd : cmd ∈ (w.startWorker label device).2.queue e) :
      e ≠ w.workerCount ∧ cmd ∈ w.queue e := by
    rw [hqueue] at hcmd
    split at hcmd
    · cases hcmd
    · exact ⟨‹_›, hcmd⟩
  refine ⟨fun e cmd hcmd => h.targets e cmd (hmem hcmd).2,
    fun e i r hr => h.reads e i r (hmem hr).2, fun e he => ?_, fun e => ?_, fun e n hn => ?_,
    fun e => ?_⟩
  · rw [hqueue]
    split
    · rfl
    · rename_i hne
      rw [Dead, hworker, if_neg hne] at he
      exact h.dead e he
  · rw [hqueue]
    split
    · exact .nil
    · exact h.counts e
  · rw [hworker, if_neg (hmem hn).1]
    exact h.pending e n (hmem hn).2
  · rw [hworker]
    split
    · exact Nat.le_refl _
    · exact h.retired e

end World
end SurfaceRelay.Soft
