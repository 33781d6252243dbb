import SurfaceRelay.Proofs.Soft.Immediate

/-! Calls in a world and in the one that does not wait.

A call that hands in nothing answers the same in both worlds and changes both alike (`Alike`). A
call that hands in a command answers the same as well, and either is refused in both worlds or
has the same command accepted (`Submits`). The world that does not wait then executes it. -/
namespace SurfaceRelay.Soft

namespace World

/-! ### Accepting a command -/

/-- The receiver that a command is to fill is opened. -/
def await (w : World) (c : Command) : World :=
  match c.receiver? with
  | none => w
  | some r => { w.setReceiver r .pending with receiverCount := r + 1 }

/-- Worker `d` accepts a command. -/
def enqueue (w : World) (d : Nat) (c : Command) : World := (w.await c).push d c

/-- A live worker can accept a command that fits its storages and fills a new receiver. -/
structure Admissible (w : World) (d : Nat) (c : Command) : Prop where
  live : (w.workers d).health = .live
  started : d < w.workerCount
  fits : c.Fits fun i => (w.storages i).length
  known : ∀ i ∈ c.storages, i < w.storageCount
  fresh : ∀ r, c.receiver? = some r → r = w.receiverCount

section
variable (w : World) (c : Command)

@[simp] theorem devices_await : (w.await c).devices = w.devices := by
  unfold await
  split <;> rfl

@[simp] theorem workers_await : (w.await c).workers = w.workers := by
  unfold await
  split <;> rfl

@[simp] theorem queue_await (d : Nat) : (w.await c).queue d = w.queue d := by
  rw [queue, workers_await, queue]

@[simp] theorem workerCount_await : (w.await c).workerCount = w.workerCount := by
  unfold await
  split <;> rfl

@[simp] theorem storages_await : (w.await c).storages = w.storages := by
  unfold await
  split <;> rfl

@[simp] theorem storageCount_await : (w.await c).storageCount = w.storageCount := by
  unfold await
  split <;> rfl

theorem receivers_await (r : Nat) : (w.await c).receivers r =
    if c.receiver? = some r then .pending else w.receivers r := by
  unfold await
  cases hc : c.receiver? with
  | none => rfl
  | some r' =>
    show Table.put w.receivers r' .pending r = _
    by_cases hr : r = r'
    · rw [hr, Table.put_same, if_pos rfl]
    · rw [Table.put_other _ hr, if_neg fun heq => hr (Option.some.inj heq).symm]

@[simp] theorem devices_enqueue (d : Nat) : (w.enqueue d c).devices = w.devices := devices_await w c

@[simp] theorem workerCount_enqueue (d : Nat) : (w.enqueue d c).workerCount = w.workerCount :=
  workerCount_await w c

@[simp] theorem storages_enqueue (d : Nat) : (w.enqueue d c).storages = w.storages :=
  storages_await w c

@[simp] theorem storageCount_enqueue (d : Nat) : (w.enqueue d c).storageCount = w.storageCount :=
  storageCount_await w c

theorem receivers_enqueue (d r : Nat) : (w.enqueue d c).receivers r =
    if c.receiver? = some r then .pending else w.receivers r := receivers_await w c r

theorem queue_enqueue (d e : Nat) : (w.enqueue d c).queue e =
    if e = d then w.queue d ++ [c] else w.queue e := by
  rw [enqueue, queue_push, queue_await, queue_await]

theorem workers_enqueue (d e : Nat) : (w.enqueue d c).workers e =
    { w.workers e with queue := (w.enqueue d c).queue e } := by
  rw [enqueue, workers_push, workers_await]

theorem setWorker_self (d : Nat) : w.setWorker d (w.workers d) = w := by
  have hworkers : Table.put w.workers d (w.workers d) = w.workers := by
    funext e
    by_cases he : e = d
    · rw [he, Table.put_same]
    · rw [Table.put_other _ he]
  rw [setWorker, hworkers]

end

/-- A receiver that is opened is the last one. -/
theorem receiverCount_await {w : World} {c : Command}
    (hfresh : ∀ r, c.receiver? = some r → r = w.receiverCount) :
    (w.await c).receiverCount = w.receiverCount + c.receiver?.toList.length := by
  unfold await
  cases hc : c.receiver? with
  | none => rfl
  | some r =>
    rw [hfresh r hc]
    rfl

variable {o : Owners} {w w' v v' : World} {d : Nat} {c : Command}

/-- A worker that has nothing to do executes what it accepts at once. -/
theorem drain_enqueue (hidle : v.queue d = []) (h : c.Fits fun i => (v.storages i).length) :
    (v.enqueue d c).drain d = (v.await c).carry c := by
  have hq : (v.enqueue d c).queue d = [c] := by
    rw [queue_enqueue, if_pos rfl, hidle, List.nil_append]
  have hpop : (v.enqueue d c).pop d [] = v.await c := by
    have hself : { (v.await c).workers d with queue := [] } = (v.await c).workers d := by
      rw [workers_await, ← hidle]
      rfl
    rw [pop, enqueue, workers_push, push, setWorker_setWorker]
    dsimp only
    rw [hself, setWorker_self]
  have hfits : c.Fits fun i => ((v.enqueue d c).storages i).length := by
    rwa [storages_enqueue]
  rw [drain, show (v.enqueue d c |>.workers d).queue = [c] from hq]
  show (v.enqueue d c).executeNext d = _
  rw [executeNext_fitting hq hfits, hpop]

theorem Books.enqueue (h : Books w v) (hc : w.Admissible d c) :
    Books (w.enqueue d c) ((v.await c).carry c) := by
  refine ⟨?_, fun e => ?_, ?_, fun e he => ?_, fun e => ?_⟩
  · rw [devices_carry, devices_await, devices_enqueue, h.devices]
  · rw [workers_carry, workers_await, workers_enqueue, h.workers]
  · rw [workerCount_carry, workerCount_await, workerCount_enqueue, h.workerCount]
  · rw [workers_enqueue, workerCount_enqueue]
    rw [queue_enqueue] at he
    split at he
    · rename_i hd
      subst hd
      exact ⟨hc.started, hc.live⟩
    · exact h.busy e he
  · rw [workers_enqueue]
    exact h.doomed e

/-- A new receiver is none that a pending command is to fill. -/
theorem Pending.receiver_ne {e r : Nat} {c' : Command} (h : Pending o w e c')
    (hfresh : ∀ r, c.receiver? = some r → r = w.receiverCount) (hr : c.receiver? = some r) :
    c'.receiver? ≠ some r := fun hr' =>
  Nat.lt_irrefl _ (hfresh r hr ▸ (h.receiver r hr').1)

/-- What was pending is still when a command is accepted that fills another receiver. -/
theorem Pending.enqueue {e : Nat} {c' : Command} (h : Pending o w e c')
    (hfresh : ∀ r, c.receiver? = some r → r = w.receiverCount) (d : Nat) :
    Pending (o.claim d c) (w.enqueue d c) e c' := by
  refine ⟨h.own.claim fun r => h.receiver_ne hfresh, ?_, ?_, fun r hr => ?_⟩
  · rw [storages_enqueue]
    exact h.fits
  · rw [storageCount_enqueue]
    exact h.known
  · obtain ⟨hlt, hpending⟩ := h.receiver r hr
    refine ⟨?_, ?_⟩
    · show r < (w.await c).receiverCount
      rw [receiverCount_await hfresh]
      exact Nat.lt_add_right _ hlt
    · rw [receivers_enqueue, if_neg fun hc => h.receiver_ne hfresh hc hr, hpending]

theorem Admissible.pending (hc : w.Admissible d c) (hown : ∀ i ∈ c.storages, o.storage i = d) :
    Pending (o.claim d c) (w.enqueue d c) d c := by
  refine ⟨⟨hown, fun r hr => if_pos hr⟩, ?_, ?_, fun r hr => ⟨?_, ?_⟩⟩
  · rw [storages_enqueue]
    exact hc.fits
  · rw [storageCount_enqueue]
    exact hc.known
  · show r < (w.await c).receiverCount
    rw [receiverCount_await hc.fresh, hr, hc.fresh r hr]
    exact Nat.lt_succ_self _
  · rw [receivers_enqueue, if_pos hr]

namespace Matches

/-- What was accepted before a command comes to the same when the command is accepted. -/
theorem agree_before (h : Matches o w v) (d : Nat) (c : Command) (e : Nat) :
    AgreeOn (o.storage · = e) (fun r => o.receiver r = e ∧ c.receiver? ≠ some r)
      ((w.enqueue d c).carryAll (w.queue e)) (v.await c) := by
  have henqueue : AgreeOn (o.storage · = e) (fun r => o.receiver r = e ∧ c.receiver? ≠ some r)
      (w.enqueue d c) w :=
    ⟨fun i _ => congrFun (storages_enqueue w c d) i,
      fun r hr => by rw [receivers_enqueue, if_neg hr.2]⟩
  have hawait : AgreeOn (o.storage · = e) (fun r => o.receiver r = e ∧ c.receiver? ≠ some r)
      v (v.await c) :=
    ⟨fun i _ => congrFun (storages_await v c).symm i,
      fun r hr => by rw [receivers_await, if_neg hr.2]⟩
  refine (henqueue.carryAll fun c' hc' => (h.pending e c' hc').own.storages).trans ?_
  exact ((h.fates e).mono (fun _ hi => hi) fun r hr => hr.1).trans hawait

/-- The command is the last part of the fate of its worker, and of no other. -/
theorem fate_enqueue (h : Matches o w v) (hown : ∀ i ∈ c.storages, o.storage i = d) (e : Nat) :
    AgreeFor (o.claim d c) e ((w.enqueue d c).fate e) ((v.await c).carry c) := by
  have hbefore := h.agree_before d c e
  rw [fate, queue_enqueue]
  by_cases he : e = d
  · subst he
    rw [if_pos rfl, carryAll, List.foldl_append]
    exact hbefore.carry hown fun r hr hne => ⟨(if_neg hne).symm.trans hr, hne⟩
  · rw [if_neg he]
    have hclaim (r : Nat) (hr : (o.claim d c).receiver r = e) :
        o.receiver r = e ∧ c.receiver? ≠ some r := by
      have hne : c.receiver? ≠ some r := fun hc => he ((if_pos hc).symm.trans hr).symm
      exact ⟨(if_neg hne).symm.trans hr, hne⟩
    refine (hbefore.mono (fun _ hi => hi) hclaim).trans (agree_carry ?_ ?_).symm
    · exact fun i hi hi' => he (hi'.symm.trans (hown i hi))
    · exact fun r hr hr' => (hclaim r hr').2 hr

/-- In the world that does not wait the receiver of a command is filled at once. -/
theorem delivered_enqueue (h : Matches o w v)
    (hfresh : ∀ r, c.receiver? = some r → r = v.receiverCount) {r : Nat}
    (hr : r < ((v.await c).carry c).receiverCount) :
    ∃ data, ((v.await c).carry c).receivers r = .delivered data := by
  rw [receiverCount_carry, receiverCount_await hfresh] at hr
  by_cases hc : c.receiver? = some r
  · cases c with
    | read storage receiver =>
      cases hc
      exact ⟨_, Table.put_same ..⟩
    | _ => cases hc
  · have hold : r < v.receiverCount := by
      cases hreceiver : c.receiver? with
      | none => simpa [hreceiver] using hr
      | some r' =>
        have hne : r ≠ v.receiverCount := fun heq =>
          hc (by rw [hreceiver, heq, hfresh r' hreceiver])
        simp only [hreceiver, Option.toList_some, List.length_singleton] at hr
        omega
    have hsame : AgreeOn (fun _ => False) (· = r) ((v.await c).carry c) (v.await c) :=
      agree_carry (fun _ _ hi => hi) fun r' hr' heq => hc (heq ▸ hr')
    rw [hsame.receivers r rfl, receivers_await, if_neg hc]
    exact h.delivered r hold

/-- **A command is accepted here and executed there.** -/
theorem enqueue (h : Matches o w v) (hc : w.Admissible d c)
    (hown : ∀ i ∈ c.storages, o.storage i = d) :
    Matches (o.claim d c) (w.enqueue d c) ((v.enqueue d c).drain d) := by
  have hfits : c.Fits fun i => (v.storages i).length := hc.fits.congr fun i _ => h.lengths i
  have hfresh : ∀ r, c.receiver? = some r → r = v.receiverCount := by
    rw [h.receiverCount]
    exact hc.fresh
  rw [drain_enqueue (h.queue d) hfits]
  refine { toBooks := h.toBooks.enqueue hc, storageCount := ?_, receiverCount := ?_,
           lengths := fun i => ?_, fates := h.fate_enqueue hown, pending := fun e c' hc' => ?_,
           awaited := fun e => ?_, delivered := fun r => h.delivered_enqueue hfresh }
  · rw [storageCount_carry, storageCount_await, storageCount_enqueue, h.storageCount]
  · rw [receiverCount_carry, receiverCount_await hfresh, h.receiverCount]
    exact (receiverCount_await hc.fresh).symm
  · rw [length_carry (by rwa [storages_await]), storages_await, storages_enqueue]
    exact h.lengths i
  · rw [queue_enqueue] at hc'
    split at hc'
    · rename_i he
      subst he
      rcases List.mem_append.1 hc' with hc' | hc'
      · exact (h.pending e c' hc').enqueue hc.fresh e
      · rw [List.mem_singleton.1 hc']
        exact hc.pending hown
    · exact (h.pending e c' hc').enqueue hc.fresh d
  · rw [World.awaited, queue_enqueue]
    split
    · exact nodup_filterMap_snoc (h.awaited d) fun r hr c' hc' =>
        (h.pending d c' hc').receiver_ne hc.fresh hr
    · exact h.awaited e

end Matches

/-! ### Books -/

/-- Storages and receivers are as they were. -/
structure SamePixels (w w' : World) : Prop where
  storages : w'.storages = w.storages
  receivers : w'.receivers = w.receivers
  storageCount : w'.storageCount = w.storageCount
  receiverCount : w'.receiverCount = w.receiverCount

theorem Pending.congr (h : Pending o w d c) (hw : w.SamePixels w') : Pending o w' d c :=
  ⟨h.own, by rw [hw.storages]; exact h.fits, by rw [hw.storageCount]; exact h.known,
    by rw [hw.receivers, hw.receiverCount]; exact h.receiver⟩

/-- A worker that has nothing to do can be let go of without anything being done. -/
theorem letGo_idle (h : v.queue d = []) :
    v.SamePixels (v.letGo d) ∧ (v.letGo d).workerCount = v.workerCount := by
  have hidle : (v.setWorker d
      { v.workers d with handles := (v.workers d).handles - 1 }).queue d = [] := by
    rw [queue_setWorker, if_pos rfl]
    exact h
  simp only [World.letGo]
  split
  · rw [drain_idle hidle, die_idle hidle]
    exact ⟨⟨rfl, rfl, rfl, rfl⟩, rfl⟩
  · exact ⟨⟨rfl, rfl, rfl, rfl⟩, rfl⟩

theorem Books.setDevice (h : Books w v) (i : Nat) (x : Device) :
    Books (w.setDevice i x) (v.setDevice i x) :=
  ⟨congrArg (Table.put · i x) h.devices, h.workers, h.workerCount, h.busy, h.doomed⟩

theorem Books.setWorker (h : Books w v) {k : Worker}
    (hbusy : k.queue ≠ [] → d < w.workerCount ∧ k.health = .live) (hdoomed : k.health ≠ .doomed) :
    Books (w.setWorker d k) (v.setWorker d { k with queue := [] }) := by
  refine ⟨h.devices, fun e => ?_, h.workerCount, fun e he => ?_, fun e => ?_⟩
  · rw [workers_setWorker, workers_setWorker]
    split
    · rfl
    · exact h.workers e
  · rw [queue_setWorker] at he
    rw [workers_setWorker]
    split at he
    · rename_i hd
      rw [if_pos hd, hd]
      exact hbusy he
    · rename_i hd
      rw [if_neg hd]
      exact h.busy e he
  · rw [workers_setWorker]
    split
    · exact hdoomed
    · exact h.doomed e

theorem Books.startWorker (h : Books w v) (label : String) (device : Nat) :
    Books (w.startWorker label device).2 (v.startWorker label device).2 := by
  have hset : Books (w.setWorker w.workerCount { label, device, handles := 1 })
      (v.setWorker w.workerCount { label, device, handles := 1 }) :=
    h.setWorker (fun hq => absurd rfl hq) (by simp)
  simp only [World.startWorker, h.workerCount]
  exact ⟨hset.devices, hset.workers, rfl,
    fun d hd => ⟨Nat.lt_succ_of_lt (hset.busy d hd).1, (hset.busy d hd).2⟩, hset.doomed⟩

namespace Matches

/-- Books can be kept in both worlds, as long as no queue changes. -/
theorem of_books (h : Matches o w v) (hbooks : Books w' v') (hw : w.SamePixels w')
    (hv : v.SamePixels v') (hqueue : ∀ d, w'.queue d = w.queue d) : Matches o w' v' := by
  refine { toBooks := hbooks, storageCount := ?_, receiverCount := ?_, lengths := fun i => ?_,
           fates := fun d => ?_, pending := fun d c hc => ?_, awaited := fun d => ?_,
           delivered := ?_ }
  · rw [hv.storageCount, hw.storageCount, h.storageCount]
  · rw [hv.receiverCount, hw.receiverCount, h.receiverCount]
  · rw [hv.storages, hw.storages, h.lengths]
  · refine (h.fate_congr (.of_eq hw.storages hw.receivers) (hqueue d)).trans ?_
    exact .of_eq hv.storages.symm hv.receivers.symm
  · rw [hqueue] at hc
    exact (h.pending d c hc).congr hw
  · rw [World.awaited, hqueue]
    exact h.awaited d
  · rw [hv.receivers, hv.receiverCount]
    exact h.delivered

theorem setDevice (h : Matches o w v) (i : Nat) (x : Device) :
    Matches o (w.setDevice i x) (v.setDevice i x) :=
  h.of_books (h.toBooks.setDevice i x) ⟨rfl, rfl, rfl, rfl⟩ ⟨rfl, rfl, rfl, rfl⟩ fun _ => rfl

theorem setWorker (h : Matches o w v) {k : Worker} (hqueue : k.queue = w.queue d)
    (hhealth : k.health = (w.workers d).health) :
    Matches o (w.setWorker d k) (v.setWorker d { k with queue := [] }) := by
  refine h.of_books (h.toBooks.setWorker (fun hk => ?_) ?_) ⟨rfl, rfl, rfl, rfl⟩
    ⟨rfl, rfl, rfl, rfl⟩ fun e => ?_
  · rw [hhealth]
    exact h.busy d (hqueue ▸ hk)
  · rw [hhealth]
    exact h.doomed d
  · rw [queue_setWorker]
    split
    · rename_i he
      rw [he, hqueue]
    · rfl

theorem startWorker (h : Matches o w v) (label : String) (device : Nat) :
    Matches o (w.startWorker label device).2 (v.startWorker label device).2 := by
  refine h.of_books (h.toBooks.startWorker label device) ⟨rfl, rfl, rfl, rfl⟩
    ⟨rfl, rfl, rfl, rfl⟩ fun e => ?_
  rw [show (w.startWorker label device).2.queue e =
    if e = w.workerCount then [] else w.queue e from queue_setWorker w _ e _]
  split
  · -- a worker that was not started has accepted nothing
    rename_i he
    by_contra hne
    exact Nat.lt_irrefl _ (he ▸ (h.busy e (Ne.symm hne)).1)
  · rfl

/-- A worker that has nothing to do can end. -/
theorem die (h : Matches o w v) (hidle : w.queue d = []) : Matches o (w.die d) (v.die d) := by
  rw [die_idle hidle, die_idle (h.queue d), h.workers d]
  refine h.of_books (h.toBooks.setWorker (fun hk => absurd rfl hk) (by simp)) ⟨rfl, rfl, rfl, rfl⟩
    ⟨rfl, rfl, rfl, rfl⟩ fun e => ?_
  rw [queue_setWorker]
  split
  · rename_i he
    rw [he, hidle]
  · rfl

/-- A worker whose last handle goes has executed everything when it ends. -/
theorem letGo (h : Matches o w v) (d : Nat) : Matches o (w.letGo d) (v.letGo d) := by
  have hset := h.setWorker (d := d)
    (k := { w.workers d with handles := (w.workers d).handles - 1 }) rfl rfl
  simp only [World.letGo, h.workers d]
  split
  · rw [drain_idle (hset.queue d)]
    exact (hset.drain d).die (queue_drain _ d)
  · exact hset

/-- Letting go of a handle starts no worker and opens no receiver. -/
theorem counts_letGo (h : Matches o w v) (d : Nat) :
    (w.letGo d).workerCount = w.workerCount ∧ (w.letGo d).receiverCount = w.receiverCount := by
  obtain ⟨hsame, hworkers⟩ := letGo_idle (h.queue d)
  rw [← (h.letGo d).workerCount, ← (h.letGo d).receiverCount, ← h.workerCount, ← h.receiverCount]
  exact ⟨hworkers, hsame.receiverCount⟩

/-- With its last handle a worker ends, and what it was given has been done. -/
theorem agree_letGo (h : Matches o w v) (hlast : (w.workers d).handles ≤ 1) :
    (w.letGo d).queue d = [] ∧ AgreeFor o d (w.letGo d) v := by
  have hidle : (w.letGo d).queue d = [] := by
    simp only [World.letGo, if_pos hlast]
    rw [queue_die, if_pos rfl]
  obtain ⟨hsame, -⟩ := letGo_idle (h.queue d)
  exact ⟨hidle, ((h.letGo d).agree hidle).trans (.of_eq hsame.storages hsame.receivers)⟩

/-- A storage that is made is named by no command. -/
theorem allocate (h : Matches o w v) (x : Pixels) :
    Matches o (w.allocate x) (v.allocate x) := by
  have hput (u : World) : ∀ i ≠ u.storageCount, (u.allocate x).storages i = u.storages i :=
    fun i hi => Table.put_other x hi
  have hsame (u : World) : (u.allocate x).storages u.storageCount = x := Table.put_same ..
  have hother (d : Nat) : ∀ c ∈ w.queue d, ∀ i ∈ c.storages, i ≠ w.storageCount :=
    fun c hc i hi => Nat.ne_of_lt ((h.pending d c hc).known i hi)
  refine { toBooks := ⟨h.devices, h.workers, h.workerCount, h.busy, h.doomed⟩,
           storageCount := congrArg (· + 1) h.storageCount, receiverCount := h.receiverCount,
           lengths := fun i => ?_, fates := fun d => ?_,
           pending := fun d c hc => ?_, awaited := h.awaited, delivered := h.delivered }
  · by_cases hi : i = w.storageCount
    · rw [hi, hsame, ← h.storageCount, hsame]
    · rw [hput w i hi, hput v i (h.storageCount ▸ hi), h.lengths]
  · have hold : AgreeOn (fun i => o.storage i = d ∧ i ≠ w.storageCount) (o.receiver · = d)
        ((w.allocate x).fate d) (v.allocate x) := by
      have hw : AgreeOn (fun i => o.storage i = d ∧ i ≠ w.storageCount) (o.receiver · = d)
          (w.allocate x) w := ⟨fun i hi => hput w i hi.2, fun _ _ => rfl⟩
      have hv : AgreeOn (fun i => o.storage i = d ∧ i ≠ w.storageCount) (o.receiver · = d)
          v (v.allocate x) :=
        ⟨fun i hi => (hput v i (h.storageCount ▸ hi.2)).symm, fun _ _ => rfl⟩
      refine (hw.carryAll fun c hc i hi => ⟨?_, hother d c hc i hi⟩).trans
        (((h.fates d).mono (fun _ hi => hi.1) fun _ hr => hr).trans hv)
      exact (h.pending d c hc).own.storages i hi
    have hnew : AgreeOn (· = w.storageCount) (fun _ => False) ((w.allocate x).fate d)
        (w.allocate x) :=
      agree_carryAll (fun c hc i hi heq => hother d c hc i hi heq) fun _ _ _ _ hr => hr
    refine ⟨fun i hi => ?_, hold.receivers⟩
    by_cases heq : i = w.storageCount
    · rw [hnew.storages i heq, heq, hsame, ← h.storageCount, hsame]
    · exact hold.storages i ⟨hi, heq⟩
  · obtain ⟨hown, hfits, hknown, hreceiver⟩ := h.pending d c hc
    refine ⟨hown, hfits.congr fun i hi => ?_, fun i hi => Nat.lt_succ_of_lt (hknown i hi),
      hreceiver⟩
    rw [hput w i (hother d c hc i hi)]

end Matches
end World

/-! ### Calls that hand nothing in -/

section
variable {o : Owners} {w v : World} {α : Type}
open World

/-- A call of world `w` has the same answer as in the other one, and the worlds it leaves match. It
has started no worker and opened no receiver. -/
structure Alike (o : Owners) (w : World) (r r' : EStateM.Result Fault World α) : Prop where
  answers : Attempt.answers r' = Attempt.answers r
  leaves : Matches o (Attempt.leaves r) (Attempt.leaves r')
  workerCount : (Attempt.leaves r).workerCount = w.workerCount
  receiverCount : (Attempt.leaves r).receiverCount = w.receiverCount

theorem refuse_alike (h : Matches o w v) (r : Refusal) :
    Alike o w (refuse (α := α) r w) (refuse r v) := ⟨rfl, h, rfl, rfl⟩

theorem addTexture_alike (h : Matches o w v) (d : Nat) (size : Extent) (storage : Nat) :
    Alike o w (addTexture d size storage w) (addTexture d size storage v) := by
  have hset := h.setWorker (d := d)
    (k := { w.workers d with created := (w.workers d).created + 1 }) rfl rfl
  simp only [addTexture, h.workers d, h.devices]
  exact ⟨rfl, hset.setDevice _ _, rfl, rfl⟩

theorem newTexture_alike (h : Matches o w v) (d : Nat) (size : Extent) :
    Alike o w (newTexture d size w) (newTexture d size v) := by
  have hadd := addTexture_alike (h.allocate (.blank size)) d size w.storageCount
  show Alike o w (newTexture d size w) (addTexture d size v.storageCount (v.allocate _))
  rw [h.storageCount]
  exact ⟨hadd.answers, hadd.leaves, hadd.workerCount, hadd.receiverCount⟩

theorem share_alike (h : Matches o w v) (d : Nat) (t : Texture) :
    Alike o w (share d t w) (share d t v) := by
  simp only [share, h.workers d, h.devices]
  exact ⟨rfl, h.setDevice _ _, rfl, rfl⟩

theorem openShare_alike (h : Matches o w v) (d shared : Nat) (size : Extent) :
    Alike o w (openShare d shared size w) (openShare d shared size v) := by
  simp only [openShare, h.workers d, h.devices, h.lengths]
  split
  · exact refuse_alike h _
  · split
    · exact refuse_alike h _
    · exact addTexture_alike h d size _

theorem countDestroyed_alike (h : Matches o w v) (d : Nat) :
    Alike o w (countDestroyed d w) (countDestroyed d v) := by
  have hset := h.setWorker (d := d)
    (k := { w.workers d with destroyed := (w.workers d).destroyed + 1 }) rfl rfl
  simp only [countDestroyed, h.workers d]
  exact ⟨rfl, hset, rfl, rfl⟩

theorem freeTexture_alike (h : Matches o w v) (d : Nat) (t : Texture) :
    Alike o w (freeTexture d t w) (freeTexture d t v) := by
  simp only [freeTexture, h.workers d, h.devices]
  have hcount := countDestroyed_alike (h.setDevice (w.workers d).device
    { w.devices (w.workers d).device with
      exports := Table.put (w.devices (w.workers d).device).exports t.id none }) d
  exact ⟨hcount.answers, hcount.leaves, hcount.workerCount, hcount.receiverCount⟩

/-- A map waits here for what has executed there. -/
theorem complete_alike (h : Matches o w v) (d : Nat) :
    Alike o w (complete d w) (complete d v) := by
  simp only [complete, h.workers d]
  cases hhealth : (w.workers d).health with
  | dead => exact refuse_alike h _
  | doomed => exact absurd hhealth (h.doomed d)
  | live =>
    have hdrained := h.drain d
    have hlive : ((w.drain d).workers d).health = .live := by
      have hv := hdrained.workers d
      rw [h.workers d] at hv
      exact (congrArg Worker.health hv).symm.trans hhealth
    simp only [World.drain_idle (h.queue d), h.workers d, hlive, hhealth]
    exact ⟨rfl, hdrained, hdrained.workerCount.symm.trans h.workerCount,
      hdrained.receiverCount.symm.trans h.receiverCount⟩

/-! ### Calls that hand a command in -/

/-- A call is refused in both worlds, or has worker `d` accept the same command in both. -/
inductive Submits (d : Nat) (w v : World) :
    EStateM.Result Fault World α → EStateM.Result Fault World α → Prop
  | refused (e : Fault) : Submits d w v (.error e w) (.error e v)
  | accepted (a : α) {c : Command} (hc : w.Admissible d c) :
    Submits d w v (.ok a (w.enqueue d c)) (.ok a (v.enqueue d c))

/-- The texture shows a storage that there is, and has as many bytes. -/
structure Shows (w : World) (t : Texture) : Prop where
  known : t.storage < w.storageCount
  length : (w.storages t.storage).length = t.size.byteCount

theorem accept_both (h : Matches o w v) (d : Nat) (c : Command) :
    (∃ e, accept d c w = .error e w ∧ accept d c v = .error e v) ∨
      accept d c w = .ok () (w.push d c) ∧ accept d c v = .ok () (v.push d c) ∧
        (w.workers d).health = .live := by
  have hdead : v.Dead d ↔ w.Dead d := by rw [Dead, h.workers, Dead]
  rcases accept_cases d c w with ⟨hw, hlive⟩ | ⟨hw, hdied⟩
  · rcases accept_cases d c v with ⟨hv, -⟩ | ⟨-, hdied⟩
    · refine .inr ⟨hw, hv, ?_⟩
      cases hhealth : (w.workers d).health with
      | live => rfl
      | doomed => exact absurd hhealth (h.doomed d)
      | dead => exact absurd hhealth hlive
    · exact absurd (hdead.1 hdied) hlive
  · rcases accept_cases d c v with ⟨-, hlive⟩ | ⟨hv, -⟩
    · exact absurd (hdead.2 hdied) hlive
    · exact .inl ⟨_, hw, hv⟩

variable {d : Nat} {t : Texture}

theorem write_submits (h : Matches o w v) (hd : d < w.workerCount) (ht : Shows w t)
    (data : Pixels) : Submits d w v (write d t data w) (write d t data v) := by
  simp only [write]
  split
  · exact .refused _
  · rename_i hlength
    rcases accept_both h d (.write t.storage data) with ⟨e, hw, hv⟩ | ⟨hw, hv, hlive⟩ <;>
      rw [hw, hv]
    · exact .refused e
    · refine .accepted (c := .write t.storage data) ()
        ⟨hlive, hd, ?_, by simpa [Command.storages] using ht.known, ?_⟩
      · exact (Decidable.not_not.1 hlength).trans ht.length.symm
      · rintro r ⟨⟩

theorem stage_submits (h : Matches o w v) (hd : d < w.workerCount) (ht : Shows w t) {s : Texture}
    (hs : Shows w s) (region : Extent) :
    Submits d w v (stage d t s region w) (stage d t s region v) := by
  simp only [stage]
  split
  · exact .refused _
  · rename_i hcovers
    split
    · exact .refused _
    · rcases accept_both h d (.copy t s region) with ⟨e, hw, hv⟩ | ⟨hw, hv, hlive⟩ <;> rw [hw, hv]
      · exact .refused e
      · obtain ⟨hsource, htarget⟩ := Bool.and_eq_true_iff.1 (by simpa using hcovers)
        refine .accepted (c := .copy t s region) ()
          ⟨hlive, hd, ⟨hsource, htarget, ht.length, hs.length⟩, ?_, ?_⟩
        · simpa [Command.storages] using ⟨ht.known, hs.known⟩
        · rintro r ⟨⟩

theorem read_submits (h : Matches o w v) (hd : d < w.workerCount) (ht : Shows w t) :
    Submits d w v (read d t w) (read d t v) := by
  simp only [read, h.receiverCount]
  rcases accept_both h d (.read t.storage w.receiverCount) with ⟨e, hw, hv⟩ | ⟨hw, hv, hlive⟩ <;>
    rw [hw, hv]
  · exact .refused e
  · refine .accepted (c := .read t.storage w.receiverCount) _
      ⟨hlive, hd, trivial, by simpa [Command.storages] using ht.known, ?_⟩
    rintro r ⟨⟩
    rfl

end
end SurfaceRelay.Soft
