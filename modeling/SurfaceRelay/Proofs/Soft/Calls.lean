import SurfaceRelay.Proofs.Soft.Ledger

/-! The calls of a software domain, on the ledger.

One rule for each call: which entry it changes, and what it may rely on in return. Calls that
can be refused leave the ledger as it was when they are. -/
namespace SurfaceRelay.Soft
variable {p c d : Nat} {σ : Statuses} {issued : List (Nat × Option Pixels)} {w w' : World}
  {frame : Pixels}

/-! ### Books -/

theorem Ledger.setDevice (h : Ledger p c σ issued w) (i : Nat) (v : Device) :
    Ledger p c σ issued (w.setDevice i v) :=
  ⟨⟨h.sound.targets, h.sound.reads, h.sound.dead, h.sound.counts, h.sound.pending,
    h.sound.retired⟩, h.device, h.known,
    fun i st hi => by
      have := h.holds i st hi
      cases st <;> exact this,
    fun r o hr => by
      obtain ⟨frame, ho, hreceipt⟩ := h.receipts r o hr
      exact ⟨frame, ho, hreceipt.known, hreceipt.holds, hreceipt.queued⟩⟩

/-- Counting a resource changes nothing that is promised. -/
theorem Ledger.count (h : Ledger p c σ issued w) (d : Nat) (created destroyed handles : Nat) :
    Ledger p c σ issued (w.setWorker d { w.workers d with created, destroyed, handles }) :=
  h.progress (World.progress_setWorker rfl rfl rfl (Nat.le_refl _) Iff.rfl)

namespace World

/-- The world with one more storage. -/
def allocate (w : World) (data : Pixels) : World :=
  { w.setStorage w.storageCount data with storageCount := w.storageCount + 1 }

theorem storages_allocate (w : World) (data : Pixels) {i : Nat} (hi : i < w.storageCount) :
    (w.allocate data).storages i = w.storages i := Table.put_other _ (Nat.ne_of_lt hi)

theorem Sound.allocate (h : w.Sound) (data : Pixels) : (w.allocate data).Sound :=
  ⟨fun e cmd hcmd i hi => Nat.lt_succ_of_lt (h.targets e cmd hcmd i hi),
    fun e i r hr => ⟨Nat.lt_succ_of_lt (h.reads e i r hr).1, (h.reads e i r hr).2⟩,
    h.dead, h.counts, h.pending, h.retired⟩

theorem Holds.allocate {i : Nat} {st : Status} (h : w.Holds p c i st) (hi : i < w.storageCount)
    (data : Pixels) : (w.allocate data).Holds p c i st := by
  have hsame := storages_allocate w data hi
  cases st with
  | landing frame =>
    refine ⟨h.1, h.2.1, h.2.2.imp_right fun hsettle => ?_⟩
    rw [hsame]
    exact hsettle
  | shown frame => exact ⟨h.1, h.2.1, hsame.trans h.2.2⟩
  | _ => exact h

/-- No command names a storage that is not there. -/
theorem Sound.untouched (h : w.Sound) (c : Nat) {i : Nat} (hi : w.storageCount ≤ i) :
    w.WrittenBy c i ∧ w.Unread i :=
  ⟨fun e cmd hcmd ht => absurd (h.targets e cmd hcmd i ht) (Nat.not_lt.2 hi),
    fun e r hr => absurd (h.reads e i r hr).1 (Nat.not_lt.2 hi)⟩

end World

/-- A new storage can be given any status that a storage no command names has. -/
theorem Ledger.allocate (h : Ledger p c σ issued w) (st : Status)
    (hst : st = .scratch ∨ st = .writable) (data : Pixels) :
    σ w.storageCount = none ∧
      Ledger p c (Table.put σ w.storageCount (some st)) issued (w.allocate data) := by
  have hnone : σ w.storageCount = none := by
    cases hi : σ w.storageCount with
    | none => rfl
    | some st => exact absurd (h.known _ st hi) (Nat.lt_irrefl _)
  refine ⟨hnone, h.sound.allocate data, h.device, fun j st' hj => ?_, fun j st' hj => ?_,
    fun r o hr => ?_⟩
  · rcases put_cases hj with ⟨rfl, -⟩ | ⟨-, hj⟩
    · exact Nat.lt_succ_self _
    · exact Nat.lt_succ_of_lt (h.known j st' hj)
  · rcases put_cases hj with ⟨rfl, rfl⟩ | ⟨-, hj⟩
    · rcases hst with rfl | rfl
      · exact trivial
      · exact h.sound.untouched c (Nat.le_refl _)
    · exact (h.holds j st' hj).allocate (h.known j st' hj) data
  · obtain ⟨frame, ho, hreceipt⟩ := h.receipts r o hr
    refine ⟨frame, ho, hreceipt.known, hreceipt.holds, fun e i hq => ?_⟩
    have hlt := (h.sound.reads e i r hq).1
    obtain ⟨⟨st', hst', hfixed⟩, hframe⟩ := hreceipt.queued e i hq
    exact ⟨⟨st', by rw [Table.put_other _ (Nat.ne_of_lt hlt), hst'], hfixed⟩,
      (World.storages_allocate w data hlt).trans hframe⟩

/-! ### Textures -/

theorem addTexture_ledger (h : Ledger p c σ issued w) (d : Nat) (size : Extent) (storage : Nat) :
    ∃ t w', addTexture d size storage w = .ok t w' ∧ t.storage = storage ∧
      Ledger p c σ issued w' :=
  ⟨_, _, rfl, rfl, (h.count d _ _ _).setDevice _ _⟩

/-- A new texture has a storage of its own. -/
theorem newTexture_ledger (h : Ledger p c σ issued w) (st : Status)
    (hst : st = .scratch ∨ st = .writable) (d : Nat) (size : Extent) :
    ∃ t w', newTexture d size w = .ok t w' ∧ σ t.storage = none ∧
      Ledger p c (Table.put σ t.storage (some st)) issued w' := by
  obtain ⟨hnone, hledger⟩ := h.allocate st hst (.blank size)
  obtain ⟨t, w', hadd, hstorage, hledger⟩ := addTexture_ledger hledger d size w.storageCount
  exact ⟨t, w', hadd, by rw [hstorage, hnone], by rw [hstorage]; exact hledger⟩

/-- The device of worker `d` exports a storage under a share handle. -/
def Exported (d shared storage : Nat) (w : World) : Prop :=
  (w.devices (w.workers d).device).exports shared = some storage

theorem share_ledger (h : Ledger p c σ issued w) (d : Nat) (t : Texture) :
    ∃ w', share d t w = .ok t.id w' ∧ Ledger p c σ issued w' ∧ Exported d t.id t.storage w' := by
  refine ⟨_, rfl, h.setDevice _ _, ?_⟩
  show (Table.put w.devices (w.workers d).device _ (w.workers d).device).exports t.id = _
  rw [Table.put_same]
  exact Table.put_same ..

variable {e shared storage : Nat}

theorem Exported.count (h : Exported e shared storage w) (d created : Nat) :
    Exported e shared storage (w.setWorker d { w.workers d with created }) := by
  have hdevice : ((w.setWorker d { w.workers d with created }).workers e).device =
      (w.workers e).device := by
    rw [World.workers_setWorker]
    split
    · rename_i he
      rw [he]
    · rfl
  rw [Exported, hdevice]
  exact h

theorem Exported.number (h : Exported e shared storage w) (i lastId : Nat) :
    Exported e shared storage (w.setDevice i { w.devices i with lastId }) := by
  have hexports (j : Nat) : ((w.setDevice i { w.devices i with lastId }).devices j).exports =
      (w.devices j).exports := by
    show (Table.put w.devices i _ j).exports = _
    by_cases hj : j = i
    · rw [hj, Table.put_same]
    · rw [Table.put_other _ hj]
  rw [Exported, hexports]
  exact h

theorem newMarker_exported (d : Nat) : (newMarker d).Keeps (Exported e shared storage) :=
  Attempt.keeps_of_leaves fun _ h => h.count d _

/-- Making another texture withdraws no share handle. -/
theorem newTexture_exported (d : Nat) (size : Extent) :
    (newTexture d size).Keeps (Exported e shared storage) := by
  refine Attempt.keeps_of_leaves fun w h => ?_
  have hstored : Exported e shared storage
      { w.setStorage w.storageCount (.blank size) with storageCount := w.storageCount + 1 } := h
  exact (hstored.count d _).number _ _

/-- A view shows the storage that was exported. -/
theorem openShare_ledger (h : Ledger p c σ issued w) (d shared : Nat) (size : Extent) :
    Ledger p c σ issued (Attempt.leaves (openShare d shared size w)) ∧
      ∀ t w', openShare d shared size w = .ok t w' → Exported d shared t.storage w := by
  simp only [openShare]
  split
  · exact ⟨h, fun t w' ht => by cases ht⟩
  · rename_i storage hstorage
    split
    · exact ⟨h, fun t w' ht => by cases ht⟩
    · obtain ⟨t, w', hadd, ht, hledger⟩ := addTexture_ledger h d size storage
      rw [hadd]
      refine ⟨hledger, fun t' w'' ht' => ?_⟩
      cases ht'
      rw [Exported, hstorage, ht]

/-! ### Commands -/

theorem accept_cases (d : Nat) (cmd : Command) (w : World) :
    accept d cmd w = .ok () (w.push d cmd) ∧ ¬w.Dead d ∨
      accept d cmd w = .error Refusal.workerExited.fault w ∧ w.Dead d := by
  by_cases hd : w.Dead d
  · exact .inr ⟨if_pos hd, hd⟩
  · exact .inl ⟨if_neg hd, hd⟩

/-- A frame that the consumer accepts for a storage it may write is on its way there. -/
theorem write_ledger (h : Ledger p c σ issued w) {t : Texture} (ht : σ t.storage = some .writable)
    (data : Pixels) :
    (∃ w', write c t data w = .ok () w' ∧
      Ledger p c (Table.put σ t.storage (some (.landing data))) issued w') ∨
    ∃ e, write c t data w = .error e w := by
  simp only [write]
  split
  · exact .inr ⟨_, rfl⟩
  · rcases accept_cases c (.write t.storage data) w with ⟨haccept, hlive⟩ | ⟨haccept, -⟩
    · refine .inl ⟨_, haccept, ?_⟩
      obtain ⟨hwritten, hunread⟩ := h.holds _ _ ht
      have hsound := h.sound.push (.write t.storage data) hlive
        (by rintro _ ⟨⟩; exact h.known _ _ ht) (by simp) (by simp)
      have hscratch := (h.restate .scratch ht trivial fun hf => by cases hf).push hsound
        (by rintro _ ⟨⟩; exact Table.put_same ..) (by simp)
      have hlanding := hscratch.restate (.landing data) (Table.put_same ..)
        ⟨hwritten.push fun _ => ⟨rfl, data, rfl⟩, hunread.push (by simp), .inr ?_⟩
        fun hf => by cases hf
      · rwa [Table.put_put] at hlanding
      · rw [World.queue_push, if_pos rfl, settle_append]
        simp only [settle, if_true]
    · exact .inr ⟨_, haccept⟩

/-- Copying to a scratch storage keeps the ledger, whether or not the copy is accepted. -/
theorem stage_ledger (h : Ledger p c σ issued w) (d : Nat) {t s : Texture}
    (hs : σ s.storage = some .scratch) (region : Extent) :
    Ledger p c σ issued (Attempt.leaves (stage d t s region w)) := by
  simp only [stage]
  split
  · exact h
  · split
    · exact h
    · rcases accept_cases d (.copy t s region) w with ⟨haccept, hlive⟩ | ⟨haccept, -⟩
      · rw [haccept]
        exact h.push (h.sound.push _ hlive (by rintro _ ⟨⟩; exact h.known _ _ hs) (by simp)
          (by simp)) (by rintro _ ⟨⟩; exact hs) (by simp)
      · rw [haccept]
        exact h

namespace World

/-- The world with one more receiver, which waits. -/
def openReceiver (w : World) : World :=
  { w.setReceiver w.receiverCount .pending with receiverCount := w.receiverCount + 1 }

theorem Sound.openReceiver (h : w.Sound) : w.openReceiver.Sound :=
  ⟨h.targets, fun e i r hr => ⟨(h.reads e i r hr).1, Nat.lt_succ_of_lt (h.reads e i r hr).2⟩,
    h.dead, h.counts, h.pending, h.retired⟩

theorem Holds.openReceiver {i : Nat} {st : Status} (h : w.Holds p c i st) :
    w.openReceiver.Holds p c i st := by
  cases st <;> exact h

end World

/-- A read that is put behind everything else will get the frame that the storage shows. -/
theorem Ledger.issue (h : Ledger p c σ issued w) {i : Nat} (hi : σ i = some (.shown frame))
    (hlive : ¬w.Dead p) :
    Ledger p c σ ((w.receiverCount, some frame) :: issued)
      (w.openReceiver.push p (.read i w.receiverCount)) := by
  have hsound := h.sound.openReceiver.push (.read i w.receiverCount) hlive
    (by simp [Command.target?]) (fun j r hr => by
      cases hr
      exact ⟨h.known _ _ hi, Nat.lt_succ_self _⟩) (by simp)
  refine ⟨hsound, ?_, h.known, fun j st hj => ?_, fun r o hr => ?_⟩
  · rw [World.workers_push, World.workers_push]
    exact h.device
  · by_cases he : j = i
    · subst he
      rw [hi] at hj
      cases hj
      obtain ⟨hunwritten, hread, hframe⟩ := h.holds _ _ hi
      exact ⟨hunwritten.push (by simp [Command.target?]), hread.push fun _ _ => rfl, hframe⟩
    · refine (h.holds j st hj).openReceiver.push (by simp [Command.target?]) fun r hr => ?_
      cases hr
      exact he rfl
  · rcases List.mem_cons.1 hr with hr | hr
    · cases hr
      refine ⟨frame, rfl, Nat.lt_succ_self _, .inl (Table.put_same ..), fun e j hq => ?_⟩
      rcases World.mem_push hq with hq | ⟨-, hq⟩
      · exact absurd (h.sound.reads e j _ hq).2 (Nat.lt_irrefl _)
      · cases hq
        exact ⟨⟨_, hi, trivial⟩, (h.holds _ _ hi).2.2⟩
    · obtain ⟨frame', ho, hreceipt⟩ := h.receipts r o hr
      have hne : r ≠ w.receiverCount := Nat.ne_of_lt hreceipt.known
      refine ⟨frame', ho, Nat.lt_succ_of_lt hreceipt.known, ?_, fun e j hq => ?_⟩
      · have hsame : w.openReceiver.receivers r = w.receivers r := Table.put_other _ hne
        exact hsame ▸ hreceipt.holds
      · rcases World.mem_push hq with hq | ⟨-, hq⟩
        · exact hreceipt.queued e j hq
        · cases hq
          exact absurd rfl hne

/-- A read of the storage that is shown is refused, or will get the frame that it shows. -/
theorem read_ledger (h : Ledger p c σ issued w) {t : Texture}
    (ht : σ t.storage = some (.shown frame)) :
    (∃ r w', read p t w = .ok r w' ∧ Ledger p c σ ((r, some frame) :: issued) w') ∨
    ∃ e, read p t w = .error e w := by
  simp only [read]
  rcases accept_cases p (.read t.storage w.receiverCount) w with ⟨haccept, hlive⟩ | ⟨haccept, -⟩
  · rw [haccept]
    exact .inl ⟨_, _, rfl, h.issue ht hlive⟩
  · rw [haccept]
    exact .inr ⟨_, rfl⟩

/-! ### Markers -/

/-- A marker that is accepted stands behind every read that was; when it is not, the producer
is dead. Either way nothing will be read that is not accepted yet. -/
theorem record_ledger (h : Ledger p c σ issued w) {i : Nat} (hi : σ i = some (.shown frame))
    (m : Marker) :
    (∃ m' w', record p m w = .ok m' w' ∧
      Ledger p c (Table.put σ i (some (.guarded (some m'.count)))) issued w') ∨
    ∃ e w', record p m w = .error e w' ∧
      Ledger p c (Table.put σ i (some (.guarded none))) issued w' := by
  let n := (w.workers p).lastCount + 1
  let w₁ := w.setWorker p { w.workers p with lastCount := n }
  have hprogress : w.Progress w₁ :=
    World.progress_setWorker rfl rfl rfl (Nat.le_succ _) Iff.rfl
  have h₁ := h.progress hprogress
  obtain ⟨hunwritten, hread, -⟩ := h₁.holds _ _ hi
  have hk : w₁.workers p = { w.workers p with lastCount := n } := Table.put_same ..
  simp only [record]
  rcases accept_cases p (.retire n) w₁ with ⟨haccept, hlive⟩ | ⟨haccept, -⟩
  · rw [show accept p _ (w.setWorker p _) = _ from haccept]
    refine .inl ⟨_, _, rfl, ?_⟩
    have hsound := h₁.sound.push (.retire n) hlive (by simp [Command.target?]) (by simp) (by
      rintro _ ⟨⟩
      rw [hk]
      refine ⟨Nat.lt_succ_of_le (h.sound.retired p), Nat.le_refl _, fun m hm => ?_⟩
      exact Nat.lt_succ_of_le (h.sound.pending p m (hprogress.mem hm)).2)
    have hpush := h₁.push hsound (by simp [Command.target?]) (by simp)
    obtain ⟨hunwritten, hread, -⟩ := hpush.holds _ _ hi
    refine hpush.restate (.guarded (some n)) hi ⟨hunwritten, hread, fun m hm => ?_⟩
      fun _ => .inl trivial
    cases hm
    exact World.readBefore_retire w₁ p i n
  · rw [show accept p _ (w.setWorker p _) = _ from haccept]
    refine .inr ⟨_, _, rfl, h₁.restate _ hi ⟨hunwritten, hread, ?_⟩ fun _ => .inl trivial⟩
    rintro _ ⟨⟩

theorem poll_some {m k : Marker} (h : poll d m w = .ok (some k) w') :
    k = m ∧ m.count ≤ (w.workers d).retired ∧ w' = w := by
  simp only [poll] at h
  split at h
  · rename_i hcount
    cases h
    exact ⟨rfl, hcount, rfl⟩
  · cases h

/-- When its marker has retired, a guarded storage is read by nobody any more. -/
theorem Ledger.retired (h : Ledger p c σ issued w) {i n : Nat}
    (hi : σ i = some (.guarded (some n))) (hn : n ≤ (w.workers p).retired) :
    Ledger p c (Table.put σ i (some .writable)) issued w := by
  obtain ⟨hunwritten, hread, hbefore⟩ := h.holds _ _ hi
  have hunread : w.Unread i := by
    intro d r hr
    obtain rfl := hread d r hr
    obtain ⟨first, rest, hq⟩ := List.append_of_mem hr
    have hmarker := hbefore n rfl first r rest hq
    have hpending := (h.sound.pending d n (by rw [hq]; simp [hmarker])).1
    omega
  exact h.restate _ hi ⟨fun d cmd hcmd ht => absurd ht (hunwritten d cmd hcmd), hunread⟩
    fun _ => .inr hunread

/-! ### Waiting -/

/-- A worker that executes everything it has accepted is left with nothing. -/
theorem queue_executeMany (w : World) (d n : Nat) :
    ((w.executeMany d n).queue d).length ≤ (w.queue d).length - n := by
  induction n generalizing w with
  | zero => exact Nat.le_refl _
  | succ n ih =>
    have hfirst := World.length_queue_executeNext w d
    have hrest := ih (w.executeNext d)
    show (((w.executeNext d).executeMany d n).queue d).length ≤ _
    omega

theorem queue_drain (w : World) (d : Nat) : (w.drain d).queue d = [] := by
  have h := queue_executeMany w d (w.queue d).length
  exact List.eq_nil_of_length_eq_zero (by rw [Nat.sub_self] at h; exact Nat.le_zero.1 h)

theorem Ledger.executeMany (h : Ledger p c σ issued w) (d n : Nat) :
    Ledger p c σ issued (w.executeMany d n) := by
  induction n generalizing w with
  | zero => exact h
  | succ n ih => exact ih (h.progress (World.progress_executeNext w d))

theorem Ledger.drain (h : Ledger p c σ issued w) (d : Nat) : Ledger p c σ issued (w.drain d) :=
  h.executeMany d _

theorem Ledger.die (h : Ledger p c σ issued w) (d : Nat) : Ledger p c σ issued (w.die d) :=
  h.progress (World.progress_die w d)

theorem complete_ledger (h : Ledger p c σ issued w) (d : Nat) :
    Ledger p c σ issued (Attempt.leaves (complete d w)) := by
  simp only [complete]
  split
  · exact h
  · exact (h.drain d).die d
  · split <;> exact h.drain d

/-- A map that completes leaves its worker alive and with nothing to do. -/
theorem complete_idle (h : complete d w = .ok () w') : w'.queue d = [] ∧ ¬w'.Dead d := by
  simp only [complete] at h
  split at h
  · cases h
  · cases h
  · split at h
    · cases h
    · rename_i hlive
      cases h
      exact ⟨queue_drain w d, hlive⟩

/-- When the consumer has nothing to do, a frame on its way has arrived. -/
theorem Ledger.landed (h : Ledger p c σ issued w) {i : Nat} (hi : σ i = some (.landing frame))
    (hqueue : w.queue c = []) (hlive : ¬w.Dead c) :
    Ledger p c (Table.put σ i (some (.shown frame))) issued w := by
  obtain ⟨hwritten, hunread, hsettle⟩ := h.holds _ _ hi
  refine h.restate _ hi ⟨fun d cmd hcmd ht => ?_, fun d r hr => absurd hr (hunread d r), ?_⟩
    fun hf => by cases hf
  · obtain ⟨rfl, -⟩ := hwritten d cmd hcmd ht
    rw [hqueue] at hcmd
    cases hcmd
  · rw [hqueue] at hsettle
    exact hsettle.resolve_left hlive

/-- When the producer has nothing to do, a guarded storage is read by nobody any more. -/
theorem Ledger.drained (h : Ledger p c σ issued w) {i : Nat} {count : Option Nat}
    (hi : σ i = some (.guarded count)) (hqueue : w.queue p = []) :
    Ledger p c (Table.put σ i (some .writable)) issued w := by
  obtain ⟨hunwritten, hread, -⟩ := h.holds _ _ hi
  have hunread : w.Unread i := by
    intro d r hr
    obtain rfl := hread d r hr
    rw [hqueue] at hr
    cases hr
  exact h.restate _ hi ⟨fun d cmd hcmd ht => absurd ht (hunwritten d cmd hcmd), hunread⟩
    fun _ => .inr hunread

/-- A frame that did not arrive can be written over. -/
theorem Ledger.abandon (h : Ledger p c σ issued w) {i : Nat} (hi : σ i = some (.landing frame)) :
    Ledger p c (Table.put σ i (some .writable)) issued w :=
  h.restate _ hi ⟨(h.holds _ _ hi).1, (h.holds _ _ hi).2.1⟩ fun hf => by cases hf

/-- Letting go of a domain ends its worker at most. -/
theorem Ledger.letGo (h : Ledger p c σ issued w) (d : Nat) : Ledger p c σ issued (w.letGo d) := by
  have hcount := h.count d (w.workers d).created (w.workers d).destroyed ((w.workers d).handles - 1)
  simp only [World.letGo]
  split
  · exact (hcount.drain d).die d
  · exact hcount

end SurfaceRelay.Soft
