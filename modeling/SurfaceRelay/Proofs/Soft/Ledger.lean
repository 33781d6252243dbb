import SurfaceRelay.Proofs.Soft.Progress

/-! What is known of the storages of a pool while workers work.

A ledger gives a status to storages. A status is a promise about what is still queued: a
storage that may be written is read by nobody any more, one that is shown is written by nobody,
and one that is guarded has all its reads ahead of the marker that guards it. No event breaks a
promise (`Ledger.progress`), and every call that a pool or a presenter makes keeps the ledger,
possibly with one entry changed. A read that was issued therefore delivers what its storage
showed when it was issued. -/
namespace SurfaceRelay.Soft

/-- What a pool has a storage for at the moment, between its producer and its consumer. -/
inductive Status
  /-- Its contents do not matter. -/
  | scratch
  /-- The consumer may write it. -/
  | writable
  /-- The consumer was given this frame to write, behind whatever it wrote before. -/
  | landing (frame : Pixels)
  /-- It shows this frame, and the producer may read it. -/
  | shown (frame : Pixels)
  /-- The producer reads it no more, except ahead of the marker of this count. -/
  | guarded (count : Option Nat)

/-- Nothing is written to a storage of this status. -/
def Status.Fixed : Status → Prop
  | shown _ | guarded _ => True
  | scratch | writable | landing _ => False

namespace World

def Unread (w : World) (i : Nat) : Prop := ∀ d r, .read i r ∉ w.queue d

def ReadBy (w : World) (p i : Nat) : Prop := ∀ d r, .read i r ∈ w.queue d → d = p

/-- Every read of the storage that worker `p` has accepted is ahead of a marker. -/
def ReadBefore (w : World) (p i n : Nat) : Prop :=
  ∀ first r rest, w.queue p = first ++ .read i r :: rest → .retire n ∈ rest

/-- The promise of a status about storage `i`, with producer `p` and consumer `c`. -/
def Holds (w : World) (p c i : Nat) : Status → Prop
  | .scratch => True
  | .writable => w.WrittenBy c i ∧ w.Unread i
  | .landing frame => w.WrittenBy c i ∧ w.Unread i ∧
      (w.Dead c ∨ settle i (w.queue c) (w.storages i) = frame)
  | .shown frame => w.Unwritten i ∧ w.ReadBy p i ∧ w.storages i = frame
  | .guarded count => w.Unwritten i ∧ w.ReadBy p i ∧ ∀ n, count = some n → w.ReadBefore p i n

end World

/-- A table of statuses, nothing for what is not known. -/
abbrev Statuses := Nat → Option Status

/-- Receiver `r` was promised this frame, and gets it or nothing. -/
structure Receipt (σ : Statuses) (w : World) (r : Nat) (frame : Pixels) : Prop where
  known : r < w.receiverCount
  holds : w.receivers r = .pending ∨ w.receivers r = .closed ∨ w.receivers r = .delivered frame
  queued : ∀ d i, .read i r ∈ w.queue d →
    (∃ st, σ i = some st ∧ st.Fixed) ∧ w.storages i = frame

/-- The statuses hold, and every read that was issued gets what was shown when it was. -/
structure Ledger (p c : Nat) (σ : Statuses) (issued : List (Nat × Option Pixels)) (w : World) :
    Prop where
  sound : w.Sound
  device : (w.workers p).device = (w.workers c).device
  known : ∀ i st, σ i = some st → i < w.storageCount
  holds : ∀ i st, σ i = some st → w.Holds p c i st
  receipts : ∀ r o, (r, o) ∈ issued → ∃ frame, o = some frame ∧ Receipt σ w r frame

variable {p c : Nat} {σ : Statuses} {issued : List (Nat × Option Pixels)} {w w' : World}

/-! ### Events -/

theorem World.Holds.progress {i : Nat} {st : Status} (h : w.Holds p c i st)
    (hw : w.Progress w') : w'.Holds p c i st := by
  have hwritten (h : w.WrittenBy c i) : w'.WrittenBy c i :=
    fun d cmd hcmd => h d cmd (hw.mem hcmd)
  have hunread (h : w.Unread i) : w'.Unread i := fun d r hr => h d r (hw.mem hr)
  have hunwritten (h : w.Unwritten i) : w'.Unwritten i := fun d cmd hcmd => h d cmd (hw.mem hcmd)
  have hread (h : w.ReadBy p i) : w'.ReadBy p i := fun d r hr => h d r (hw.mem hr)
  cases st with
  | scratch => exact trivial
  | writable => exact ⟨hwritten h.1, hunread h.2⟩
  | landing frame =>
    refine ⟨hwritten h.1, hunread h.2.1, ?_⟩
    rcases h.2.2 with hdead | hsettle
    · exact .inl (hw.dead c hdead)
    · rcases hw.settled c i h.1 with hdead | heq
      · exact .inl hdead
      · exact .inr (heq.trans hsettle)
  | shown frame => exact ⟨hunwritten h.1, hread h.2.1, (hw.unwritten i h.1).trans h.2.2⟩
  | guarded count =>
    refine ⟨hunwritten h.1, hread h.2.1, fun n hn first r rest hq => ?_⟩
    obtain ⟨gone, hgone⟩ := hw.queues p
    exact h.2.2 n hn (gone ++ first) r rest (by rw [hgone, hq, List.append_assoc])

/-- No command that is queued changes a storage that issued reads are about. -/
theorem World.Holds.unwritten {i : Nat} {st : Status} (h : w.Holds p c i st) (hst : st.Fixed) :
    w.Unwritten i := by
  cases st with
  | shown => exact h.1
  | guarded => exact h.1
  | _ => cases hst

/-- **Whatever the workers do, the ledger stands.** -/
theorem Ledger.progress (h : Ledger p c σ issued w) (hw : w.Progress w') :
    Ledger p c σ issued w' := by
  refine ⟨hw.sound h.sound, ?_, fun i st hi => ?_, fun i st hi => (h.holds i st hi).progress hw,
    fun r o hr => ?_⟩
  · rw [hw.device, hw.device, h.device]
  · rw [hw.storageCount]
    exact h.known i st hi
  · obtain ⟨frame, ho, hreceipt⟩ := h.receipts r o hr
    refine ⟨frame, ho, by rw [hw.receiverCount]; exact hreceipt.known, ?_, fun d i hq => ?_⟩
    · rcases hw.receivers r with hsame | hclosed | ⟨d, i, hq, hdelivered⟩
      · rw [hsame]
        exact hreceipt.holds
      · exact .inr (.inl hclosed)
      · rw [hdelivered, (hreceipt.queued d i hq).2]
        exact .inr (.inr rfl)
    · obtain ⟨⟨st, hst, hfixed⟩, hframe⟩ := hreceipt.queued d i (hw.mem hq)
      exact ⟨⟨st, hst, hfixed⟩, (hw.unwritten i ((h.holds i st hst).unwritten hfixed)).trans hframe⟩

/-! ### Changing one status -/

theorem put_cases {i j : Nat} {st st' : Status} (h : Table.put σ i (some st) j = some st') :
    j = i ∧ st' = st ∨ j ≠ i ∧ σ j = some st' := by
  by_cases hj : j = i
  · subst hj
    rw [Table.put_same] at h
    cases h
    exact .inl ⟨rfl, rfl⟩
  · rw [Table.put_other _ hj] at h
    exact .inr ⟨hj, h⟩

/-- A status can be replaced by another one whose promise holds. Reads that are still to come
stay promised if the storage stays fixed, or if there are none. -/
theorem Ledger.restate (h : Ledger p c σ issued w) {i : Nat} {old : Status} (new : Status)
    (hold : σ i = some old) (hnew : w.Holds p c i new)
    (hreads : old.Fixed → new.Fixed ∨ w.Unread i) :
    Ledger p c (Table.put σ i (some new)) issued w := by
  refine ⟨h.sound, h.device, fun j st hj => ?_, fun j st hj => ?_, fun r o hr => ?_⟩
  · rcases put_cases hj with ⟨rfl, -⟩ | ⟨-, hj⟩
    · exact h.known _ _ hold
    · exact h.known j st hj
  · rcases put_cases hj with ⟨rfl, rfl⟩ | ⟨-, hj⟩
    · exact hnew
    · exact h.holds j st hj
  · obtain ⟨frame, ho, hreceipt⟩ := h.receipts r o hr
    refine ⟨frame, ho, hreceipt.known, hreceipt.holds, fun d j hq => ?_⟩
    obtain ⟨⟨st, hst, hfixed⟩, hframe⟩ := hreceipt.queued d j hq
    refine ⟨?_, hframe⟩
    by_cases hj : j = i
    · subst hj
      rw [hold] at hst
      cases hst
      rcases hreads hfixed with hnew | hunread
      · exact ⟨new, Table.put_same .., hnew⟩
      · exact absurd hq (hunread d r)
    · exact ⟨st, by rw [Table.put_other _ hj, hst], hfixed⟩

/-! ### One more command -/

namespace World

/-- The world with one more command behind all others of a worker. -/
def push (w : World) (d : Nat) (cmd : Command) : World :=
  w.setWorker d { w.workers d with queue := w.queue d ++ [cmd] }

theorem queue_push (w : World) (d e : Nat) (cmd : Command) :
    (w.push d cmd).queue e = if e = d then w.queue d ++ [cmd] else w.queue e :=
  queue_setWorker w d e _

theorem mem_push {w : World} {d e : Nat} {cmd cmd' : Command}
    (h : cmd' ∈ (w.push d cmd).queue e) : cmd' ∈ w.queue e ∨ e = d ∧ cmd' = cmd := by
  rw [queue_push] at h
  split at h
  · rename_i he
    rcases List.mem_append.1 h with h | h
    · exact .inl (he ▸ h)
    · exact .inr ⟨he, List.mem_singleton.1 h⟩
  · exact .inl h

/-- Everything about a worker but its queue is as it was. -/
theorem workers_push (w : World) (d e : Nat) (cmd : Command) :
    (w.push d cmd).workers e = { w.workers e with queue := (w.push d cmd).queue e } := by
  by_cases he : e = d
  · subst he
    rw [queue, push, workers_setWorker, if_pos rfl]
  · rw [queue, push, workers_setWorker, if_neg he]

theorem dead_push (w : World) (d e : Nat) (cmd : Command) :
    (w.push d cmd).Dead e ↔ w.Dead e := by
  rw [Dead, workers_push, Dead]

theorem Sound.push {d : Nat} (h : w.Sound) (cmd : Command) (hlive : ¬w.Dead d)
    (htarget : ∀ i, cmd.target? = some i → i < w.storageCount)
    (hread : ∀ i r, cmd = .read i r → i < w.storageCount ∧ r < w.receiverCount)
    (hcount : ∀ n, cmd = .retire n → (w.workers d).retired < n ∧ n ≤ (w.workers d).lastCount ∧
      ∀ m, .retire m ∈ w.queue d → m < n) : (w.push d cmd).Sound := by
  refine ⟨fun e cmd' hcmd => ?_, fun e i r hr => ?_, fun e he => ?_, fun e => ?_, fun e n hn => ?_,
    fun e => ?_⟩
  · rcases mem_push hcmd with hcmd | ⟨-, rfl⟩
    · exact h.targets e cmd' hcmd
    · exact htarget
  · rcases mem_push hr with hr | ⟨-, hr⟩
    · exact h.reads e i r hr
    · exact hread i r hr.symm
  · rw [dead_push] at he
    rw [queue_push]
    split
    · rename_i hd
      exact absurd (hd ▸ he) hlive
    · exact h.dead e he
  · rw [queue_push]
    split
    · rw [List.filterMap_append, List.pairwise_append]
      refine ⟨h.counts d, ?_, fun m hm n hn => ?_⟩
      · cases cmd with
        | retire n => exact List.pairwise_singleton ..
        | _ => exact .nil
      · obtain ⟨cmd', hcmd', hm⟩ := List.mem_filterMap.1 hm
        obtain ⟨cmd'', hcmd'', hn⟩ := List.mem_filterMap.1 hn
        cases List.mem_singleton.1 hcmd''
        cases cmd' <;> cases hm
        cases cmd <;> cases hn
        exact (hcount _ rfl).2.2 _ hcmd'
    · exact h.counts e
  · rw [workers_push]
    rcases mem_push hn with hn | ⟨rfl, rfl⟩
    · exact h.pending e n hn
    · exact ⟨(hcount n rfl).1, (hcount n rfl).2.1⟩
  · rw [workers_push]
    exact h.retired e

section Push
variable {d i : Nat} {cmd : Command}

theorem WrittenBy.push (h : w.WrittenBy c i)
    (ht : cmd.target? = some i → d = c ∧ ∃ data, cmd = .write i data) :
    (w.push d cmd).WrittenBy c i := by
  intro e cmd' hcmd htarget
  rcases mem_push hcmd with hcmd | ⟨rfl, rfl⟩
  · exact h e cmd' hcmd htarget
  · exact ht htarget

theorem Unwritten.push (h : w.Unwritten i) (ht : cmd.target? ≠ some i) :
    (w.push d cmd).Unwritten i := by
  intro e cmd' hcmd
  rcases mem_push hcmd with hcmd | ⟨-, rfl⟩
  · exact h e cmd' hcmd
  · exact ht

theorem Unread.push (h : w.Unread i) (hread : ∀ r, cmd ≠ .read i r) : (w.push d cmd).Unread i := by
  intro e r hr
  rcases mem_push hr with hr | ⟨-, hr⟩
  · exact h e r hr
  · exact hread r hr.symm

theorem ReadBy.push (h : w.ReadBy p i) (hread : ∀ r, cmd = .read i r → d = p) :
    (w.push d cmd).ReadBy p i := by
  intro e r hmem
  rcases mem_push hmem with hr | ⟨rfl, hr⟩
  · exact h e r hr
  · exact hread r hr.symm

/-- What is put behind everything is behind every read, except itself. -/
theorem read_ahead (hread : ∀ r, cmd ≠ .read i r) {first rest : List Command} {r : Nat}
    (hq : w.queue d ++ [cmd] = first ++ .read i r :: rest) :
    ∃ rest', rest = rest' ++ [cmd] ∧ w.queue d = first ++ .read i r :: rest' := by
  rcases List.eq_nil_or_concat rest with rfl | ⟨rest', last, rfl⟩
  · cases (List.append_inj' hq rfl).2
    exact absurd rfl (hread r)
  · rw [List.concat_eq_append, ← List.cons_append, ← List.append_assoc] at hq
    obtain ⟨hfront, hlast⟩ := List.append_inj' hq rfl
    exact ⟨rest', by rw [List.concat_eq_append, ← hlast], hfront⟩

theorem ReadBefore.push {n : Nat} (h : w.ReadBefore p i n) (hread : ∀ r, cmd ≠ .read i r) :
    (w.push d cmd).ReadBefore p i n := by
  intro first r rest hq
  rw [queue_push] at hq
  split at hq
  · rename_i hd
    obtain ⟨rest', rfl, hfront⟩ := read_ahead hread hq
    exact List.mem_append_left _ (h first r rest' (hd ▸ hfront))
  · exact h first r rest hq

/-- A marker that is put behind everything is behind every read. -/
theorem readBefore_retire (w : World) (p i n : Nat) : (w.push p (.retire n)).ReadBefore p i n := by
  intro first r rest hq
  rw [queue_push, if_pos rfl] at hq
  obtain ⟨rest', rfl, -⟩ := read_ahead (fun r hr => by cases hr) hq
  exact List.mem_append_right _ (List.mem_singleton_self _)

/-- A command breaks no promise about a storage that it neither changes nor reads. -/
theorem Holds.push {st : Status} (h : w.Holds p c i st) (htarget : cmd.target? ≠ some i)
    (hread : ∀ r, cmd ≠ .read i r) : (w.push d cmd).Holds p c i st := by
  cases st with
  | scratch => exact trivial
  | writable => exact ⟨h.1.push fun ht => absurd ht htarget, h.2.push hread⟩
  | landing frame =>
    refine ⟨h.1.push fun ht => absurd ht htarget, h.2.1.push hread, ?_⟩
    rw [dead_push, queue_push]
    refine h.2.2.imp_right fun hsettle => ?_
    split
    · rename_i hc
      rw [settle_append, ← hc]
      refine (settle_cons (fun data hw => htarget ?_) [] _).trans hsettle
      rw [hw]
      rfl
    · exact hsettle
  | shown frame => exact ⟨h.1.push htarget, h.2.1.push fun r hr => absurd hr (hread r), h.2.2⟩
  | guarded count =>
    exact ⟨h.1.push htarget, h.2.1.push fun r hr => absurd hr (hread r),
      fun n hn => (h.2.2 n hn).push hread⟩

end Push

end World

/-- A command that changes scratch storages only, and delivers nothing, keeps the ledger. -/
theorem Ledger.push (h : Ledger p c σ issued w) {d : Nat} {cmd : Command}
    (hsound : (w.push d cmd).Sound) (htarget : ∀ i, cmd.target? = some i → σ i = some .scratch)
    (hread : ∀ i r, cmd ≠ .read i r) : Ledger p c σ issued (w.push d cmd) := by
  refine ⟨hsound, ?_, h.known, fun i st hi => ?_, fun r o hr => ?_⟩
  · rw [World.workers_push, World.workers_push]
    exact h.device
  · by_cases ht : cmd.target? = some i
    · rw [htarget i ht] at hi
      cases hi
      exact trivial
    · exact (h.holds i st hi).push ht (hread i)
  · obtain ⟨frame, ho, hreceipt⟩ := h.receipts r o hr
    refine ⟨frame, ho, hreceipt.known, hreceipt.holds, fun e i hq => ?_⟩
    rcases World.mem_push hq with hq | ⟨-, hq⟩
    · exact hreceipt.queued e i hq
    · exact absurd hq.symm (hread i r)

end SurfaceRelay.Soft
