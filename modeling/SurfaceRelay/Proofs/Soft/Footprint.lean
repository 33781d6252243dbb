import SurfaceRelay.Proofs.Soft.Views

/-! What a command touches.

A command changes one storage at most and fills one receiver at most, and what it leaves there
depends on the storages that it names and on nothing else. So commands come to the same in two
worlds that agree on the storages they name (`AgreeOn.carryAll`), and whoever looks at other
storages and other receivers does not notice them (`agree_carryAll`). A command that fits the
storages it names is always carried out (`execute_fitting`): a worker that is given nothing else
never dies of its commands. -/
namespace SurfaceRelay.Soft

namespace Command

/-- The storages that the command names. -/
def storages : Command → List Nat
  | .write storage _ | .read storage _ => [storage]
  | .copy source target _ => [source.storage, target.storage]
  | .retire _ => []

/-- The receiver that the command fills. -/
def receiver? : Command → Option Nat
  | .read _ receiver => some receiver
  | _ => none

/-- The command is about pixels, and storages with these numbers of bytes are what it is for. -/
def Fits (length : Nat → Nat) : Command → Prop
  | .write storage data => data.length = length storage
  | .read .. => True
  | .copy source target region =>
    source.size.covers region = true ∧ target.size.covers region = true ∧
      length source.storage = source.size.byteCount ∧
      length target.storage = target.size.byteCount
  | .retire _ => False

/-- Only the storages that the command names matter. -/
theorem Fits.congr {c : Command} {length length' : Nat → Nat} (h : c.Fits length)
    (hsame : ∀ i ∈ c.storages, length' i = length i) : c.Fits length' := by
  cases c with
  | write storage data => exact h.trans (hsame storage (by simp [storages])).symm
  | read => trivial
  | copy source target region =>
    obtain ⟨hsource, htarget, hfrom, hto⟩ := h
    exact ⟨hsource, htarget, (hsame _ (by simp [storages])).trans hfrom,
      (hsame _ (by simp [storages])).trans hto⟩
  | retire => cases h

end Command

/-! ### A copy within its images -/

/-- Rows that lie within both images can be copied. -/
theorem isSome_copyRows {row fromStride toStride rows : Nat} {source target : Pixels}
    (hfrom : row ≤ fromStride) (hto : row ≤ toStride)
    (hsource : rows * fromStride ≤ source.length) (htarget : rows * toStride ≤ target.length) :
    (copyRows row fromStride toStride rows source target).isSome := by
  induction rows generalizing source target with
  | zero => rfl
  | succ rows ih =>
    rw [Nat.succ_mul] at hsource htarget
    have hfits : (source.take row).length = row ∧ (target.take row).length = row := by
      simp only [List.length_take]
      omega
    simp only [copyRows, if_pos hfits, Option.isSome_map]
    apply ih <;> rw [List.length_drop] <;> omega

theorem copiedRows_le (region : Extent) : copiedRows region ≤ region.height.toNat := by
  unfold copiedRows
  split
  · exact Nat.zero_le _
  · exact Nat.le_refl _

theorem isSome_blit {region sourceSize targetSize : Extent} {source target : Pixels}
    (hfrom : sourceSize.covers region = true) (hto : targetSize.covers region = true)
    (hsource : source.length = sourceSize.byteCount)
    (htarget : target.length = targetSize.byteCount) :
    (blit region sourceSize targetSize source target).isSome := by
  obtain ⟨hfromWidth, hfromHeight⟩ := (Extent.covers_iff ..).1 hfrom
  obtain ⟨htoWidth, htoHeight⟩ := (Extent.covers_iff ..).1 hto
  have hrows := copiedRows_le region
  refine isSome_copyRows (Nat.mul_le_mul_right _ hfromWidth) (Nat.mul_le_mul_right _ htoWidth) ?_ ?_
  · rw [hsource]
    exact Nat.mul_le_mul_right _ (Nat.le_trans hrows hfromHeight)
  · rw [htarget]
    exact Nat.mul_le_mul_right _ (Nat.le_trans hrows htoHeight)

namespace World

/-! ### Carrying out commands -/

/-- What a command does to storages and receivers. A copy that does not fit does nothing. -/
def carry (w : World) : Command → World
  | .write storage data => w.setStorage storage data
  | .read storage receiver => w.setReceiver receiver (.delivered (w.storages storage))
  | .copy source target region =>
    w.setStorage target.storage
      ((blit region source.size target.size (w.storages source.storage)
        (w.storages target.storage)).getD (w.storages target.storage))
  | .retire _ => w

def carryAll (w : World) (commands : List Command) : World := commands.foldl carry w

section
variable (w : World) (c : Command)

@[simp] theorem devices_carry : (w.carry c).devices = w.devices := by
  cases c <;> rfl

@[simp] theorem workers_carry : (w.carry c).workers = w.workers := by
  cases c <;> rfl

@[simp] theorem queue_carry (d : Nat) : (w.carry c).queue d = w.queue d := by
  rw [queue, workers_carry, queue]

@[simp] theorem workerCount_carry : (w.carry c).workerCount = w.workerCount := by
  cases c <;> rfl

@[simp] theorem storageCount_carry : (w.carry c).storageCount = w.storageCount := by
  cases c <;> rfl

@[simp] theorem receiverCount_carry : (w.carry c).receiverCount = w.receiverCount := by
  cases c <;> rfl

end

/-- A command that fits is carried out, and does no more than that. -/
theorem execute_fitting {w : World} {c : Command} (h : c.Fits fun i => (w.storages i).length)
    (d : Nat) : w.execute d c = some (w.carry c) := by
  cases c with
  | write storage data =>
    have hfits : (w.storages storage).length = data.length := h.symm
    simp only [execute, Pixels.overwrite, if_pos hfits]
    rfl
  | read => rfl
  | copy source target region =>
    obtain ⟨hsource, htarget, hfrom, hto⟩ := h
    obtain ⟨x, hx⟩ := Option.isSome_iff_exists.1 (isSome_blit hsource htarget hfrom hto)
    simp only [execute, carry, hx]
    rfl
  | retire => cases h

theorem length_carry {w : World} {c : Command} (h : c.Fits fun i => (w.storages i).length)
    (i : Nat) : ((w.carry c).storages i).length = (w.storages i).length := by
  refine length_execute (execute_fitting h 0) (fun source target region hc => ?_) i
  subst hc
  exact h.2.1

/-! ### Agreement -/

/-- Two worlds agree on some storages and on some receivers. -/
structure AgreeOn (S R : Nat → Prop) (w v : World) : Prop where
  storages : ∀ i, S i → w.storages i = v.storages i
  receivers : ∀ r, R r → w.receivers r = v.receivers r

section
variable {S S' R R' : Nat → Prop} {u v w : World} {c : Command} {commands : List Command}

namespace AgreeOn

theorem of_eq (hs : w.storages = v.storages) (hr : w.receivers = v.receivers) :
    AgreeOn S R w v := ⟨fun i _ => congrFun hs i, fun r _ => congrFun hr r⟩

theorem symm (h : AgreeOn S R w v) : AgreeOn S R v w :=
  ⟨fun i hi => (h.storages i hi).symm, fun r hr => (h.receivers r hr).symm⟩

theorem trans (h : AgreeOn S R u v) (h' : AgreeOn S R v w) : AgreeOn S R u w :=
  ⟨fun i hi => (h.storages i hi).trans (h'.storages i hi),
    fun r hr => (h.receivers r hr).trans (h'.receivers r hr)⟩

theorem mono (h : AgreeOn S R w v) (hS : ∀ i, S' i → S i) (hR : ∀ r, R' r → R r) :
    AgreeOn S' R' w v :=
  ⟨fun i hi => h.storages i (hS i hi), fun r hr => h.receivers r (hR r hr)⟩

theorem setStorage (h : AgreeOn S R w v) (i : Nat) {x y : Pixels} (hxy : x = y) :
    AgreeOn S R (w.setStorage i x) (v.setStorage i y) := by
  refine ⟨fun j hj => ?_, h.receivers⟩
  show Table.put w.storages i x j = Table.put v.storages i y j
  unfold Table.put
  split
  · exact hxy
  · exact h.storages j hj

/-- A command leaves the same where the storages it names agree, the receiver it fills
included. -/
theorem carry (h : AgreeOn S R' w v) (hS : ∀ i ∈ c.storages, S i)
    (hR : ∀ r, R r → c.receiver? ≠ some r → R' r) : AgreeOn S R (w.carry c) (v.carry c) := by
  have hall {c : Command} (hc : c.receiver? = none)
      (hR : ∀ r, R r → c.receiver? ≠ some r → R' r) : AgreeOn S R w v :=
    h.mono (fun _ hi => hi) fun r hr => hR r hr (by simp [hc])
  cases c with
  | write storage data => exact (hall rfl hR).setStorage storage rfl
  | read storage receiver =>
    refine ⟨h.storages, fun r hr => ?_⟩
    show Table.put w.receivers receiver _ r = Table.put v.receivers receiver _ r
    unfold Table.put
    split
    · rw [h.storages storage (hS storage (by simp [Command.storages]))]
    · rename_i hne
      exact h.receivers r (hR r hr (by simpa [Command.receiver?] using Ne.symm hne))
  | copy source target region =>
    refine (hall rfl hR).setStorage _ ?_
    rw [h.storages _ (hS source.storage (by simp [Command.storages])),
      h.storages _ (hS target.storage (by simp [Command.storages]))]
  | retire => exact hall rfl hR

theorem carryAll (h : AgreeOn S R w v) (hS : ∀ c ∈ commands, ∀ i ∈ c.storages, S i) :
    AgreeOn S R (w.carryAll commands) (v.carryAll commands) := by
  induction commands generalizing w v with
  | nil => exact h
  | cons c commands ih =>
    obtain ⟨hc, hrest⟩ := List.forall_mem_cons.1 hS
    exact ih (h.carry hc fun r hr _ => hr) hrest

end AgreeOn

/-- A command goes unnoticed elsewhere. -/
theorem agree_carry (hS : ∀ i ∈ c.storages, ¬S i) (hR : ∀ r, c.receiver? = some r → ¬R r) :
    AgreeOn S R (w.carry c) w := by
  have hput {i : Nat} (hi : ¬S i) (x : Pixels) : AgreeOn S R (w.setStorage i x) w :=
    ⟨fun j hj => Table.put_other x fun heq => hi (heq ▸ hj), fun _ _ => rfl⟩
  cases c with
  | write storage data => exact hput (hS storage (by simp [Command.storages])) data
  | read storage receiver =>
    exact ⟨fun _ _ => rfl, fun r hr => Table.put_other _ fun heq => hR receiver rfl (heq ▸ hr)⟩
  | copy source target region => exact hput (hS target.storage (by simp [Command.storages])) _
  | retire => exact .of_eq rfl rfl

theorem agree_carryAll (hS : ∀ c ∈ commands, ∀ i ∈ c.storages, ¬S i)
    (hR : ∀ c ∈ commands, ∀ r, c.receiver? = some r → ¬R r) :
    AgreeOn S R (w.carryAll commands) w := by
  induction commands generalizing w with
  | nil => exact .of_eq rfl rfl
  | cons c commands ih =>
    obtain ⟨hS, hSrest⟩ := List.forall_mem_cons.1 hS
    obtain ⟨hR, hRrest⟩ := List.forall_mem_cons.1 hR
    exact (ih hSrest hRrest).trans (agree_carry hS hR)

end
end World
end SurfaceRelay.Soft
