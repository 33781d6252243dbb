import SurfaceRelay.Proofs.Soft.Schedules
import SurfaceRelay.Proofs.Soft.Sessions

/-! Commands that were accepted can be carried out.

The bounds of a command are checked when it is handed in, against the texture that it is handed in
with, and used when it executes, on the storage that the texture shows. In between anything may
happen, and a storage may be shown by textures with other sides than the one it was made for. All
the same a command suits its storages when it is accepted (`suits_of_about`), storages keep as many
bytes as they have (`World.Steady`), and so whatever waits in a queue still suits its storages when
its turn comes (`Serving.changes`). Rows are then copied within both images, and no worker dies of
what it was given. -/
namespace SurfaceRelay.Soft
variable {held : Texture → Prop} {given : List Texture} {w w' : World} {c : Command} {d : Nat}
  {t : Texture}

/-- The rows of a region, each put at the start of a row of an image of extent `size`, lie within
so many bytes. -/
def RowsWithin (region size : Extent) (length : Nat) : Prop :=
  ∀ y < region.height.toNat, y * size.rowBytes + region.rowBytes ≤ length

theorem rowsWithin_of_covers {region size : Extent} (h : size.covers region = true) :
    RowsWithin region size size.byteCount := by
  intro y hy
  obtain ⟨hwidth, hheight⟩ := (Extent.covers_iff ..).1 h
  have hrow : region.rowBytes ≤ size.rowBytes := Nat.mul_le_mul_right _ hwidth
  have hrows : (y + 1) * size.rowBytes ≤ size.byteCount :=
    Nat.mul_le_mul_right _ (Nat.le_trans hy hheight)
  rw [Nat.succ_mul] at hrows
  omega

namespace World

/-! ### Storages stay as long as they are -/

/-- Every storage is still there, with as many bytes. -/
structure Steady (w w' : World) : Prop where
  storageCount : w.storageCount ≤ w'.storageCount
  lengths : ∀ i < w.storageCount, (w'.storages i).length = (w.storages i).length

theorem Onward.steady (h : w.Onward w') (hw : w.Fits) : w.Steady w' :=
  ⟨h.storageCount, h.lengths hw⟩

theorem Steady.shows (h : w.Steady w') (ht : Shows w t) : Shows w' t :=
  ⟨Nat.lt_of_lt_of_le ht.known h.storageCount, (h.lengths _ ht.known).trans ht.length⟩

/-! ### Commands that suit their storages -/

/-- The storages that a command names are there and are not one and the same, and a command about
pixels fits them. -/
structure Suits (w : World) (c : Command) : Prop where
  fits : c.count? = none → c.Fits fun i => (w.storages i).length
  known : ∀ i ∈ c.storages, i < w.storageCount
  apart : c.storages.Nodup

namespace Suits

theorem steady (h : w.Suits c) (hw : w.Steady w') : w'.Suits c where
  fits hc := (h.fits hc).congr fun i hi => hw.lengths i (h.known i hi)
  known i hi := Nat.lt_of_lt_of_le (h.known i hi) hw.storageCount
  apart := h.apart

/-- A command that suits its storages is carried out, whoever executes it. -/
theorem isSome_execute (h : w.Suits c) (d : Nat) : (w.execute d c).isSome := by
  cases hc : c.count? with
  | none =>
    rw [execute_fitting (h.fits hc)]
    rfl
  | some n =>
    cases c with
    | retire => rfl
    | _ => cases hc

theorem write {storage : Nat} {data : Pixels} (h : w.Suits (.write storage data)) :
    data.length = (w.storages storage).length := h.fits rfl

/-- Every row of a copy lies within both images. -/
theorem copy {source target : Texture} {region : Extent}
    (h : w.Suits (.copy source target region)) : source.storage ≠ target.storage ∧
      RowsWithin region source.size (w.storages source.storage).length ∧
      RowsWithin region target.size (w.storages target.storage).length := by
  obtain ⟨hsource, htarget, hfrom, hto⟩ := h.fits rfl
  refine ⟨?_, ?_, ?_⟩
  · simpa [Command.storages] using h.apart
  · dsimp only at hfrom
    rw [hfrom]
    exact rowsWithin_of_covers hsource
  · dsimp only at hto
    rw [hto]
    exact rowsWithin_of_covers htarget

end Suits

/-- So does a command that is accepted along with textures which show storages of their size. -/
theorem suits_of_about (hgiven : ∀ t ∈ given, Shows w t) (hc : c.About given) : w.Suits c := by
  cases hc with
  | write ht hdata =>
    have ht := hgiven _ ht
    exact ⟨fun _ => hdata.trans ht.length.symm, by simpa [Command.storages] using ht.known,
      by simp [Command.storages]⟩
  | read ht receiver =>
    exact ⟨fun _ => trivial, by simpa [Command.storages] using (hgiven _ ht).known,
      by simp [Command.storages]⟩
  | copy ht hs hsource htarget hapart =>
    have ht := hgiven _ ht
    have hs := hgiven _ hs
    exact ⟨fun _ => ⟨hsource, htarget, ht.length, hs.length⟩,
      by simpa [Command.storages] using ⟨ht.known, hs.known⟩,
      by simpa [Command.storages] using hapart⟩

theorem suits_retire (w : World) (count : Nat) : w.Suits (.retire count) :=
  ⟨fun hc => (by cases hc), fun _ hi => (by cases hi), .nil⟩

/-! ### Queues -/

/-- Everything that is still to execute suits its storages. -/
def Suited (w : World) : Prop := ∀ d, ∀ c ∈ w.queue d, w.Suits c

theorem Suited.fits (h : w.Suited) : w.Fits := fun d _ _ _ hc => ((h d _ hc).fits rfl).2.1

/-- Besides, textures that are held show storages of their size. -/
structure Serving (held : Texture → Prop) (w : World) : Prop where
  suited : w.Suited
  shows : ∀ t, held t → Shows w t

/-- Counting leaves the queues alone. -/
theorem queue_count (w : World) (d handles created destroyed lastCount e : Nat) :
    (w.setWorker d { w.workers d with handles, created, destroyed, lastCount }).queue e =
      w.queue e := by
  rw [queue_setWorker]
  split
  · rename_i he
    rw [he]
    rfl
  · rfl

namespace Serving

/-- What is new in the queues has to suit its storages. -/
theorem steady (h : w.Serving held) (hw : w.Steady w')
    (hqueued : ∀ d, ∀ c ∈ w'.queue d, c ∈ w.queue d ∨ w.Suits c) : w'.Serving held :=
  ⟨fun d c hc => ((hqueued d c hc).elim (h.suited d c) id).steady hw,
    fun t ht => hw.shows (h.shows t ht)⟩

theorem touch (h : w.Serving held) (hgiven : ∀ t ∈ given, held t) (htouch : w.Touch given w') :
    w'.Serving held := by
  refine h.steady (htouch.onward.steady h.suited.fits) fun d c hc => ?_
  cases htouch with
  | count e | useCount e => exact .inl (queue_count w e _ _ _ _ d ▸ hc)
  | number | share | withdraw | allocate | openReceiver => exact .inl hc
  | push e _ habout =>
    rcases mem_push hc with hold | ⟨-, rfl⟩
    · exact .inl hold
    · exact .inr (suits_of_about (fun t ht => h.shows t (hgiven t ht)) habout)
  | sign e =>
    rcases mem_push hc with hold | ⟨-, rfl⟩
    · exact .inl (queue_count w e _ _ _ _ d ▸ hold)
    · exact .inr (suits_retire w _)

theorem touches (h : w.Serving held) (hgiven : ∀ t ∈ given, held t)
    (htouches : w.Touches given w') : w'.Serving held := by
  induction htouches with
  | refl => exact h
  | tail _ htouch ih => exact ih.touch hgiven htouch

theorem change (h : w.Serving held) (hchange : w.Change held w') : w'.Serving held := by
  cases hchange with
  | happen e =>
    exact h.steady ((Onward.happen w e).steady h.suited.fits) fun d c hc =>
      .inl ((progress_happen w e).mem hc)
  | startWorker label device =>
    refine h.steady ⟨Nat.le_refl _, fun _ _ => rfl⟩ fun d c hc => .inl ?_
    have hq : (w.startWorker label device).2.queue d =
        if d = w.workerCount then [] else w.queue d := queue_setWorker w _ d _
    rw [hq] at hc
    split at hc
    · cases hc
    · exact hc
  | setHandles e handles =>
    exact h.steady ⟨Nat.le_refl _, fun _ _ => rfl⟩ fun d c hc =>
      .inl (queue_count w e handles _ _ _ d ▸ hc)
  | receive r =>
    have hreceive := progress_receive w r
    refine h.steady ⟨Nat.le_of_eq hreceive.storageCount.symm, fun i _ => ?_⟩ fun d c hc =>
      .inl (hreceive.mem hc)
    rw [storages_receive]
  | prompt hact hgiven => exact h.touches hgiven (hact.touches w)

/-- **Commands go on suiting their storages.** -/
theorem changes (h : w.Serving held) (hchanges : w.Changes held w') : w'.Serving held := by
  induction hchanges with
  | refl => exact h
  | tail _ hchange ih => exact ih.change hchange

end Serving

namespace Suited

theorem happen (h : w.Suited) (e : Event) : (w.happen e).Suited := by
  have hserving : w.Serving fun _ => False := ⟨h, fun _ ht => ht.elim⟩
  exact (hserving.change (.happen e)).suited

/-- The oldest command is carried out if there is one. -/
theorem executeNext (h : w.Suited) (d : Nat) :
    w.queue d = [] ∧ w.executeNext d = w ∨ ∃ c rest, w.Executed (w.executeNext d) d c rest := by
  rcases executeNext_next w d with ⟨hnone, hempty | -⟩ | ⟨c, rest, -, hexecuted⟩
  · exact .inl hempty
  · cases hq : w.queue d with
    | nil =>
      refine .inl ⟨rfl, ?_⟩
      simp only [World.executeNext, show (w.workers d).queue = [] from hq]
    | cons c rest =>
      -- with nothing but the queue changed the command still suits its storages
      have hsuits : (w.pop d rest).Suits c :=
        (h d c (hq ▸ List.mem_cons_self ..)).steady ⟨Nat.le_refl _, fun _ _ => rfl⟩
      have hsome := hsuits.isSome_execute d
      simp only [next?, hq, Option.map_eq_none_iff] at hnone
      rw [hnone] at hsome
      cases hsome
  · exact .inr ⟨c, rest, hexecuted⟩

/-- No worker dies of its own commands, nor of those of others. -/
theorem health_executeNext (h : w.Suited) (d e : Nat) :
    ((w.executeNext d).workers e).health = (w.workers e).health := by
  rcases h.executeNext d with ⟨-, hsame⟩ | ⟨c, rest, hexecuted⟩
  · rw [hsame]
  · exact (hexecuted.books e).2.1

/-- So none dies while it executes many. -/
theorem health_executeMany (h : w.Suited) (d n e : Nat) :
    ((w.executeMany d n).workers e).health = (w.workers e).health := by
  induction n generalizing w with
  | zero => rfl
  | succ n ih =>
    have hnext : (w.executeNext d).Suited := h.happen (.execute d)
    exact (ih hnext).trans (h.health_executeNext d e)

/-- A map with a worker that is alive succeeds. -/
theorem complete (h : w.Suited) (hlive : (w.workers d).health = .live) :
    Soft.complete d w = .ok () (w.drain d) := by
  have hdrained : ((w.drain d).workers d).health = .live :=
    (h.health_executeMany d _ d).trans hlive
  simp only [Soft.complete, hlive]
  rw [if_neg (by simp [hdrained])]

end Suited
end World
end SurfaceRelay.Soft

/-! ### Sessions -/

namespace SurfaceRelay.Session.SoftDomains.State
open SurfaceRelay.Soft

section
variable {s : State} {made opened : List Texture}

/-- A texture that is held shows a storage of its size. -/
theorem Agreeing.shows_held (hs : s.Agreeing made opened) : ∀ t, s.Holds t → Shows s.world t := by
  rintro t ⟨name, ht⟩
  exact hs.shows ht

theorem Agreeing.suited_run (hs : s.Agreeing made opened) (h : s.world.Suited) (steps : List Step) :
    (s.run steps).world.Suited := by
  induction steps generalizing s made opened with
  | nil => exact h
  | cons x steps ih =>
    have hserving : s.world.Serving s.Holds := ⟨h, hs.shows_held⟩
    exact ih (hs.run [x]) (hserving.changes (s.leads_after x)).suited

end

/-- Whatever is done after the steps of a session, commands suit their storages and the textures
that it held still show storages of their size. -/
theorem serving_after (steps : List Step) {w : World}
    (hw : (({} : State).run steps).world.Changes (({} : State).run steps).Holds w) :
    w.Serving (({} : State).run steps).Holds := by
  have hsuited := agreeing_blank.suited_run (fun _ _ hc => by cases hc) steps
  have hserving : (({} : State).run steps).world.Serving (({} : State).run steps).Holds :=
    ⟨hsuited, (agreeing_blank.run steps).shows_held⟩
  exact hserving.changes hw

/-- **No worker dies of what it was given.** After any steps of a session, and after whatever
happens from then on, be it that workers execute some of what they accepted or die, be it that
handles go or that more is done with the textures that are held, every storage has four bytes for
each pixel of any texture that shows it, whatever sides the texture was made or opened with. A write
that waits in a queue brings as many bytes as its storage has. A copy joins two storages, and each
of its rows lies within both. So every command that waits can be carried out, executing one leaves
every worker as well as it was, and a map with a worker that is alive succeeds. This is meant of
images with less than `2 ^ 64` bytes. -/
theorem commands_stay_in_bounds (steps : List Step) :
    let s := ({} : State).run steps
    ∀ w, s.world.Changes s.Holds w →
      (∀ name t, s.textures.get? name = some t → (w.storages t.storage).length =
        t.size.width.toNat * t.size.height.toNat * 4) ∧
      (∀ d storage data, .write storage data ∈ w.queue d →
        data.length = (w.storages storage).length) ∧
      (∀ d source target region, .copy source target region ∈ w.queue d →
        source.storage ≠ target.storage ∧
          RowsWithin region source.size (w.storages source.storage).length ∧
          RowsWithin region target.size (w.storages target.storage).length) ∧
      (∀ d, ∀ c ∈ w.queue d, (w.execute d c).isSome) ∧
      (∀ d e, ((w.executeNext d).workers e).health = (w.workers e).health) ∧
      ∀ d, (w.workers d).health = .live → complete d w = .ok () (w.drain d) := by
  intro s w hw
  obtain ⟨h, hshows⟩ := serving_after steps hw
  refine ⟨fun name t ht => ?_, fun d storage data hc => (h d _ hc).write,
    fun d source target region hc => (h d _ hc).copy, fun d c hc => (h d c hc).isSome_execute d,
    h.health_executeNext, fun d => h.complete⟩
  rw [(hshows t ⟨name, ht⟩).length, Extent.byteCount_eq]

/-- Domain `b` opens a square of two by two as a strip of four by one, and copies half of it to a
square of its own. Domain `a` overwrites the square in the meantime. -/
def halfStrip : List Step :=
  [.start "a" 0, .start "b" 0, .texture "a" "square" ⟨2, 2⟩, .share "a" "square",
    .openShare "b" "strip" 1 ⟨4, 1⟩, .staging "b" "copy" ⟨2, 2⟩, .copy "b" "strip" "copy" ⟨2, 1⟩,
    .write "a" "square" (List.replicate 16 7)]

/-- The half of the strip lies within the square, and the worker that copies it survives. -/
theorem commands_stay_in_bounds_strip :
    let w := (({} : State).run halfStrip).world.elapse [.execute 0]
    (w.storages 0).length = 16 ∧ RowsWithin ⟨2, 1⟩ ⟨4, 1⟩ (w.storages 0).length ∧
      ((w.executeNext 1).workers 1).health = .live ∧ complete 1 w = .ok () (w.drain 1) := by
  obtain ⟨hlength, -, hcopy, -, hhealth, hmap⟩ :=
    commands_stay_in_bounds halfStrip _ (World.changes_elapse _ [.execute 0])
  have hstrip : .copy ⟨2, ⟨4, 1⟩, 0⟩ ⟨3, ⟨2, 2⟩, 1⟩ ⟨2, 1⟩ ∈
      ((({} : State).run halfStrip).world.elapse [.execute 0]).queue 1 := List.mem_singleton_self _
  exact ⟨hlength "strip" ⟨2, ⟨4, 1⟩, 0⟩ rfl, (hcopy 1 _ _ _ hstrip).2.1, hhealth 1 1, hmap 1 rfl⟩

end SurfaceRelay.Session.SoftDomains.State
