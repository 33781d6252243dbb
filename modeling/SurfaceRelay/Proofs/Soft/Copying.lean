import SurfaceRelay.Proofs.Soft.InBounds

/-! A copy of a region is exact.

A copy works on bytes, with one stride in the source and another in the target. What it leaves is
said byte by byte (`getElem?_copyRows`), by induction on the rows: a byte of the target that lies
in a copied row, and in the part of it that is copied, is the one at the same place of the same row
in the source, and any other is what it was. Pixels follow, since the start of a row is a whole
number of pixels into an image and a region ends between two pixels (`pixel_blit`). -/
namespace SurfaceRelay.Soft

/-- The bytes of the pixel in column `x` and row `y` of an image. -/
def pixel (size : Extent) (bytes : Pixels) (x y : Nat) : List UInt8 :=
  (bytes.drop (y * size.rowBytes + x * pixelBytes)).take pixelBytes

/-! ### Bytes -/

theorem getElem?_copyRows {row fromStride toStride rows : Nat} {source target result : Pixels}
    (h : copyRows row fromStride toStride rows source target = some result)
    (hrow : row ≤ toStride) (htarget : rows * toStride ≤ target.length) {y j : Nat}
    (hj : j < toStride) :
    result[y * toStride + j]? =
      if y < rows ∧ j < row then source[y * fromStride + j]? else target[y * toStride + j]? := by
  induction rows generalizing source target result y with
  | zero =>
    cases h
    simp
  | succ rows ih =>
    simp only [copyRows, Option.ite_none_right_eq_some] at h
    obtain ⟨⟨hbytes, -⟩, h⟩ := h
    obtain ⟨rest, hrest, rfl⟩ := Option.map_eq_some_iff.1 h
    rw [Nat.succ_mul] at htarget
    have hkept : ((target.take toStride).drop row).length = toStride - row := by
      rw [List.length_drop, List.length_take]
      omega
    cases y with
    | zero =>
      -- the first row: what is copied, and then what the target had
      simp only [Nat.zero_mul, Nat.zero_add, Nat.succ_pos, true_and]
      by_cases hcopied : j < row
      · rw [if_pos hcopied, List.getElem?_append_left (by omega), List.getElem?_take_of_lt hcopied]
      · rw [if_neg hcopied, List.getElem?_append_right (by omega), hbytes,
          List.getElem?_append_left (by omega), List.getElem?_drop, Nat.add_sub_cancel' (by omega),
          List.getElem?_take_of_lt hj]
    | succ y =>
      -- a later row is a row of the rest
      have hlater : (y + 1) * toStride + j = row + (toStride - row + (y * toStride + j)) := by
        rw [Nat.succ_mul]
        omega
      have hshift (stride : Nat) : stride + (y * stride + j) = (y + 1) * stride + j := by
        rw [Nat.succ_mul]
        omega
      have hih := ih hrest (by rw [List.length_drop]; omega) (y := y)
      rw [List.getElem?_drop, List.getElem?_drop, hshift, hshift] at hih
      rw [hlater, List.getElem?_append_right (by omega), hbytes, Nat.add_sub_cancel_left,
        List.getElem?_append_right (by omega), hkept, Nat.add_sub_cancel_left, hih, ← hlater]
      simp only [Nat.succ_lt_succ_iff]

/-! ### Pixels -/

section
variable {size sourceSize targetSize region : Extent} {bytes source target result : Pixels}
  {x y k : Nat}

theorem getElem?_pixel (size : Extent) (bytes : Pixels) (x y : Nat) (hk : k < pixelBytes) :
    (pixel size bytes x y)[k]? = bytes[y * size.rowBytes + (x * pixelBytes + k)]? := by
  rw [pixel, List.getElem?_take_of_lt hk, List.getElem?_drop, Nat.add_assoc]

theorem length_pixel (hlength : bytes.length = size.byteCount) (hx : x < size.width.toNat)
    (hy : y < size.height.toNat) : (pixel size bytes x y).length = pixelBytes := by
  have hrow : (x + 1) * pixelBytes ≤ size.rowBytes := Nat.mul_le_mul_right _ hx
  have hrows : (y + 1) * size.rowBytes ≤ size.byteCount := Nat.mul_le_mul_right _ hy
  rw [Nat.succ_mul] at hrow hrows
  rw [pixel, List.length_take, List.length_drop, hlength]
  omega

/-- The rows of a region that are copied are all of its rows, as far as pixels are concerned. -/
theorem lt_copiedRows (region : Extent) (hx : x < region.width.toNat) :
    y < copiedRows region ↔ y < region.height.toNat := by
  have hwidth : region.width ≠ 0 := by
    intro hzero
    rw [hzero] at hx
    exact Nat.not_lt_zero x hx
  rw [copiedRows, if_neg hwidth]

/-- A row ends between two pixels. -/
theorem lt_rowBytes (size : Extent) (x : Nat) (hk : k < pixelBytes) :
    x * pixelBytes + k < size.rowBytes ↔ x < size.width.toNat := by
  unfold Extent.rowBytes pixelBytes at *
  omega

/-- **A pixel after a copy.** In the region it is the one that the source has at its place, and
everywhere else it is what it was. -/
theorem pixel_blit (h : blit region sourceSize targetSize source target = some result)
    (hcovers : targetSize.covers region = true) (htarget : target.length = targetSize.byteCount)
    (hx : x < targetSize.width.toNat) :
    pixel targetSize result x y =
      if x < region.width.toNat ∧ y < region.height.toNat then pixel sourceSize source x y
      else pixel targetSize target x y := by
  obtain ⟨hwidth, hheight⟩ := (Extent.covers_iff ..).1 hcovers
  have hrow : region.rowBytes ≤ targetSize.rowBytes := Nat.mul_le_mul_right _ hwidth
  have hrows : copiedRows region * targetSize.rowBytes ≤ target.length := by
    rw [htarget]
    exact Nat.mul_le_mul_right _ (Nat.le_trans (copiedRows_le region) hheight)
  apply List.ext_getElem?
  intro k
  by_cases hk : k < pixelBytes
  · have hbyte := getElem?_copyRows h hrow hrows (y := y) ((lt_rowBytes targetSize x hk).2 hx)
    rw [getElem?_pixel targetSize result x y hk, hbyte]
    by_cases hin : x < region.width.toNat ∧ y < region.height.toNat
    · rw [if_pos hin, getElem?_pixel sourceSize source x y hk,
        if_pos ⟨(lt_copiedRows region hin.1).2 hin.2, (lt_rowBytes region x hk).2 hin.1⟩]
    · rw [if_neg hin, getElem?_pixel targetSize target x y hk]
      refine if_neg fun ⟨hy, hcolumn⟩ => hin ?_
      have hx := (lt_rowBytes region x hk).1 hcolumn
      exact ⟨hx, (lt_copiedRows region hx).1 hy⟩
  · have hnone (size : Extent) (bytes : Pixels) : (pixel size bytes x y)[k]? = none := by
      apply List.getElem?_eq_none
      rw [pixel, List.length_take]
      omega
    split <;> rw [hnone, hnone]

end

/-! ### Worlds -/

namespace World
variable {w : World} {d : Nat} {source target : Texture} {region : Extent} {rest : List Command}

/-- The target holds the region of the source, and around it what it held. -/
structure Copied (w w' : World) (source target : Texture) (region : Extent) : Prop where
  /-- The target has its bytes still, four for each pixel. -/
  length : (w'.storages target.storage).length = target.size.byteCount
  pixels : ∀ x < target.size.width.toNat, ∀ y < target.size.height.toNat,
    (pixel target.size (w'.storages target.storage) x y).length = 4 ∧
      pixel target.size (w'.storages target.storage) x y =
        if x < region.width.toNat ∧ y < region.height.toNat then
          pixel source.size (w.storages source.storage) x y
        else pixel target.size (w.storages target.storage) x y
  /-- The source is one of the others. -/
  apart : source.storage ≠ target.storage
  others : ∀ i, i ≠ target.storage → w'.storages i = w.storages i

/-- **What the oldest command does if it is a copy.** -/
theorem Suited.copied (h : w.Suited) (hq : w.queue d = .copy source target region :: rest) :
    (w.executeNext d).queue d = rest ∧ w.Copied (w.executeNext d) source target region := by
  have hsuits := h d _ (hq ▸ List.mem_cons_self ..)
  have hfits := hsuits.fits rfl
  have hexecuted := executeNext_fitting hq hfits
  obtain ⟨hsource, htarget, hfrom, hto⟩ := hfits
  obtain ⟨x, hx⟩ := Option.isSome_iff_exists.1 (isSome_blit hsource htarget hfrom hto)
  have hw' : w.executeNext d = (w.pop d rest).setStorage target.storage x := by
    rw [hexecuted, carry]
    show (w.pop d rest).setStorage target.storage
      ((blit region source.size target.size (w.storages source.storage)
        (w.storages target.storage)).getD (w.storages target.storage)) = _
    rw [hx, Option.getD_some]
  have hlength : x.length = target.size.byteCount := (length_blit hx htarget).trans hto
  rw [hw']
  have hheld : ((w.pop d rest).setStorage target.storage x).storages target.storage = x :=
    Table.put_same ..
  refine ⟨(queue_pop w d d rest).trans (if_pos rfl), ?_, fun i hi j hj => ?_, hsuits.copy.1,
    fun i hi => Table.put_other _ hi⟩
  · rw [hheld, hlength]
  · rw [hheld]
    exact ⟨length_pixel hlength hi hj, pixel_blit hx htarget hto hi⟩

end World

/-! ### Handing a copy in -/

section
variable {d : Nat} {t s : Texture} {region : Extent} {w : World}

theorem stage_fitting (ht : t.size.covers region = true) (hs : s.size.covers region = true)
    (hapart : t.storage ≠ s.storage) (hlive : ¬w.Dead d) :
    stage d t s region w = .ok () (w.push d (.copy t s region)) := by
  have haccept : accept d (.copy t s region) w = .ok () (w.push d (.copy t s region)) :=
    if_neg hlive
  unfold stage
  rw [if_neg (by simp [ht, hs]), if_neg hapart, haccept]

/-- A region that does not fit, or one storage on both sides, is refused as a mapping. -/
theorem stage_unfit (h : ¬(t.size.covers region = true ∧ s.size.covers region = true) ∨
    t.storage = s.storage) : ∃ detail, stage d t s region w = .error (.mapping detail) w := by
  unfold stage
  by_cases hfits : t.size.covers region = true ∧ s.size.covers region = true
  · rw [if_neg (by simp [hfits.1, hfits.2]), if_pos (h.resolve_left (not_not_intro hfits))]
    exact ⟨_, rfl⟩
  · have hlarge : (!(t.size.covers region && s.size.covers region)) = true := by
      rw [Bool.not_eq_true', ← Bool.not_eq_true, Bool.and_eq_true]
      exact hfits
    rw [if_pos hlarge]
    exact ⟨_, rfl⟩

end
end SurfaceRelay.Soft

/-! ### Sessions -/

namespace SurfaceRelay.Session.SoftDomains.State
open SurfaceRelay.Soft

/-- A copy that names what exists is handed to its domain. -/
theorem step_copy {s : State} {d a b : String} {k : Nat} {t staging : Texture}
    (hd : s.domains.get? d = some k) (ha : s.textures.get? a = some t)
    (hb : s.textures.get? b = some staging) (region : Extent) :
    s.step (.copy d a b region) =
      some (s.attempt (stage k t staging region) fun _ s => s.done) := by
  simp only [State.step, hb, State.withTexture, hd, ha]
  rfl

/-- **A copy is exact.** After any steps of a session, and after whatever happens from then on, take
a worker whose oldest command is a copy. When it executes, the pixels of the target that lie in the
region are those that the source has at their places at that moment, all other pixels of the target
are what they were, and every storage but the target's is what it was, the source's included. A copy
whose region lies within both images is accepted behind everything its worker has accepted, and does
nothing else. One whose region does not, or whose images are one storage, fails as a mapping and
leaves the session as it was. This is meant of images with less than `2 ^ 64` bytes. -/
theorem copy_is_exact (steps : List Step) :
    let s := ({} : State).run steps
    (∀ w, s.world.Changes s.Holds w → ∀ d source target region rest,
      w.queue d = .copy source target region :: rest →
        (w.executeNext d).queue d = rest ∧ w.Copied (w.executeNext d) source target region) ∧
    ∀ d a b k t staging region, s.domains.get? d = some k → s.textures.get? a = some t →
      s.textures.get? b = some staging →
      (t.size.covers region = true → staging.size.covers region = true →
        t.storage ≠ staging.storage → ¬s.world.Dead k →
          s.step (.copy d a b region) =
            some (.ok .done, s.onWorld (s.world.push k (.copy t staging region)))) ∧
      (¬(t.size.covers region = true ∧ staging.size.covers region = true) ∨
        t.storage = staging.storage →
          ∃ detail, s.step (.copy d a b region) = some (.error (.mapping detail), s)) := by
  intro s
  refine ⟨fun w hw d source target region rest hq => (serving_after steps hw).suited.copied hq,
    fun d a b k t staging region hd ha hb => ?_⟩
  rw [step_copy hd ha hb]
  refine ⟨fun ht hs hapart hlive => ?_, fun hunfit => ?_⟩
  · simp only [State.attempt, Attempt.outcome, stage_fitting ht hs hapart hlive]
    rfl
  · obtain ⟨detail, hrefused⟩ := stage_unfit (d := k) (w := s.world) hunfit
    simp only [State.attempt, Attempt.outcome, hrefused]
    exact ⟨detail, rfl⟩

/-- The left column of a square, to be copied into an image that is wider than the square. -/
def leftColumn : List Step :=
  [.start "d" 0, .texture "d" "square" ⟨2, 2⟩, .staging "d" "wide" ⟨3, 2⟩,
    .write "d" "square" [1, 1, 1, 1, 2, 2, 2, 2, 3, 3, 3, 3, 4, 4, 4, 4], .advance "d" none,
    .copy "d" "square" "wide" ⟨1, 2⟩]

/-- The column goes into both rows, and nothing beside it does. A row of three does not fit the
square. -/
theorem copy_is_exact_column :
    let s := ({} : State).run leftColumn
    (s.world.executeNext 0).queue 0 = [] ∧
    pixel ⟨3, 2⟩ ((s.world.executeNext 0).storages 1) 0 1 = [3, 3, 3, 3] ∧
    pixel ⟨3, 2⟩ ((s.world.executeNext 0).storages 1) 1 1 = [0, 0, 0, 0] ∧
    ∃ detail, s.step (.copy "d" "square" "wide" ⟨3, 1⟩) = some (.error (.mapping detail), s) := by
  obtain ⟨hexecute, hstep⟩ := copy_is_exact leftColumn
  obtain ⟨hqueue, hcopied⟩ :=
    hexecute _ .refl 0 ⟨1, ⟨2, 2⟩, 0⟩ ⟨2, ⟨3, 2⟩, 1⟩ ⟨1, 2⟩ [] rfl
  refine ⟨hqueue, (hcopied.pixels 0 (by decide) 1 (by decide)).2,
    (hcopied.pixels 1 (by decide) 1 (by decide)).2, ?_⟩
  exact (hstep "d" "square" "wide" 0 ⟨1, ⟨2, 2⟩, 0⟩ ⟨2, ⟨3, 2⟩, 1⟩ ⟨3, 1⟩ rfl rfl rfl).2
    (.inl (by decide))

end SurfaceRelay.Session.SoftDomains.State
