/-! Pixel extents.

Every image of the library, full-size or staging, has a width and a height in
pixels and packs its pixels in four bytes each, row after row without padding.
Byte counts are natural numbers, so they never wrap. Where bytes are counted in 64-bit
words, the counts are the same up to `2 ^ 64` bytes (`toNat_byteWord`). What is said
of all extents is meant of images within that bound; the bytes of one row always are. -/
namespace SurfaceRelay

/-- A pixel takes four bytes. -/
def pixelBytes : Nat := 4

/-- The width and the height of an image, in pixels. -/
structure Extent where
  width : UInt32
  height : UInt32
deriving DecidableEq, Repr

namespace Extent

/-- The bytes of one row. -/
def rowBytes (e : Extent) : Nat := e.width.toNat * pixelBytes

/-- The bytes of a whole image. -/
def byteCount (e : Extent) : Nat := e.height.toNat * e.rowBytes

theorem byteCount_eq (e : Extent) : e.byteCount = e.width.toNat * e.height.toNat * 4 := by
  rw [byteCount, rowBytes, pixelBytes, Nat.mul_left_comm, Nat.mul_assoc]

/-- The bytes of a whole image, as a 64-bit word counts them. -/
def byteWord (e : Extent) : UInt64 := e.width.toUInt64 * e.height.toUInt64 * 4

/-- Of an image that is not too large for it, the word counts every byte. -/
theorem toNat_byteWord {e : Extent} (h : e.byteCount < UInt64.size) :
    e.byteWord.toNat = e.byteCount := by
  rw [byteCount_eq] at h ⊢
  have hpixels : e.width.toNat * e.height.toNat < UInt64.size := by omega
  have hproduct : (e.width.toUInt64 * e.height.toUInt64).toNat =
      e.width.toNat * e.height.toNat := by
    rw [UInt64.toNat_mul, UInt32.toNat_toUInt64, UInt32.toNat_toUInt64]
    exact Nat.mod_eq_of_lt hpixels
  rw [byteWord, UInt64.toNat_mul, hproduct]
  exact Nat.mod_eq_of_lt h

/-- Neither side is zero. -/
def isSolid (e : Extent) : Bool := e.width != 0 && e.height != 0

/-- Cuts both sides down to `limit`. -/
def clamp (limit : UInt32) (e : Extent) : Extent := ⟨min e.width limit, min e.height limit⟩

/-- A region of extent `region`, put at the top left corner, lies within `e`. -/
def covers (e region : Extent) : Bool :=
  decide (region.width ≤ e.width) && decide (region.height ≤ e.height)

def text (e : Extent) : String := s!"{e.width.toNat}x{e.height.toNat}"

theorem clamp_width (limit : UInt32) (e : Extent) :
    (e.clamp limit).width.toNat = min e.width.toNat limit.toNat := by
  simp only [clamp, Nat.min_def]
  show (if e.width ≤ limit then e.width else limit).toNat = _
  split <;> rename_i h <;> rw [UInt32.le_iff_toNat_le] at h <;> simp [h]

theorem clamp_height (limit : UInt32) (e : Extent) :
    (e.clamp limit).height.toNat = min e.height.toNat limit.toNat := by
  simp only [clamp, Nat.min_def]
  show (if e.height ≤ limit then e.height else limit).toNat = _
  split <;> rename_i h <;> rw [UInt32.le_iff_toNat_le] at h <;> simp [h]

theorem covers_iff (e region : Extent) :
    e.covers region = true ↔
      region.width.toNat ≤ e.width.toNat ∧ region.height.toNat ≤ e.height.toNat := by
  simp [covers, UInt32.le_iff_toNat_le]

theorem covers_self (e : Extent) : e.covers e = true := by
  rw [covers_iff]
  exact ⟨Nat.le_refl _, Nat.le_refl _⟩

/-- An image covers every clamped copy of its own extent. -/
theorem covers_clamp (limit : UInt32) (e : Extent) : e.covers (e.clamp limit) = true := by
  rw [covers_iff, clamp_width, clamp_height]
  exact ⟨Nat.min_le_left _ _, Nat.min_le_left _ _⟩

end Extent
end SurfaceRelay
