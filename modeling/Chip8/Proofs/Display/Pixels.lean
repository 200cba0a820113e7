import Chip8.Proofs.Display.Plot
import Mathlib.Data.Finset.Prod
import Mathlib.Data.Finset.SymmDiff
import Mathlib.Data.Fintype.Prod

/-!
# The pixels of a sprite

No two bits of a sprite fall on one pixel: it is narrower than the screen and, with
32 lines at most, no higher. Drawing toggles these pixels and no others (`lit_draw`),
so that the lit ones can be counted before and after (`card_lit_draw`).
-/

namespace Chip8

open scoped symmDiff

namespace Sprite

def bits (sprite : Sprite) : Finset (Nat × Nat) :=
  (Finset.range sprite.length ×ˢ Finset.range 8).filter fun place => sprite.bit place.1 place.2

def target (left : Fin 64) (top : Fin 32) (place : Nat × Nat) : Fin 64 × Fin 32 :=
  (left + Fin.ofNat 64 place.2, top + Fin.ofNat 32 place.1)

def pixels (sprite : Sprite) (left : Fin 64) (top : Fin 32) : Finset (Fin 64 × Fin 32) :=
  sprite.bits.image (target left top)

variable {sprite : Sprite} {left x : Fin 64} {top y : Fin 32} {place : Nat × Nat}

theorem mem_bits : place ∈ sprite.bits ↔ sprite.bit place.1 place.2 = true := by
  simp only [bits, Finset.mem_filter, Finset.mem_product, Finset.mem_range]
  constructor
  · rintro ⟨-, hb⟩
    exact hb
  · intro hb
    exact ⟨⟨bit_lt_length hb, bit_lt_eight hb⟩, hb⟩

theorem target_eq_iff (low : sprite.length ≤ 32) (hp : place ∈ sprite.bits) :
    target left top place = (x, y) ↔ place = ((y - top).val, (x - left).val) := by
  obtain ⟨row, column⟩ := place
  have hb : sprite.bit row column = true := mem_bits.mp hp
  have hr : row < 32 := Nat.lt_of_lt_of_le (bit_lt_length hb) low
  have hc : column < 64 := Nat.lt_trans (bit_lt_eight hb) (by decide)
  rw [target, Prod.mk.injEq, target_iff hr hc, Prod.mk.injEq]
  constructor
  · rintro ⟨rfl, rfl⟩
    exact ⟨rfl, rfl⟩
  · rintro ⟨rfl, rfl⟩
    exact ⟨rfl, rfl⟩

theorem target_injOn (low : sprite.length ≤ 32) :
    Set.InjOn (target left top) (sprite.bits : Set (Nat × Nat)) := by
  intro first hf second hs same
  obtain ⟨⟨x, y⟩, falls⟩ : ∃ pixel, target left top second = pixel := ⟨_, rfl⟩
  have one : first = ((y - top).val, (x - left).val) :=
    (target_eq_iff low hf).mp (same.trans falls)
  have other : second = ((y - top).val, (x - left).val) := (target_eq_iff low hs).mp falls
  exact one.trans other.symm

theorem mem_pixels_iff (low : sprite.length ≤ 32) :
    (x, y) ∈ sprite.pixels left top ↔ sprite.covers left top x y = true := by
  rw [pixels, Finset.mem_image]
  constructor
  · rintro ⟨place, hp, falls⟩
    obtain rfl := (target_eq_iff low hp).mp falls
    exact mem_bits.mp hp
  · intro covered
    have hp : ((y - top).val, (x - left).val) ∈ sprite.bits := mem_bits.mpr covered
    exact ⟨_, hp, (target_eq_iff low hp).mpr rfl⟩

theorem card_pixels (low : sprite.length ≤ 32) :
    (sprite.pixels left top).card = sprite.bits.card :=
  Finset.card_image_of_injOn (target_injOn low)

theorem card_filter_pixels (low : sprite.length ≤ 32) (p : Fin 64 × Fin 32 → Prop)
    [DecidablePred p] : ((sprite.pixels left top).filter p).card =
      (sprite.bits.filter fun place => p (target left top place)).card := by
  have chosen : sprite.bits.filter (fun place => p (target left top place)) ⊆ sprite.bits :=
    Finset.filter_subset _ _
  rw [pixels, Finset.filter_image]
  exact Finset.card_image_of_injOn ((target_injOn low).mono (Finset.coe_subset.mpr chosen))

theorem pixels_nonempty : (sprite.pixels left top).Nonempty ↔ ∃ byte ∈ sprite, byte ≠ 0 := by
  rw [pixels, Finset.image_nonempty]
  constructor
  · rintro ⟨⟨row, column⟩, hp⟩
    have hb : sprite.bit row column = true := mem_bits.mp hp
    unfold bit at hb
    split at hb
    · next byte found =>
      refine ⟨byte, List.mem_of_getElem? found, ?_⟩
      rintro rfl
      simp at hb
    · cases hb
  · rintro ⟨byte, hm, some_bit⟩
    obtain ⟨row, found⟩ := List.getElem?_of_mem hm
    by_contra none
    refine some_bit (BitVec.eq_of_getMsbD_eq fun column _ => ?_)
    have hb : sprite.bit row column ≠ true := fun hb => none ⟨(row, column), mem_bits.mpr hb⟩
    rw [bit, found] at hb
    simpa using hb

end Sprite

namespace Display

def lit (display : Display) : Finset (Fin 64 × Fin 32) :=
  Finset.univ.filter fun place => display.pixel place.1 place.2

variable {display : Display} {sprite : Sprite} {left : Fin 64} {top : Fin 32}

theorem mem_lit {place : Fin 64 × Fin 32} :
    place ∈ display.lit ↔ display.pixel place.1 place.2 = true := by
  simp [lit]

theorem lit_draw (low : sprite.length ≤ 32) :
    (display.draw sprite left top).lit = display.lit ∆ sprite.pixels left top := by
  ext ⟨x, y⟩
  rw [Finset.mem_symmDiff, mem_lit, mem_lit, pixel_draw, Sprite.mem_pixels_iff low]
  cases display.pixel x y with
  | false => simp
  | true => simp

theorem draw_draw (display : Display) (sprite : Sprite) (left : Fin 64) (top : Fin 32) :
    (display.draw sprite left top).draw sprite left top = display :=
  ext_pixel fun x y => by
    rw [pixel_draw, pixel_draw, Bool.xor_assoc, Bool.xor_self, Bool.xor_false]

theorem collides_iff (low : sprite.length ≤ 32) : display.collides sprite left top = true ↔
    ∃ p ∈ sprite.pixels left top, display.pixel p.1 p.2 = true := by
  rw [collides_eq_true_iff, Prod.exists]
  simp only [Sprite.mem_pixels_iff low, and_comm]

/-- A pixel that was lit already is not added and, what is more, goes out. -/
theorem card_lit_draw (low : sprite.length ≤ 32) :
    (display.draw sprite left top).lit.card +
        2 * ((sprite.pixels left top).filter fun p => display.pixel p.1 p.2 = true).card =
      display.lit.card + sprite.bits.card := by
  have drawn : (sprite.pixels left top).card = sprite.bits.card := Sprite.card_pixels low
  have kept := Finset.card_sdiff_add_card_inter display.lit (sprite.pixels left top)
  have added := Finset.card_sdiff_add_card_inter (sprite.pixels left top) display.lit
  simp only [← mem_lit]
  rw [lit_draw low, symmDiff_def, Finset.sup_eq_union,
    Finset.card_union_of_disjoint disjoint_sdiff_sdiff, Finset.filter_mem_eq_inter]
  rw [Finset.inter_comm] at kept
  omega

end Display

end Chip8
