import Chip8.Display.Raster
import Chip8.Display.Text
import Mathlib.Data.List.Basic

/-!
# Reading the screen back from its exports

A raster shows every pixel as a square of its color (`shows_paint`), a text as a piece
of its line (`text_lines`). Where the two colors differ, or the two characters, the
screen is read back from either (`exports_lossless`). Only a scale that asks for more
bytes than an array can have leaves nothing to read.
-/

namespace Chip8

theorem lit_of_shown {α : Type} [DecidableEq α] {on off : α} (apart : on ≠ off) (lit : Bool) :
    decide (some (if lit then on else off) = some on) = lit := by
  cases lit with
  | true => simp
  | false => simpa using apart.symm

-- ---------------------------------------------------------------------------
-- Colors
-- ---------------------------------------------------------------------------

namespace Color

def components (color : Color) : List Int :=
  [color.red.toNat, color.green.toNat, color.blue.toNat]

structure Triple (values : List Int) : Prop where
  three : values.length = 3
  bounded : ∀ value ∈ values, 0 ≤ value ∧ value ≤ 255

theorem toNat_component {value : Int} (h : 0 ≤ value ∧ value ≤ 255) :
    ((BitVec.ofInt 8 value).toNat : Int) = value := by
  rw [BitVec.toNat_ofInt]
  omega

theorem ofComponents_triple (h : Triple values) (pixels : Nat) :
    ∃ color, ofComponents values pixels = .ok color ∧ color.components = values := by
  have inside : values.find? (fun value => value < 0 || 255 < value) = none := by
    refine List.find?_eq_none.mpr fun value hv => ?_
    have := h.bounded value hv
    simp only [Bool.or_eq_true, decide_eq_true_eq]
    omega
  obtain ⟨red, green, blue, rfl⟩ := List.length_eq_three.mp h.three
  refine ⟨⟨.ofInt 8 red, .ofInt 8 green, .ofInt 8 blue⟩, ?_, ?_⟩
  · rw [ofComponents, inside]
    rfl
  · rw [components, toNat_component (h.bounded red (by simp)),
      toNat_component (h.bounded green (by simp)), toNat_component (h.bounded blue (by simp))]

end Color

-- ---------------------------------------------------------------------------
-- Rasters
-- ---------------------------------------------------------------------------

namespace Raster

def at? (raster : Raster) (row column : Nat) : Option (List Int) :=
  (raster.rows[row]?.bind (·[column]?)).map Color.components

/-- The raster has the shape of the screen magnified, and every place has the color of
the pixel that it lies in. -/
structure Shows (raster : Raster) (display : Display) (scale : Nat) (on off : List Int) : Prop where
  height_eq : raster.height = 32 * scale
  width_eq : raster.width = 64 * scale
  rows : raster.rows.length = 32 * scale
  columns : ∀ row ∈ raster.rows, row.length = 64 * scale
  pixels : ∀ r < 32 * scale, ∀ c < 64 * scale, ∃ (x : Fin 64) (y : Fin 32),
    x.val = c / scale ∧ y.val = r / scale ∧
      raster.at? r c = some (if display.pixel x y then on else off)

def screen (raster : Raster) (on : List Int) : Display :=
  let scale := raster.width / 64
  .ofPixels fun x y => raster.at? (y * scale) (x * scale) = some on

theorem Shows.screen_eq {raster : Raster} (shows : raster.Shows display scale on off)
    (positive : 0 < scale) (apart : on ≠ off) : raster.screen on = display := by
  have width : raster.width / 64 = scale := by
    rw [shows.width_eq, Nat.mul_div_cancel_left scale (by decide)]
  refine Display.ext_pixel fun x y => ?_
  have below : y * scale < 32 * scale := Nat.mul_lt_mul_of_pos_right y.isLt positive
  have inside : x * scale < 64 * scale := Nat.mul_lt_mul_of_pos_right x.isLt positive
  obtain ⟨i, j, hi, hj, shown⟩ := shows.pixels _ below _ inside
  have column : i = x := Fin.ext (hi.trans (Nat.mul_div_cancel _ positive))
  have row : j = y := Fin.ext (hj.trans (Nat.mul_div_cancel _ positive))
  rw [screen, Display.pixel_ofPixels, width, shown, column, row]
  exact lit_of_shown apart _

end Raster

namespace Display

section
variable {α : Type} {scale : Nat} {items : List α}

theorem length_stretch : (stretch scale items).length = items.length * scale := by
  induction items with
  | nil => exact (Nat.zero_mul scale).symm
  | cons item rest ih =>
    rw [stretch, List.flatMap_cons, List.length_append, List.length_replicate, ← stretch, ih,
      List.length_cons, Nat.succ_mul, Nat.add_comm]

theorem getElem?_stretch (positive : 0 < scale) (i : Nat) :
    (stretch scale items)[i]? = items[i / scale]? := by
  induction items generalizing i with
  | nil => rfl
  | cons item rest ih =>
    rw [stretch, List.flatMap_cons, ← stretch]
    by_cases first : i < scale
    · rw [List.getElem?_append_left (by rwa [List.length_replicate]), List.getElem?_replicate,
        if_pos first, Nat.div_eq_of_lt first, List.getElem?_cons_zero]
    · obtain ⟨k, rfl⟩ := Nat.exists_eq_add_of_le (Nat.not_lt.mp first)
      rw [List.getElem?_append_right (by simp), List.length_replicate, Nat.add_sub_cancel_left, ih,
        Nat.add_div_left k positive, List.getElem?_cons_succ]

end

variable (display : Display)

theorem getElem?_map_finRange (f : Fin n → α) (i : Fin n) :
    ((List.finRange n).map f)[i.val]? = some (f i) := by
  simp

theorem at?_paint {scale : Int} {on off : Color} (x : Fin 64) (y : Fin 32)
    (hr : r / (max scale 1).toNat = y) (hc : c / (max scale 1).toNat = x) :
    (display.paint scale on off).at? r c =
      some (if display.pixel x y then on.components else off.components) := by
  have positive : 0 < (max scale 1).toNat := by omega
  rw [Raster.at?, paint, getElem?_stretch positive, hr, getElem?_map_finRange, Option.bind_some,
    getElem?_stretch positive, hc, getElem?_map_finRange, Option.map_some]
  split <;> rfl

theorem shows_paint (scale : Int) (on off : Color) : (display.paint scale on off).Shows display
    (max scale 1).toNat on.components off.components where
  height_eq := rfl
  width_eq := rfl
  rows := by
    rw [paint, length_stretch, List.length_map, List.length_finRange]
  columns row hrow := by
    obtain ⟨line, hline, hrow⟩ := List.mem_flatMap.mp hrow
    obtain ⟨y, -, rfl⟩ := List.mem_map.mp hline
    rw [(List.mem_replicate.mp hrow).2, length_stretch, List.length_map, List.length_finRange]
  pixels r hr c hc := by
    have column : c / (max scale 1).toNat < 64 := Nat.div_lt_of_lt_mul (by rwa [Nat.mul_comm])
    have row : r / (max scale 1).toNat < 32 := Nat.div_lt_of_lt_mul (by rwa [Nat.mul_comm])
    exact ⟨⟨_, column⟩, ⟨_, row⟩, rfl, rfl, display.at?_paint _ _ rfl rfl⟩

theorem raster_eq (scale : Int) (hon : Color.Triple on) (hoff : Color.Triple off) :
    ∃ lit unlit : Color, lit.components = on ∧ unlit.components = off ∧
      display.raster scale on off =
        if LongInteger.Fits (rasterBytes scale) then .ok (display.paint scale lit unlit)
        else .error (.scale scale) := by
  obtain ⟨lit, hlit, rfl⟩ := Color.ofComponents_triple hon display.litCount
  obtain ⟨unlit, hunlit, rfl⟩ := Color.ofComponents_triple hoff (2048 - display.litCount)
  refine ⟨lit, unlit, rfl, rfl, ?_⟩
  simp only [raster, hlit, hunlit]
  split <;> rfl

-- ---------------------------------------------------------------------------
-- Texts
-- ---------------------------------------------------------------------------

def ofText (text : String) (on : Char) : Display :=
  let lines := text.toList.splitOn '\n'
  .ofPixels fun x y => lines[y.val]?.bind (·[x.val]?) = some on

theorem text_lines (on off : String) : ∃ lines : List String, lines.length = 32 ∧
    display.text on off = "\n".intercalate lines ∧ ∀ y : Fin 32, lines[y.val]? =
      some (String.join ((List.finRange 64).map fun x => if display.pixel x y then on else off)) :=
  ⟨(List.finRange 32).map (display.textLine on off), by simp, rfl, getElem?_map_finRange _⟩

def characters (display : Display) (on off : Char) (y : Fin 32) : List Char :=
  (List.finRange 64).map fun x => if display.pixel x y then on else off

theorem toList_textLine (on off : Char) (y : Fin 32) :
    (display.textLine (.singleton on) (.singleton off) y).toList = display.characters on off y := by
  have single (x : Fin 64) :
      (if display.pixel x y then String.singleton on else String.singleton off).toList =
        [if display.pixel x y then on else off] := by
    split <;> exact String.toList_singleton _
  rw [textLine, characters, String.toList_join, List.flatMap_map, List.map_eq_flatMap]
  exact congrArg (List.flatMap · (List.finRange 64)) (funext single)

theorem newline_not_mem_characters {on off : Char} (hon : on ≠ '\n') (hoff : off ≠ '\n')
    (y : Fin 32) : '\n' ∉ display.characters on off y := by
  intro newline
  obtain ⟨x, -, hx⟩ := List.mem_map.mp newline
  split at hx
  · exact hon hx
  · exact hoff hx

theorem splitOn_text {on off : Char} (hon : on ≠ '\n') (hoff : off ≠ '\n') :
    (display.text (.singleton on) (.singleton off)).toList.splitOn '\n' =
      (List.finRange 32).map (display.characters on off) := by
  have lines : (List.finRange 32).map
      (String.toList ∘ display.textLine (.singleton on) (.singleton off)) =
        (List.finRange 32).map (display.characters on off) :=
    List.map_congr_left fun y _ => display.toList_textLine on off y
  rw [text, String.toList_intercalate, List.map_map, lines]
  refine List.splitOn_intercalate '\n' (fun line hline => ?_) (by simp)
  obtain ⟨y, -, rfl⟩ := List.mem_map.mp hline
  exact display.newline_not_mem_characters hon hoff y

theorem ofText_text {on off : Char} (h : on ≠ off) (hon : on ≠ '\n') (hoff : off ≠ '\n') :
    ofText (display.text (.singleton on) (.singleton off)) on = display := by
  refine ext_pixel fun x y => ?_
  rw [ofText, pixel_ofPixels, display.splitOn_text hon hoff, getElem?_map_finRange,
    Option.bind_some, characters, getElem?_map_finRange]
  exact lit_of_shown h _

theorem rasterBytes_fits_iff {scale : Int} : LongInteger.Fits (rasterBytes scale) ↔
    6144 * (max scale 1 * max scale 1) ≤ 9223372036854775807 := by
  have square : 0 ≤ max scale 1 * max scale 1 := Int.mul_nonneg (by omega) (by omega)
  rw [rasterBytes, LongInteger.Fits]
  omega

/-- A raster shows the screen in the two colors and a text in the two pieces, and each of
them is enough to tell the screen from any other. A raster of more bytes than a long
integer counts is never made. -/
theorem exports_lossless (display : Display) :
    (∀ (scale : Int) (on off : List Int), Color.Triple on → Color.Triple off →
      (6144 * (max scale 1 * max scale 1) ≤ 9223372036854775807 →
        ∃ raster, display.raster scale on off = .ok raster ∧
          raster.Shows display (max scale 1).toNat on off ∧
          (on ≠ off → raster.screen on = display)) ∧
      (9223372036854775807 < 6144 * (max scale 1 * max scale 1) →
        ∀ raster, display.raster scale on off ≠ .ok raster)) ∧
    (∀ on off : String, ∃ lines : List String, lines.length = 32 ∧
      display.text on off = "\n".intercalate lines ∧ ∀ y : Fin 32, lines[y.val]? = some
        (String.join ((List.finRange 64).map fun x => if display.pixel x y then on else off))) ∧
    (∀ on off : Char, on ≠ off → on ≠ '\n' → off ≠ '\n' →
      ofText (display.text (.singleton on) (.singleton off)) on = display) := by
  refine ⟨fun scale on off hon hoff => ?_, display.text_lines,
    fun on off apart hon hoff => display.ofText_text apart hon hoff⟩
  obtain ⟨lit, unlit, rfl, rfl, painted⟩ := display.raster_eq scale hon hoff
  have shows := display.shows_paint scale lit unlit
  have positive : 0 < (max scale 1).toNat := by omega
  refine ⟨fun small => ?_, fun large raster result => ?_⟩
  · have fits := rasterBytes_fits_iff.mpr small
    exact ⟨_, painted.trans (if_pos fits), shows, shows.screen_eq positive⟩
  · have refused := painted.trans
      (if_neg (mt rasterBytes_fits_iff.mp (Int.not_le.mpr large)))
    exact nomatch refused.symm.trans result

/-- One pixel off the diagonal, magnified: its square begins at row 6 and column 15. -/
theorem exports_lossless_magnified :
    let display := ofPixels fun x y => x = 5 ∧ y = 2
    ((6144 * (max 3 1 * max 3 1) : Int) ≤ 9223372036854775807 ∧
      (9223372036854775807 : Int) < 6144 * (max 38745321 1 * max 38745321 1) ∧
      Color.Triple [0, 255, 0] ∧ Color.Triple [0, 0, 64]) ∧
    (∃ raster, display.raster 3 [0, 255, 0] [0, 0, 64] = .ok raster ∧
      raster.Shows display 3 [0, 255, 0] [0, 0, 64] ∧ raster.at? 6 15 = some [0, 255, 0] ∧
      raster.at? 5 15 = some [0, 0, 64] ∧ raster.screen [0, 255, 0] = display) ∧
    (∀ raster, display.raster 38745321 [0, 255, 0] [0, 0, 64] ≠ .ok raster) ∧
    ofText (display.text "#" ".") '#' = display := by
  intro display
  have on : Color.Triple [0, 255, 0] := ⟨rfl, by decide⟩
  have off : Color.Triple [0, 0, 64] := ⟨rfl, by decide⟩
  obtain ⟨rasters, -, texts⟩ := exports_lossless display
  obtain ⟨raster, painted, shows, read⟩ := (rasters 3 _ _ on off).1 (by decide)
  refine ⟨⟨by decide, by decide, on, off⟩, ⟨raster, painted, shows, ?_, ?_, read (by decide)⟩,
    (rasters _ _ _ on off).2 (by decide), texts '#' '.' (by decide) (by decide) (by decide)⟩
  · obtain ⟨x, y, hx, hy, lit⟩ := shows.pixels 6 (by decide) 15 (by decide)
    have column : x = 5 := Fin.ext hx
    have row : y = 2 := Fin.ext hy
    simpa [display, column, row] using lit
  · obtain ⟨x, y, hx, hy, unlit⟩ := shows.pixels 5 (by decide) 15 (by decide)
    have row : y = 1 := Fin.ext hy
    simpa [display, row] using unlit

/-- A scale beyond all long integers paints nothing, however good the colors are. -/
theorem oversized_raster :
    let scale : Int := 100000000000000000000
    Color.Triple [0, 255, 0] ∧ Color.Triple [0, 0, 0] ∧
      blank.raster scale [0, 255, 0] [0, 0, 0] = .error (.scale scale) ∧
      ¬ ∃ raster, blank.raster scale [0, 255, 0] [0, 0, 0] = .ok raster := by
  intro scale
  have on : Color.Triple [0, 255, 0] := ⟨rfl, by decide⟩
  have off : Color.Triple [0, 0, 0] := ⟨rfl, by decide⟩
  obtain ⟨_, _, -, -, painted⟩ := blank.raster_eq scale on off
  have refused := painted.trans (if_neg (by decide))
  refine ⟨on, off, refused, ?_⟩
  rintro ⟨raster, result⟩
  exact nomatch refused.symm.trans result

end Display

end Chip8
