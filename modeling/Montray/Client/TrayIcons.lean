import Montray.Lib.Sequences
import Montray.Client.Config

/-!
# Montray.Client.TrayIcons

The pixels of the tray icon: `alpha_over` and `compose_overlay`, in the arithmetic of `u32`.

An access outside of an image panics, which is `none` here.

* `alphaOver_fits`: no intermediate value is out of range.
* `composeOverlay_spec`: every pixel of the result.
* `channel_le_iff`: when rounding keeps a colour below the larger one.
* `overlay_compositing`: the colours stay between those of the pixels, the overlay in its corner.
-/

namespace Montray
namespace Client
namespace Tray

open Lib

/-! ## Pixels -/

abbrev Rgba := Vector UInt8 4

section Pixels

variable (foreground background : Rgba)

def outputAlpha : UInt32 :=
  let foregroundAlpha : UInt32 := foreground[3].toUInt32
  let backgroundAlpha : UInt32 := background[3].toUInt32
  foregroundAlpha + backgroundAlpha * (255 - foregroundAlpha) / 255

def premultiplied (index : Fin 4) : UInt32 :=
  let foregroundAlpha : UInt32 := foreground[3].toUInt32
  let backgroundAlpha : UInt32 := background[3].toUInt32
  foreground[index].toUInt32 * foregroundAlpha +
    background[index].toUInt32 * backgroundAlpha * (255 - foregroundAlpha) / 255

/-- A colour before the conversion to a byte. -/
def channel (index : Fin 4) : UInt32 :=
  premultiplied foreground background index / outputAlpha foreground background

def alphaOver : Rgba :=
  if outputAlpha foreground background = 0 then #v[0, 0, 0, 0]
  else
    let channel := fun index => (channel foreground background index).toUInt8
    #v[channel 0, channel 1, channel 2, (outputAlpha foreground background).toUInt8]

end Pixels

/-! ## Images -/

structure RgbaImage where
  width : UInt32
  height : UInt32
  pixel : Fin width.toNat → Fin height.toNat → Rgba

namespace RgbaImage

def getPixel (image : RgbaImage) (x y : UInt32) : Option Rgba :=
  if h : x.toNat < image.width.toNat ∧ y.toNat < image.height.toNat then
    some (image.pixel ⟨x.toNat, h.1⟩ ⟨y.toNat, h.2⟩)
  else none

def putPixel (image : RgbaImage) (x y : UInt32) (pixel : Rgba) : Option RgbaImage :=
  if x.toNat < image.width.toNat ∧ y.toNat < image.height.toNat then
    some { image with
      pixel := fun i j => if i.val = x.toNat ∧ j.val = y.toNat then pixel else image.pixel i j }
  else none

end RgbaImage

/-- The range `0..size`. -/
def upTo (size : UInt32) : List UInt32 := (List.range size.toNat).map UInt32.ofNat

def overlaySize (base : RgbaImage) : UInt32 := base.width * 30 / 100

section Loop

variable (overlay : RgbaImage) (size startX startY : UInt32)

def sourceX (x : UInt32) : UInt32 := x * overlay.width / size

def sourceY (y : UInt32) : UInt32 := y * overlay.height / size

/-- The body of the loops. -/
def overlayPixel (result : RgbaImage) (at_ : UInt32 × UInt32) : Option RgbaImage := do
  let (y, x) := at_
  let foreground ← overlay.getPixel (sourceX overlay size x) (sourceY overlay size y)
  let background ← result.getPixel (startX + x) (startY + y)
  result.putPixel (startX + x) (startY + y) (alphaOver foreground background)

end Loop

def composeOverlay (base overlay : RgbaImage) : Option (Except Chain RgbaImage) :=
  if base.width = 0 ∨ base.height = 0 ∨ overlay.width = 0 ∨ overlay.height = 0 then
    some (bail "tray icons must not be empty")
  else
    let size := overlaySize base
    if size = 0 then some (.ok base)
    else
      let startX := base.width - size
      let startY := base.height - size
      ((upTo size).product (upTo size)).foldlM (overlayPixel overlay size startX startY) base
        |>.map .ok

/-! ## Arithmetic -/

section Arithmetic

variable (f b : Rgba)

/-- The exact values of `alpha_over`, all of them within `u32`. -/
structure Fits : Prop where
  complement : f[3].toNat ≤ 255
  alphaProduct : b[3].toNat * (255 - f[3].toNat) < 2 ^ 32
  outputAlpha : (outputAlpha f b).toNat = f[3].toNat + b[3].toNat * (255 - f[3].toNat) / 255
  foreground : ∀ i : Fin 4, f[i].toNat * f[3].toNat < 2 ^ 32
  background : ∀ i : Fin 4, b[i].toNat * b[3].toNat < 2 ^ 32
  backgroundProduct : ∀ i : Fin 4, b[i].toNat * b[3].toNat * (255 - f[3].toNat) < 2 ^ 32
  premultiplied : ∀ i : Fin 4, (premultiplied f b i).toNat =
    f[i].toNat * f[3].toNat + b[i].toNat * b[3].toNat * (255 - f[3].toNat) / 255
  channel : ∀ i : Fin 4, (channel f b i).toNat =
    (f[i].toNat * f[3].toNat + b[i].toNat * b[3].toNat * (255 - f[3].toNat) / 255) /
      (f[3].toNat + b[3].toNat * (255 - f[3].toNat) / 255)

variable {f b}

theorem byte_le (x : UInt8) : x.toNat ≤ 255 := Nat.le_of_lt_succ x.toNat_lt

theorem toNat_complement (x : UInt8) : (255 - x.toUInt32).toNat = 255 - x.toNat := by
  have hle : x.toUInt32 ≤ 255 := by
    rw [UInt32.le_iff_toNat_le, UInt8.toNat_toUInt32]
    exact byte_le x
  rw [UInt32.toNat_sub_of_le _ _ hle, UInt8.toNat_toUInt32]
  rfl

/-- A product of two bytes. -/
theorem mul_bytes_le {m n : Nat} (hm : m ≤ 255) (hn : n ≤ 255) : m * n ≤ 65025 :=
  Nat.mul_le_mul hm hn

theorem toNat_mul_of_lt {x y : UInt32} (h : x.toNat * y.toNat < 2 ^ 32) :
    (x * y).toNat = x.toNat * y.toNat := by
  rw [UInt32.toNat_mul, Nat.mod_eq_of_lt h]

theorem toNat_add_of_lt {x y : UInt32} (h : x.toNat + y.toNat < 2 ^ 32) :
    (x + y).toNat = x.toNat + y.toNat := by
  rw [UInt32.toNat_add, Nat.mod_eq_of_lt h]

theorem toNat_outputAlpha (f b : Rgba) :
    (outputAlpha f b).toNat = f[3].toNat + b[3].toNat * (255 - f[3].toNat) / 255 := by
  have hcomplement := toNat_complement f[3]
  have hproduct : (b[3].toUInt32 * ((255 : UInt32) - f[3].toUInt32)).toNat =
      b[3].toNat * (255 - f[3].toNat) := by
    have hle := mul_bytes_le (byte_le b[3]) (Nat.sub_le 255 f[3].toNat)
    rw [toNat_mul_of_lt (by rw [hcomplement, UInt8.toNat_toUInt32]; omega), hcomplement,
      UInt8.toNat_toUInt32]
  have hquotient : (b[3].toUInt32 * ((255 : UInt32) - f[3].toUInt32) / 255).toNat =
      b[3].toNat * (255 - f[3].toNat) / 255 := by
    rw [UInt32.toNat_div, hproduct]
    rfl
  have hle := mul_bytes_le (byte_le b[3]) (Nat.sub_le 255 f[3].toNat)
  have hf := byte_le f[3]
  unfold outputAlpha
  rw [toNat_add_of_lt (by rw [hquotient, UInt8.toNat_toUInt32]; omega), hquotient,
    UInt8.toNat_toUInt32]

theorem toNat_premultiplied (f b : Rgba) (i : Fin 4) : (premultiplied f b i).toNat =
    f[i].toNat * f[3].toNat + b[i].toNat * b[3].toNat * (255 - f[3].toNat) / 255 := by
  have hcomplement := toNat_complement f[3]
  have hfront := mul_bytes_le (byte_le f[i]) (byte_le f[3])
  have hback := mul_bytes_le (byte_le b[i]) (byte_le b[3])
  have hall : b[i].toNat * b[3].toNat * (255 - f[3].toNat) ≤ 65025 * 255 :=
    Nat.mul_le_mul hback (Nat.sub_le _ _)
  have hforeground : (f[i].toUInt32 * f[3].toUInt32).toNat = f[i].toNat * f[3].toNat :=
    toNat_mul_of_lt (by simp only [UInt8.toNat_toUInt32]; omega)
  have hbackground : (b[i].toUInt32 * b[3].toUInt32).toNat = b[i].toNat * b[3].toNat :=
    toNat_mul_of_lt (by simp only [UInt8.toNat_toUInt32]; omega)
  have hproduct : (b[i].toUInt32 * b[3].toUInt32 * ((255 : UInt32) - f[3].toUInt32)).toNat =
      b[i].toNat * b[3].toNat * (255 - f[3].toNat) := by
    rw [toNat_mul_of_lt (by rw [hbackground, hcomplement]; omega), hbackground, hcomplement]
  have hquotient : (b[i].toUInt32 * b[3].toUInt32 * ((255 : UInt32) - f[3].toUInt32) / 255).toNat =
      b[i].toNat * b[3].toNat * (255 - f[3].toNat) / 255 := by
    rw [UInt32.toNat_div, hproduct]
    rfl
  unfold premultiplied
  rw [toNat_add_of_lt (by rw [hquotient, hforeground]; omega), hquotient, hforeground]

theorem alphaOver_fits (f b : Rgba) : Fits f b where
  complement := byte_le f[3]
  alphaProduct := by
    have hle := mul_bytes_le (byte_le b[3]) (Nat.sub_le 255 f[3].toNat)
    omega
  outputAlpha := toNat_outputAlpha f b
  foreground i := by
    have hle := mul_bytes_le (byte_le f[i]) (byte_le f[3])
    omega
  background i := by
    have hle := mul_bytes_le (byte_le b[i]) (byte_le b[3])
    omega
  backgroundProduct i := by
    have hle : b[i].toNat * b[3].toNat * (255 - f[3].toNat) ≤ 65025 * 255 :=
      Nat.mul_le_mul (mul_bytes_le (byte_le b[i]) (byte_le b[3])) (Nat.sub_le _ _)
    omega
  premultiplied := toNat_premultiplied f b
  channel i := by
    rw [channel, UInt32.toNat_div, toNat_premultiplied, toNat_outputAlpha]

/-- What the alpha of the background loses to the division by 255. -/
def alphaLoss (f b : Rgba) : Nat := b[3].toNat * (255 - f[3].toNat) % 255

theorem outputAlpha_le (f b : Rgba) : (outputAlpha f b).toNat ≤ 255 := by
  have hf := byte_le f[3]
  have hle : b[3].toNat * (255 - f[3].toNat) ≤ 255 * (255 - f[3].toNat) :=
    Nat.mul_le_mul_right _ (byte_le b[3])
  rw [toNat_outputAlpha]
  omega

/-- A mean of the two colours, and what the colour of the background gains on its alpha. -/
theorem premultiplied_eq (f b : Rgba) (i : Fin 4) : (premultiplied f b i).toNat =
    f[i].toNat * f[3].toNat + b[i].toNat * (b[3].toNat * (255 - f[3].toNat) / 255) +
      b[i].toNat * alphaLoss f b / 255 := by
  have hsplit := Nat.div_add_mod (b[3].toNat * (255 - f[3].toNat)) 255
  have hproduct : b[i].toNat * b[3].toNat * (255 - f[3].toNat) =
      255 * (b[i].toNat * (b[3].toNat * (255 - f[3].toNat) / 255)) +
        b[i].toNat * alphaLoss f b := by
    calc b[i].toNat * b[3].toNat * (255 - f[3].toNat)
        = b[i].toNat * (b[3].toNat * (255 - f[3].toNat)) := Nat.mul_assoc ..
      _ = b[i].toNat * (255 * (b[3].toNat * (255 - f[3].toNat) / 255) + alphaLoss f b) := by
        rw [alphaLoss, hsplit]
      _ = _ := by ring
  rw [toNat_premultiplied, hproduct, Nat.mul_add_div (by decide), Nat.add_assoc]

theorem min_mul_le (x y m n e : Nat) : min x y * (m + n) ≤ x * m + y * n + e := by
  calc min x y * (m + n) = min x y * m + min x y * n := Nat.mul_add ..
    _ ≤ x * m + y * n := Nat.add_le_add (Nat.mul_le_mul_right _ (Nat.min_le_left x y))
        (Nat.mul_le_mul_right _ (Nat.min_le_right x y))
    _ ≤ x * m + y * n + e := Nat.le_add_right ..

/-- What a mean may gain without a step beyond the larger of the two. -/
theorem lt_max_mul_iff {x y m n e : Nat} :
    x * m + y * n + e < (max x y + 1) * (m + n) ↔
      e < m + n + (max x y - x) * m + (max x y - y) * n := by
  have hx : x + (max x y - x) = max x y := Nat.add_sub_cancel' (Nat.le_max_left x y)
  have hy : y + (max x y - y) = max x y := Nat.add_sub_cancel' (Nat.le_max_right x y)
  have hsplit : (max x y + 1) * (m + n) =
      x * m + y * n + (m + n + (max x y - x) * m + (max x y - y) * n) := by
    calc (max x y + 1) * (m + n) = max x y * m + max x y * n + (m + n) := by ring
      _ = (x + (max x y - x)) * m + (y + (max x y - y)) * n + (m + n) := by rw [hx, hy]
      _ = _ := by ring
  rw [hsplit, Nat.add_lt_add_iff_left]

/-- The output is transparent where both pixels are. -/
theorem outputAlpha_eq_zero : outputAlpha f b = 0 ↔ f[3] = 0 ∧ b[3] = 0 := by
  rw [← UInt32.toNat_inj, toNat_outputAlpha, ← UInt8.toNat_inj, ← UInt8.toNat_inj]
  show _ + _ = 0 ↔ _ = 0 ∧ _ = 0
  constructor
  · intro h
    have hf : f[3].toNat = 0 := by omega
    rw [hf] at h
    exact ⟨hf, by omega⟩
  · rintro ⟨hf, hb⟩
    rw [hf, hb]

theorem outputAlpha_pos (h : outputAlpha f b ≠ 0) :
    0 < f[3].toNat + b[3].toNat * (255 - f[3].toNat) / 255 := by
  rw [← toNat_outputAlpha]
  refine Nat.pos_of_ne_zero fun hzero => h ?_
  exact UInt32.toNat_inj.mp hzero

/-- A colour is never below both. -/
theorem channel_ge (h : outputAlpha f b ≠ 0) (i : Fin 4) :
    min f[i].toNat b[i].toNat ≤ (channel f b i).toNat := by
  rw [channel, UInt32.toNat_div, premultiplied_eq, toNat_outputAlpha,
    Nat.le_div_iff_mul_le (outputAlpha_pos h)]
  exact min_mul_le ..

/-- What the colour of the background gains on its alpha is less than a step beyond the larger
colour. -/
def Rounds (f b : Rgba) (i : Fin 4) : Prop :=
  let foregroundPart := f[3].toNat
  let backgroundPart := b[3].toNat * (255 - f[3].toNat) / 255
  let larger := max f[i].toNat b[i].toNat
  b[i].toNat * alphaLoss f b / 255 < foregroundPart + backgroundPart +
    (larger - f[i].toNat) * foregroundPart + (larger - b[i].toNat) * backgroundPart

instance (f b : Rgba) (i : Fin 4) : Decidable (Rounds f b i) := inferInstanceAs (Decidable (_ < _))

theorem channel_le_iff (h : outputAlpha f b ≠ 0) {i : Fin 4} :
    (channel f b i).toNat ≤ max f[i].toNat b[i].toNat ↔ Rounds f b i := by
  rw [channel, UInt32.toNat_div, premultiplied_eq, toNat_outputAlpha, ← Nat.lt_succ_iff,
    Nat.div_lt_iff_lt_mul (outputAlpha_pos h)]
  exact lt_max_mul_iff

/-- The arithmetic of `alpha_over` is sound for the two pixels. -/
structure Sound (f b : Rgba) : Prop where
  fits : Fits f b
  alpha : (outputAlpha f b).toNat ≤ 255
  colour : outputAlpha f b ≠ 0 → ∀ i : Fin 4, i ≠ 3 → (channel f b i).toNat ≤ 255 ∧
    min f[i].toNat b[i].toNat ≤ (channel f b i).toNat ∧
    (channel f b i).toNat ≤ max f[i].toNat b[i].toNat

theorem sound_iff : Sound f b ↔ f[3] = 0 ∧ b[3] = 0 ∨ ∀ i : Fin 4, i ≠ 3 → Rounds f b i := by
  rw [← outputAlpha_eq_zero]
  constructor
  · intro h
    by_cases hzero : outputAlpha f b = 0
    · exact .inl hzero
    · exact .inr fun i hi => (channel_le_iff hzero).mp (h.colour hzero i hi).2.2
  · intro h
    refine ⟨alphaOver_fits f b, outputAlpha_le f b, fun hne i hi => ?_⟩
    have hle := (channel_le_iff hne).mpr (h.resolve_left hne i hi)
    have hf := byte_le f[i]
    have hb := byte_le b[i]
    exact ⟨by omega, channel_ge hne i, hle⟩

end Arithmetic

/-! ## The loops -/

theorem mem_upTo {x size : UInt32} : x ∈ upTo size ↔ x.toNat < size.toNat := by
  rw [upTo, List.mem_map]
  constructor
  · rintro ⟨n, hn, rfl⟩
    have hlt := List.mem_range.mp hn
    rw [UInt32.toNat_ofNat_of_lt' (hlt.trans size.toNat_lt)]
    exact hlt
  · intro hx
    exact ⟨x.toNat, List.mem_range.mpr hx, UInt32.ofNat_toNat⟩

theorem nodup_upTo (size : UInt32) : (upTo size).Nodup := by
  refine List.Nodup.map_on ?_ List.nodup_range
  intro m hm n hn heq
  have hm' := (List.mem_range.mp hm).trans size.toNat_lt
  have hn' := (List.mem_range.mp hn).trans size.toNat_lt
  have hnat := congrArg UInt32.toNat heq
  rwa [UInt32.toNat_ofNat_of_lt' hm', UInt32.toNat_ofNat_of_lt' hn'] at hnat

namespace RgbaImage

variable {image : RgbaImage} {x y : UInt32}

theorem exists_getPixel (hx : x.toNat < image.width.toNat) (hy : y.toNat < image.height.toNat) :
    ∃ pixel, image.getPixel x y = some pixel :=
  ⟨_, dif_pos ⟨hx, hy⟩⟩

theorem exists_putPixel (hx : x.toNat < image.width.toNat) (hy : y.toNat < image.height.toNat)
    (pixel : Rgba) : ∃ image', image.putPixel x y pixel = some image' ∧
      image'.width = image.width ∧ image'.height = image.height ∧
      ∀ u v, image'.getPixel u v = if u = x ∧ v = y then some pixel else image.getPixel u v := by
  refine ⟨_, if_pos ⟨hx, hy⟩, rfl, rfl, fun u v => ?_⟩
  by_cases heq : u = x ∧ v = y
  · obtain ⟨rfl, rfl⟩ := heq
    simp [getPixel, hx, hy]
  · have hne : ¬ (u.toNat = x.toNat ∧ v.toNat = y.toNat) := fun h =>
      heq ⟨UInt32.toNat_inj.mp h.1, UInt32.toNat_inj.mp h.2⟩
    simp only [getPixel, if_neg heq, if_neg hne]

end RgbaImage

/-- A coordinate is scaled into the overlay, also where the product wraps around. -/
theorem scaled_lt {x size length : UInt32} (hx : x.toNat < size.toNat) (hl : length ≠ 0) :
    (x * length / size).toNat < length.toNat := by
  have hpos : 0 < length.toNat :=
    Nat.pos_of_ne_zero fun hzero => hl (UInt32.toNat_inj.mp hzero)
  rw [UInt32.toNat_div, UInt32.toNat_mul, Nat.div_lt_iff_lt_mul (by omega)]
  calc x.toNat * length.toNat % 2 ^ 32 ≤ x.toNat * length.toNat := Nat.mod_le ..
    _ < size.toNat * length.toNat := Nat.mul_lt_mul_of_pos_right hx hpos
    _ = length.toNat * size.toNat := Nat.mul_comm ..

/-- A coordinate is moved into the corner. -/
theorem moved_lt {x size length : UInt32} (hsize : size.toNat ≤ length.toNat)
    (hx : x.toNat < size.toNat) :
    (length - size + x).toNat = length.toNat - size.toNat + x.toNat := by
  have hstart : (length - size).toNat = length.toNat - size.toNat :=
    UInt32.toNat_sub_of_le _ _ (UInt32.le_iff_toNat_le.mpr hsize)
  have hlength := length.toNat_lt
  rw [toNat_add_of_lt (by omega), hstart]

section Painted

variable (base overlay : RgbaImage) (size startX startY : UInt32)

/-- The pixel of the result in the corner. -/
def painted (u v : UInt32) : Option Rgba := do
  let foreground ← overlay.getPixel (sourceX overlay size (u - startX))
    (sourceY overlay size (v - startY))
  let background ← base.getPixel u v
  some (alphaOver foreground background)

/-- The image after the loops have been at the positions `done`. -/
structure Painted (done : List (UInt32 × UInt32)) (result : RgbaImage) : Prop where
  width : result.width = base.width
  height : result.height = base.height
  getPixel : ∀ u v, result.getPixel u v =
    if (v - startY, u - startX) ∈ done then painted base overlay size startX startY u v
    else base.getPixel u v

variable {base overlay size startX startY}

theorem Painted.step {done : List (UInt32 × UInt32)} {result : RgbaImage} {x y : UInt32}
    (h : Painted base overlay size startX startY done result) (hnew : (y, x) ∉ done)
    (hx : (sourceX overlay size x).toNat < overlay.width.toNat)
    (hy : (sourceY overlay size y).toNat < overlay.height.toNat)
    (hu : (startX + x).toNat < base.width.toNat) (hv : (startY + y).toNat < base.height.toNat) :
    ∃ result', overlayPixel overlay size startX startY result (y, x) = some result' ∧
      Painted base overlay size startX startY (done ++ [(y, x)]) result' := by
  obtain ⟨foreground, hforeground⟩ := RgbaImage.exists_getPixel hx hy
  obtain ⟨background, hbackground⟩ := RgbaImage.exists_getPixel hu hv
  have hback : ∀ w : UInt32, startX + w - startX = w := fun w => by
    rw [UInt32.add_comm, UInt32.add_sub_cancel]
  have hbackY : ∀ w : UInt32, startY + w - startY = w := fun w => by
    rw [UInt32.add_comm, UInt32.add_sub_cancel]
  -- the position is new, so the background is still that of the base
  have hread : result.getPixel (startX + x) (startY + y) = some background := by
    rw [h.getPixel, hback, hbackY, if_neg hnew, hbackground]
  obtain ⟨result', hput, hwidth, hheight, hpixels⟩ := RgbaImage.exists_putPixel
    (h.width.symm ▸ hu) (h.height.symm ▸ hv) (alphaOver foreground background)
  refine ⟨result', ?_, hwidth.trans h.width, hheight.trans h.height, fun u v => ?_⟩
  · simp only [overlayPixel, hforeground, hread, Option.bind_eq_bind, Option.bind_some, hput]
  · rw [hpixels]
    by_cases hhere : u = startX + x ∧ v = startY + y
    · obtain ⟨rfl, rfl⟩ := hhere
      rw [if_pos ⟨rfl, rfl⟩, hback, hbackY, if_pos (List.mem_append_right _ List.mem_cons_self)]
      simp only [painted, hback, hbackY, hforeground, hbackground, Option.bind_eq_bind,
        Option.bind_some]
    · have hother : (v - startY, u - startX) ≠ (y, x) := by
        intro heq
        rw [Prod.mk.injEq] at heq
        refine hhere ⟨?_, ?_⟩
        · rw [← heq.2, UInt32.add_comm, UInt32.sub_add_cancel]
        · rw [← heq.1, UInt32.add_comm, UInt32.sub_add_cancel]
      rw [if_neg hhere, h.getPixel]
      simp only [List.mem_append, List.mem_singleton, hother, or_false]

end Painted

theorem overlaySize_le (base : RgbaImage) :
    (overlaySize base).toNat ≤ base.width.toNat * 30 / 100 := by
  rw [overlaySize, UInt32.toNat_div, UInt32.toNat_mul]
  exact Nat.div_le_div_right (Nat.mod_le ..)

/-- The position is in the lower-right square of the given size. -/
def InCorner (base : RgbaImage) (size : Nat) (u v : UInt32) : Prop :=
  base.width.toNat - size ≤ u.toNat ∧ base.height.toNat - size ≤ v.toNat

section Compose

variable {base overlay : RgbaImage}

/-- The loops succeed. -/
theorem loops_painted (hw : overlay.width ≠ 0) (hh : overlay.height ≠ 0) {size : UInt32}
    (hwidth : size.toNat ≤ base.width.toNat) (hheight : size.toNat ≤ base.height.toNat) :
    ∃ result, ((upTo size).product (upTo size)).foldlM
        (overlayPixel overlay size (base.width - size) (base.height - size)) base = some result ∧
      Painted base overlay size (base.width - size) (base.height - size)
        ((upTo size).product (upTo size)) result := by
  refine foldlM_some ⟨rfl, rfl, fun u v => by simp⟩ ?_
  rintro before ⟨y, x⟩ after result heq hpainted
  have hnodup : ((upTo size).product (upTo size)).Nodup :=
    (nodup_upTo size).product (nodup_upTo size)
  have hmem : (y, x) ∈ (upTo size).product (upTo size) := by
    rw [heq]
    simp
  obtain ⟨hy, hx⟩ := List.pair_mem_product.mp hmem
  rw [mem_upTo] at hy hx
  refine hpainted.step ?_ (scaled_lt hx hw) (scaled_lt hy hh) ?_ ?_
  · rw [heq] at hnodup
    exact fun hbefore => (List.nodup_append.mp hnodup).2.2 _ hbefore _ List.mem_cons_self rfl
  · rw [moved_lt hwidth hx]
    omega
  · rw [moved_lt hheight hy]
    omega

/-- Outside of the corner no position of the loops is met. -/
theorem Painted.outside {size : UInt32} {result : RgbaImage}
    (h : Painted base overlay size (base.width - size) (base.height - size)
      ((upTo size).product (upTo size)) result)
    (hwidth : size.toNat ≤ base.width.toNat) (hheight : size.toNat ≤ base.height.toNat)
    {u v : UInt32} (hout : ¬ InCorner base size.toNat u v) :
    result.getPixel u v = base.getPixel u v := by
  rw [h.getPixel, if_neg]
  intro hmem
  obtain ⟨hy, hx⟩ := List.pair_mem_product.mp hmem
  rw [mem_upTo] at hy hx
  have hu := moved_lt hwidth hx
  have hv := moved_lt hheight hy
  rw [UInt32.add_comm, UInt32.sub_add_cancel] at hu hv
  exact hout ⟨by omega, by omega⟩

/-- Every pixel of the result. -/
theorem composeOverlay_spec
    (hne : ¬ (base.width = 0 ∨ base.height = 0 ∨ overlay.width = 0 ∨ overlay.height = 0))
    (hheight : (overlaySize base).toNat ≤ base.height.toNat) :
    ∃ result, composeOverlay base overlay = some (.ok result) ∧
      Painted base overlay (overlaySize base) (base.width - overlaySize base)
        (base.height - overlaySize base)
        ((upTo (overlaySize base)).product (upTo (overlaySize base))) result := by
  have hwidth : (overlaySize base).toNat ≤ base.width.toNat := by
    have hle := overlaySize_le base
    omega
  rw [composeOverlay, if_neg hne]
  by_cases hzero : overlaySize base = 0
  · refine ⟨base, by simp only [hzero, if_true], rfl, rfl, fun u v => ?_⟩
    rw [hzero, if_neg]
    exact fun hmem => List.not_mem_nil (List.pair_mem_product.mp hmem).1
  · simp only [not_or] at hne
    obtain ⟨result, hrun, hpainted⟩ := loops_painted hne.2.2.1 hne.2.2.2 hwidth hheight
    refine ⟨result, ?_, hpainted⟩
    simp only [if_neg hzero, hrun, Option.map_some]

end Compose

/-- The overlay is read in range and painted in its corner only. -/
structure Contained (base overlay : RgbaImage) : Prop where
  source : overlay.width ≠ 0 → overlay.height ≠ 0 → ∀ x ∈ upTo (overlaySize base),
    (sourceX overlay (overlaySize base) x).toNat < overlay.width.toNat ∧
      (sourceY overlay (overlaySize base) x).toNat < overlay.height.toNat
  result : ∃ r, composeOverlay base overlay = some r ∧ ∀ result, r = .ok result →
    result.width = base.width ∧ result.height = base.height ∧
      ∀ u v, ¬ InCorner base (base.width.toNat * 30 / 100) u v →
        result.getPixel u v = base.getPixel u v

theorem composeOverlay_contained (base overlay : RgbaImage)
    (htall : base.width.toNat * 30 / 100 ≤ base.height.toNat) : Contained base overlay := by
  refine ⟨fun hw hh x hx => ?_, ?_⟩
  · rw [mem_upTo] at hx
    exact ⟨scaled_lt hx hw, scaled_lt hx hh⟩
  · have hsize := overlaySize_le base
    by_cases hne : base.width = 0 ∨ base.height = 0 ∨ overlay.width = 0 ∨ overlay.height = 0
    · refine ⟨_, if_pos hne, fun result hok => ?_⟩
      cases hok
    · obtain ⟨result, hrun, hpainted⟩ := composeOverlay_spec hne (by omega)
      refine ⟨_, hrun, fun result' hok => ?_⟩
      cases hok
      refine ⟨hpainted.width, hpainted.height, fun u v hout => ?_⟩
      refine hpainted.outside (by omega) (by omega) fun hin => hout ?_
      exact ⟨Nat.le_trans (Nat.sub_le_sub_left hsize _) hin.1,
        Nat.le_trans (Nat.sub_le_sub_left hsize _) hin.2⟩

/-- The arithmetic of `alpha_over` is sound and the overlay stays in its corner, if and only if both
pixels are transparent or rounding lets no colour of the background gain a step. -/
theorem overlay_compositing (f b : Rgba) (base overlay : RgbaImage) :
    (Sound f b ∧ (base.width.toNat * 30 / 100 ≤ base.height.toNat → Contained base overlay)) ↔
      f[3] = 0 ∧ b[3] = 0 ∨ ∀ i : Fin 4, i ≠ 3 → Rounds f b i := by
  rw [← sound_iff]
  exact and_iff_left (composeOverlay_contained base overlay)

/-- A translucent pixel over an opaque one. -/
theorem overlay_compositing_opaque :
    (channel #v[255, 0, 0, 128] #v[0, 0, 255, 255] 2).toNat ≤ 255 ∧
      ∃ r, composeOverlay ⟨4, 4, fun _ _ => #v[0, 0, 255, 255]⟩
        ⟨4, 4, fun _ _ => #v[255, 0, 0, 128]⟩ = some r := by
  obtain ⟨hsound, hcontained⟩ := (overlay_compositing #v[255, 0, 0, 128] #v[0, 0, 255, 255]
    ⟨4, 4, fun _ _ => #v[0, 0, 255, 255]⟩ ⟨4, 4, fun _ _ => #v[255, 0, 0, 128]⟩).mpr
    (.inr (by decide))
  obtain ⟨r, hr, -⟩ := (hcontained (by decide)).result
  exact ⟨(hsound.colour (by decide) 2 (by decide)).1, r, hr⟩

/-- White over white, both of them nearly transparent: the colour does not fit a byte. -/
theorem alpha_over_truncated :
    let white : Rgba := #v[255, 255, 255, 1]
    (outputAlpha white white).toNat = 1 ∧ (channel white white 0).toNat = 509 ∧
      alphaOver white white = #v[253, 253, 253, 1] := by
  decide +kernel

end Tray
end Client
end Montray
