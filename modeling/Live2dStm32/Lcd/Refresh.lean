import Live2dStm32.Kernel.Semaphore
import Live2dStm32.Lib.Tiling
import Mathlib.Algebra.Group.Nat.Defs

/-
  The 8080 LCD driver (drivers/drv_lcd_8080.c, drivers/lcd_port.h): how
  `drv_lcd_8080_hw_init` encodes the transfer count as (blocks, last size), and how the
  RTGRAPHIC_CTRL_RECT_UPDATE loop of `drv_lcd_control` decodes it.

  `refreshPartition_iff`: the transfers of one refresh cut the framebuffer exactly when the
  transfer count is at least 65535. Below that the init code sets its minimum of one block and
  then adds another for the remainder, so the first transfer already has 65535 elements.
-/

namespace Live2dStm32.Lcd

open Live2dStm32.Kernel Live2dStm32.Lib

/-! ## The panel -/

/-- LCD_DATA_BUS_WIDTH: the driver tells 16 and 8 from everything else, which it drives by
    words. -/
inductive LcdDataBusWidth where
  | w8
  | w16
  | w32
  deriving DecidableEq, Repr

def LcdDataBusWidth.bits : LcdDataBusWidth → Nat
  | .w8 => 8
  | .w16 => 16
  | .w32 => 32

/-- The settings of lcd_port.h. `bufFits`: the framebuffer is an object of the 32-bit address
    space. -/
structure LcdPort where
  lcdWidth : Nat
  lcdHeight : Nat
  lcdPixelFormat : Nat
  lcdPixelSizeByte : Nat
  lcdDataBusWidth : LcdDataBusWidth
  bufFits : lcdWidth * lcdHeight * lcdPixelSizeByte < 2 ^ 32

namespace LcdPort

variable (port : LcdPort)

def lcdPixelNum : Nat := port.lcdWidth * port.lcdHeight

def lcdBufSize : Nat := port.lcdPixelNum * port.lcdPixelSizeByte

/-- Bytes of one DMA element, `LCD_DATA_BUS_WIDTH / 8`. -/
def elemBytes : Nat := port.lcdDataBusWidth.bits / 8

def lcdNumOfTx : Nat := port.lcdBufSize / port.elemBytes

theorem lcdNumOfTx_lt : port.lcdNumOfTx < 2 ^ 32 :=
  Nat.lt_of_le_of_lt (Nat.div_le_self _ _) port.bufFits

/-- `n` elements from the start of the framebuffer stay inside it as long as
    `n ≤ LCD_NUM_OF_TX`. -/
theorem elems_inside {n : Nat} (h : n ≤ port.lcdNumOfTx) :
    n * port.elemBytes ≤ port.lcdBufSize :=
  Nat.le_trans (Nat.mul_le_mul_right _ h) (Nat.div_mul_le_self _ _)

end LcdPort

/-! ## The device -/

/-- `struct rt_device_graphic_info`, less `pitch`, which the driver leaves at 0. -/
structure GraphicInfo where
  pixelFormat : BitVec 8
  bitsPerPixel : BitVec 8
  width : BitVec 16
  height : BitVec 16
  framebuffer : BitVec 32
  deriving DecidableEq, Repr

/-- `struct drv_lcd_device`. One thread, `()`, uses the device. -/
structure DrvLcdDevice where
  lcdInfo : GraphicInfo
  lcdLock : RtSemaphore Unit
  dmaTxBlkNum : BitVec 32
  dmaTxLastBlkSize : BitVec 32
  deriving DecidableEq, Repr

/-- The refresh fields `drv_lcd_8080_hw_init` computes from LCD_NUM_OF_TX: number of blocks
    and size of the last one. -/
def dmaTxBlocks (lcdNumOfTx : Nat) : BitVec 32 × BitVec 32 :=
  let lcdDmaTxBlkNum := BitVec.ofNat 32 (lcdNumOfTx / 0xffff)
  let lcdDmaTxLastBlkSize := BitVec.ofNat 32 (lcdNumOfTx % 0xffff)
  let lcdDmaTxBlkNum := if lcdDmaTxBlkNum = 0 then lcdDmaTxBlkNum + 1 else lcdDmaTxBlkNum
  if lcdDmaTxLastBlkSize ≠ 0 then (lcdDmaTxBlkNum + 1, lcdDmaTxLastBlkSize)
  else (lcdDmaTxBlkNum, 0xffff)

/-- `drv_lcd_8080_hw_init` as far as `_lcd` goes. The pixel formats are enumerators, so both
    sides of the `#if` on LCD_PIXEL_FORMAT read 0 and the RGB565 branch is always taken. -/
def drvLcd8080HwInit (port : LcdPort) (framebuffer : BitVec 32) : DrvLcdDevice where
  lcdInfo :=
    { pixelFormat := BitVec.ofNat 8 port.lcdPixelFormat
      bitsPerPixel := 16
      width := BitVec.ofNat 16 port.lcdWidth
      height := BitVec.ofNat 16 port.lcdHeight
      framebuffer := framebuffer }
  lcdLock := rtSemInit 0
  dmaTxBlkNum := (dmaTxBlocks port.lcdNumOfTx).1
  dmaTxLastBlkSize := (dmaTxBlocks port.lcdNumOfTx).2

/-! ## The refresh loop -/

/-- One pass of the loop at counter `i`: the (start index, length) passed to
    `HAL_DMA_Start_IT`, and the next `dma_tx_start_pos`. -/
def rectUpdatePass (lastBlkSize : BitVec 32) (i : Nat) (pos : BitVec 32) :
    (Nat × Nat) × BitVec 32 :=
  if i = 1 then ((pos.toNat, lastBlkSize.toNat), pos)
  else ((pos.toNat, 0xffff), pos + 0xffff)

/-- The transfers of the loop from counter `i` down to 1, every start accepted. -/
def rectUpdateFrom (lastBlkSize : BitVec 32) : Nat → BitVec 32 → List (Nat × Nat)
  | 0, _ => []
  | i + 1, pos =>
    let pass := rectUpdatePass lastBlkSize (i + 1) pos
    pass.1 :: rectUpdateFrom lastBlkSize i pass.2

/-- The counter is an `int`: a block number with the top bit set gives no pass at all. -/
def rectUpdateCount (blkNum : BitVec 32) : Nat := blkNum.toInt.toNat

/-- RTGRAPHIC_CTRL_RECT_UPDATE: the transfers of one refresh. -/
def rectUpdate (blkNum lastBlkSize : BitVec 32) : List (Nat × Nat) :=
  rectUpdateFrom lastBlkSize (rectUpdateCount blkNum) 0

/-- The transfers of one refresh of the device. -/
def drvLcdRefresh (lcd : DrvLcdDevice) : List (Nat × Nat) :=
  rectUpdate lcd.dmaTxBlkNum lcd.dmaTxLastBlkSize

/-! ## The loop tiles -/

/-- `i` full blocks and a last one of `last` elements tile, as long as the position does not
    wrap. Induction on the counter; only the last pass has `i = 1`. -/
theorem rectUpdateFrom_tiles {last : BitVec 32} (h1 : 1 ≤ last.toNat) (h2 : last.toNat ≤ 0xffff)
    (i : Nat) (pos : BitVec 32) (hfit : pos.toNat + 0xffff * i < 2 ^ 32) :
    Tiles 0xffff pos.toNat (rectUpdateFrom last (i + 1) pos)
      (pos.toNat + 0xffff * i + last.toNat) := by
  induction i generalizing pos with
  | zero =>
    simp [rectUpdateFrom, rectUpdatePass, Tiles, h1, h2]
  | succ i ih =>
    have hpos : (pos + 0xffff).toNat = pos.toNat + 0xffff := by
      rw [BitVec.toNat_add]
      change (pos.toNat + 0xffff) % 2 ^ 32 = _
      omega
    have ht := ih (pos + 0xffff) (by omega)
    rw [hpos] at ht
    unfold rectUpdateFrom rectUpdatePass
    rw [if_neg (by omega)]
    refine ⟨rfl, Nat.succ_pos _, Nat.le_refl _, ?_⟩
    rw [show pos.toNat + 0xffff * (i + 1) + last.toNat = pos.toNat + 0xffff + 0xffff * i
      + last.toNat by omega]
    exact ht

theorem rectUpdateCount_ofNat {n : Nat} (h : n < 2 ^ 31) :
    rectUpdateCount (BitVec.ofNat 32 n) = n := by
  unfold rectUpdateCount
  rw [BitVec.toInt_eq_toNat_of_lt (by rw [BitVec.toNat_ofNat]; omega), BitVec.toNat_ofNat]
  omega

/-! ## What the init code encodes -/

/-- From 65535 on, the count is `q` full blocks and a last one in 1..65535. -/
theorem dmaTxBlocks_of_le {n : Nat} (hle : 0xffff ≤ n) (hlt : n < 2 ^ 32) :
    ∃ q last : Nat, dmaTxBlocks n = (BitVec.ofNat 32 (q + 1), BitVec.ofNat 32 last) ∧
      1 ≤ last ∧ last ≤ 0xffff ∧ 0xffff * q + last = n := by
  have hblk : BitVec.ofNat 32 (n / 0xffff) ≠ 0 := by
    intro h
    have := congrArg BitVec.toNat h
    rw [BitVec.toNat_ofNat] at this
    change n / 0xffff % 2 ^ 32 = 0 at this
    omega
  unfold dmaTxBlocks
  dsimp only
  rw [if_neg hblk]
  by_cases hr : n % 0xffff = 0
  · -- the remainder is 0: the last block is a full one
    rw [hr, if_neg (by decide)]
    refine ⟨n / 0xffff - 1, 0xffff, ?_, by omega, by omega, by omega⟩
    rw [Nat.sub_add_cancel (by omega)]
    rfl
  · have hlast : BitVec.ofNat 32 (n % 0xffff) ≠ 0 := by
      intro h
      have := congrArg BitVec.toNat h
      rw [BitVec.toNat_ofNat] at this
      change n % 0xffff % 2 ^ 32 = 0 at this
      omega
    rw [if_pos hlast]
    refine ⟨n / 0xffff, n % 0xffff, ?_, by omega, by omega, by omega⟩
    rw [BitVec.ofNat_add]
    rfl

/-- Below 65535 the count becomes two blocks: a full one, then the `n` elements. -/
theorem dmaTxBlocks_of_lt {n : Nat} (hpos : 0 < n) (hlt : n < 0xffff) :
    dmaTxBlocks n = (2, BitVec.ofNat 32 n) := by
  have hlast : BitVec.ofNat 32 n ≠ 0 := by
    intro h
    have := congrArg BitVec.toNat h
    rw [BitVec.toNat_ofNat] at this
    change n % 2 ^ 32 = 0 at this
    omega
  unfold dmaTxBlocks
  rw [Nat.div_eq_of_lt hlt, Nat.mod_eq_of_lt hlt]
  simp only [if_pos hlast]
  rfl

/-! ## The refresh partition -/

/-- The transfers of one refresh cut `[0, LCD_NUM_OF_TX)` into consecutive blocks of 1..65535
    elements, and every element read lies inside the framebuffer. -/
def RefreshPartition (port : LcdPort) (txs : List (Nat × Nat)) : Prop :=
  Tiles 0xffff 0 txs port.lcdNumOfTx ∧
    ∀ tx ∈ txs, (tx.1 + tx.2) * port.elemBytes ≤ port.lcdBufSize

/-- A partition sends every element exactly once. -/
theorem RefreshPartition.once {port : LcdPort} {txs : List (Nat × Nat)}
    (h : RefreshPartition port txs) {x : Nat} (hx : x < port.lcdNumOfTx) :
    txs.countP (covers x) = 1 :=
  tiles_countP h.1 (Nat.zero_le x) hx

theorem refresh_tiles {n : Nat} (hle : 0xffff ≤ n) (hlt : n < 2 ^ 32) :
    Tiles 0xffff 0 (rectUpdate (dmaTxBlocks n).1 (dmaTxBlocks n).2) n := by
  obtain ⟨q, last, he, h1, h2, hsum⟩ := dmaTxBlocks_of_le hle hlt
  have hl : (BitVec.ofNat 32 last).toNat = last := by
    rw [BitVec.toNat_ofNat]
    omega
  have h0 : (0 : BitVec 32).toNat = 0 := rfl
  have ht := rectUpdateFrom_tiles (by rw [hl]; exact h1) (by rw [hl]; exact h2) q 0 (by omega)
  rw [hl, h0, Nat.zero_add, hsum] at ht
  rw [he, rectUpdate, rectUpdateCount_ofNat (by omega)]
  exact ht

/-- For every panel: the transfers of a refresh partition the framebuffer exactly when there
    are at least 65535 of them. -/
theorem refreshPartition_iff (port : LcdPort) (framebuffer : BitVec 32)
    (hpos : 0 < port.lcdNumOfTx) :
    RefreshPartition port (drvLcdRefresh (drvLcd8080HwInit port framebuffer)) ↔
      0xffff ≤ port.lcdNumOfTx := by
  constructor
  · intro h
    by_contra hlt
    have hlt : port.lcdNumOfTx < 0xffff := Nat.lt_of_not_le hlt
    -- the first transfer alone is longer than the whole interval
    have hmem : (0, 0xffff) ∈ drvLcdRefresh (drvLcd8080HwInit port framebuffer) := by
      simp only [drvLcdRefresh, drvLcd8080HwInit, dmaTxBlocks_of_lt hpos hlt]
      exact List.mem_cons_self
    have := tiles_bounds h.1 hmem
    omega
  · intro hle
    have ht := refresh_tiles hle port.lcdNumOfTx_lt
    exact ⟨ht, fun tx htx => port.elems_inside (tiles_bounds ht htx).2⟩

/-- The shipped panel, 320 x 480 pixels of 2 bytes over a 16-bit bus. -/
def shippedPort : LcdPort := ⟨320, 480, 5, 2, .w16, by decide⟩

theorem refreshPartition_iff_shipped :
    0 < shippedPort.lcdNumOfTx ∧
      RefreshPartition shippedPort (drvLcdRefresh (drvLcd8080HwInit shippedPort 0)) :=
  ⟨by decide, (refreshPartition_iff shippedPort 0 (by decide)).mpr (by decide)⟩

/-- A 128 x 160 panel has 20480 transfers: the driver sends 65535 elements from index 0 and
    20480 from index 65535, far past the end of the framebuffer. -/
theorem refreshPartition_fails_128x160 :
    let port : LcdPort := ⟨128, 160, 5, 2, .w16, by decide⟩
    0 < port.lcdNumOfTx ∧
      drvLcdRefresh (drvLcd8080HwInit port 0) = [(0, 65535), (65535, 20480)] ∧
      ¬ RefreshPartition port (drvLcdRefresh (drvLcd8080HwInit port 0)) := by
  refine ⟨by decide, by decide, fun h => ?_⟩
  exact absurd h.1 (by decide)

end Live2dStm32.Lcd
