import Mathlib.Logic.Function.Basic
import Mathlib.Tactic.Common

/-!
# The pins of the board

`libraries/hc32_drivers/drv_gpio.c` and the part of `hc32_ll_gpio.c` under it.  Every pin has a
16-bit port control register (PCR); `Gpio` holds them by pin number, `GET_PIN(port, n)` being
`port * 16 + n`.  `GPIO_SetPins` and `GPIO_ResetPins` write the port registers that set and clear
the output latch, which is bit 0 (`POUT`) of the PCR; the pin is driven while bit 1 (`POUTE`) is
set.

Only the outputs are modelled: what is read at an input pin comes from outside.
-/

namespace LitterBox

/-- `PIN_LOW`, `PIN_HIGH` -/
inductive Level where
  | low
  | high
  deriving DecidableEq, Repr

/-- `PIN_MODE_*` -/
inductive PinMode where
  | output
  | input
  | inputPullup
  | inputPulldown
  | outputOd
  deriving DecidableEq, Repr

/-- the PCR of every pin -/
structure Gpio where
  pcr : Nat → BitVec 16

def Gpio.write (pin : Nat) (v : BitVec 16) (g : Gpio) : Gpio := ⟨Function.update g.pcr pin v⟩

/-! ## hc32_ll_gpio.c -/

/-- `stc_gpio_init_t` -/
structure StcGpioInit where
  u16PinState : BitVec 16
  u16PinDir : BitVec 16
  u16PinOutputType : BitVec 16
  u16PinDrv : BitVec 16
  u16Latch : BitVec 16
  u16PullUp : BitVec 16
  u16Invert : BitVec 16
  u16ExtInt : BitVec 16
  u16PinAttr : BitVec 16
  deriving DecidableEq, Repr

def gpioPcrPout : BitVec 16 := 0x0001
def gpioPcrPoute : BitVec 16 := 0x0002
def gpioPcrNod : BitVec 16 := 0x0004
def gpioPcrDrv : BitVec 16 := 0x0030
def gpioPcrPuu : BitVec 16 := 0x0040
def gpioPcrInve : BitVec 16 := 0x0200
def gpioPcrInte : BitVec 16 := 0x1000
def gpioPcrLte : BitVec 16 := 0x4000
def gpioPcrDdis : BitVec 16 := 0x8000

/-- `GPIO_StructInit`: every default value is `0` -/
def gpioStructInit : StcGpioInit where
  u16PinState := 0
  u16PinDir := 0
  u16PinDrv := 0
  u16PinAttr := 0
  u16Latch := 0
  u16PullUp := 0
  u16Invert := 0
  u16ExtInt := 0
  u16PinOutputType := 0

/-- `MODIFY_REG16` -/
def modifyReg16 (reg clrmask setmask : BitVec 16) : BitVec 16 :=
  (reg &&& ~~~clrmask) ||| (setmask &&& clrmask)

def gpioInit (pin : Nat) (stcGpioInit : StcGpioInit) (g : Gpio) : Gpio :=
  let u16PCRVal := stcGpioInit.u16PinState ||| stcGpioInit.u16PinDir |||
    stcGpioInit.u16PinOutputType ||| stcGpioInit.u16PinDrv ||| stcGpioInit.u16PullUp |||
    stcGpioInit.u16Invert ||| stcGpioInit.u16ExtInt ||| stcGpioInit.u16Latch
  let u16PCRMask := gpioPcrPout ||| gpioPcrPoute ||| gpioPcrNod ||| gpioPcrDrv ||| gpioPcrPuu |||
    gpioPcrInve ||| gpioPcrInte ||| gpioPcrLte
  let u16PCRVal := u16PCRVal ||| stcGpioInit.u16PinAttr
  let u16PCRMask := u16PCRMask ||| gpioPcrDdis
  g.write pin (modifyReg16 (g.pcr pin) u16PCRMask u16PCRVal)

def gpioSetPins (pin : Nat) (g : Gpio) : Gpio := g.write pin (g.pcr pin ||| gpioPcrPout)

def gpioResetPins (pin : Nat) (g : Gpio) : Gpio := g.write pin (g.pcr pin &&& ~~~gpioPcrPout)

/-! ## drv_gpio.c -/

/-- `PIN_MAX_NUM` of the HC32F460: the pins up to PH2 -/
def pinMaxNum : Nat := 5 * 16 + 2 + 1

def hc32PinMode (pin : Nat) (mode : PinMode) (g : Gpio) : Gpio :=
  if pinMaxNum ≤ pin then g
  else
    let stcGpioInit := gpioStructInit
    let stcGpioInit :=
      match mode with
      | .output => { stcGpioInit with u16PinDir := gpioPcrPoute, u16PinOutputType := 0 }
      | .input => { stcGpioInit with u16PinDir := 0 }
      | .inputPullup => { stcGpioInit with u16PinDir := 0, u16PullUp := gpioPcrPuu }
      | .inputPulldown => { stcGpioInit with u16PinDir := 0, u16PullUp := 0 }
      | .outputOd => { stcGpioInit with u16PinDir := gpioPcrPoute, u16PinOutputType := gpioPcrNod }
    gpioInit pin stcGpioInit g

def hc32PinWrite (pin : Nat) (value : Level) (g : Gpio) : Gpio :=
  if pin < pinMaxNum then
    if value = .low then gpioResetPins pin g else gpioSetPins pin g
  else g

/-! ## driven levels -/

/-- the level driven at a pin, if it is an output -/
def Gpio.driven (g : Gpio) (pin : Nat) : Option Level :=
  if (g.pcr pin).getLsbD 1 then some (if (g.pcr pin).getLsbD 0 then .high else .low) else none

theorem Gpio.write_pcr_self (g : Gpio) (pin : Nat) (v : BitVec 16) :
    (g.write pin v).pcr pin = v := by
  unfold Gpio.write
  exact Function.update_self pin v g.pcr

theorem Gpio.write_pcr_of_ne (g : Gpio) {pin q : Nat} (v : BitVec 16) (h : q ≠ pin) :
    (g.write pin v).pcr q = g.pcr q := by
  unfold Gpio.write
  exact Function.update_of_ne h v g.pcr

theorem Gpio.driven_congr {g g' : Gpio} {pin : Nat} (h : g'.pcr pin = g.pcr pin) :
    g'.driven pin = g.driven pin := by
  unfold Gpio.driven
  rw [h]

/-- a write reaches its own pin only -/
theorem hc32PinWrite_driven_of_ne (g : Gpio) {pin q : Nat} (v : Level) (h : q ≠ pin) :
    (hc32PinWrite pin v g).driven q = g.driven q := by
  apply Gpio.driven_congr
  unfold hc32PinWrite gpioResetPins gpioSetPins
  split
  · split
    · exact g.write_pcr_of_ne _ h
    · exact g.write_pcr_of_ne _ h
  · rfl

/-- a pin is configured by itself -/
theorem hc32PinMode_driven_of_ne (g : Gpio) {pin q : Nat} (mode : PinMode) (h : q ≠ pin) :
    (hc32PinMode pin mode g).driven q = g.driven q := by
  apply Gpio.driven_congr
  unfold hc32PinMode gpioInit
  split
  · rfl
  · exact g.write_pcr_of_ne _ h

/-- a write to an output sets its level -/
theorem hc32PinWrite_driven_self (g : Gpio) {pin : Nat} (v : Level) (hp : pin < pinMaxNum)
    (h : g.driven pin ≠ none) : (hc32PinWrite pin v g).driven pin = some v := by
  have h1 : (g.pcr pin).getLsbD 1 = true := by
    by_contra hb
    exact h (if_neg hb)
  unfold hc32PinWrite gpioResetPins gpioSetPins Gpio.driven
  rw [if_pos hp]
  cases v with
  | low =>
    rw [if_pos rfl, g.write_pcr_self]
    simp [h1, gpioPcrPout]
  | high =>
    rw [if_neg (show ¬ Level.high = Level.low from nofun), g.write_pcr_self]
    simp [h1, gpioPcrPout]

/-- **configuring a pin as output drives it low**, whatever it was before -/
theorem hc32PinMode_output (g : Gpio) {pin : Nat} (hp : pin < pinMaxNum) :
    (hc32PinMode pin .output g).driven pin = some .low := by
  unfold hc32PinMode gpioInit Gpio.driven
  rw [if_neg (Nat.not_le.mpr hp), g.write_pcr_self]
  unfold modifyReg16
  simp [gpioStructInit, gpioPcrPout, gpioPcrPoute, gpioPcrNod, gpioPcrDrv, gpioPcrPuu, gpioPcrInve,
    gpioPcrInte, gpioPcrLte, gpioPcrDdis]

end LitterBox
