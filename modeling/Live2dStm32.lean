import Live2dStm32.Lib.Machine
import Live2dStm32.Lib.Tiling
import Live2dStm32.Lib.Bits
import Live2dStm32.Lib.Cache
import Live2dStm32.Kernel.Semaphore
import Live2dStm32.Kernel.Event
import Live2dStm32.Hal.Tick
import Live2dStm32.Hal.Dma
import Live2dStm32.Hal.Gpio
import Live2dStm32.Lcd.Refresh
import Live2dStm32.Lcd.Handshake
import Live2dStm32.Gpio.Pins
import Live2dStm32.Gpio.Irq
import Live2dStm32.Gpio.Nvic
import Live2dStm32.Gpio.NonInterference
import Live2dStm32.Gpio.Delivery
import Live2dStm32.Sdio.Command
import Live2dStm32.Sdio.Block
import Live2dStm32.Sdio.Host
import Live2dStm32.Sdio.Observed
import Live2dStm32.Sdio.Classify
import Live2dStm32.Sdio.Attribution
import Live2dStm32.Sdio.Phase
import Live2dStm32.Sdio.CacheBuf
import Live2dStm32.Lib.Paged
import Live2dStm32.Lib.Gregorian
import Live2dStm32.App.HotPlug
import Live2dStm32.App.Loader
import Live2dStm32.Wdt.Control
import Live2dStm32.Usb.Pipes
import Live2dStm32.Spi.Xfer
import Live2dStm32.Spi.Ranges
import Live2dStm32.Uart.RxDma
import Live2dStm32.Eth.Ring
import Live2dStm32.Eth.Tx
import Live2dStm32.Eth.Rx
import Live2dStm32.Libc.Time
import Live2dStm32.Hal.Rtc
import Live2dStm32.Rtc.Control
import Live2dStm32.Lib.Quantize
import Live2dStm32.Tim.Clock
import Live2dStm32.Pwm.Control
import Live2dStm32.Pwm.RoundTrip
import Live2dStm32.Hwtimer.Control
import Live2dStm32.Sdio.IoCfg
import Live2dStm32.App.Content
import Live2dStm32.Lib.Loop
import Live2dStm32.Usb.Xfer
import Live2dStm32.Lib.DownCounter
import Live2dStm32.Delay.Systick
import Live2dStm32.Delay.UsDelay
import Live2dStm32.Delay.Udelay
import Live2dStm32.Hal.Mpu
import Live2dStm32.Mpu.Init
import Live2dStm32.Gpio.Validation
import Live2dStm32.Qspi.Init
import Live2dStm32.Lib.TwoWire
import Live2dStm32.I2c.Bus
import Live2dStm32.I2c.Gpio
import Live2dStm32.I2c.Unlock
import Live2dStm32.Lib.Ring
import Live2dStm32.Serial.RxFifo
import Live2dStm32.Serial.DmaFifo
import Live2dStm32.Serial.DmaRx
import Live2dStm32.Serial.DataQueue
import Live2dStm32.Serial.DmaTx
import Live2dStm32.Serial.Ringbuffer
import Live2dStm32.Lib.WireCode
import Live2dStm32.I2c.BitOps
import Live2dStm32.I2c.Levels
import Live2dStm32.I2c.Talk
import Live2dStm32.I2c.Bytes
import Live2dStm32.I2c.Transfer
import Live2dStm32.I2c.Frame
import Live2dStm32.Lib.Buckets
import Live2dStm32.Lib.Insert
import Live2dStm32.Kernel.Scheduler
import Live2dStm32.Kernel.Threads
import Live2dStm32.Kernel.Blocking
import Live2dStm32.Kernel.Locks
import Live2dStm32.Lib.Inheritance
import Live2dStm32.Kernel.Inheritance
import Live2dStm32.Kernel.Timer
import Live2dStm32.Kernel.Kservice
import Live2dStm32.Kernel.Mempool
import Live2dStm32.Kernel.Mailbox
import Live2dStm32.Kernel.MessageQueue
