import EmbeddedDrivers.Loop
import EmbeddedDrivers.Emission
import EmbeddedDrivers.LineBuffer
import EmbeddedDrivers.Memory
import EmbeddedDrivers.Strobe
import EmbeddedDrivers.Transition
import EmbeddedDrivers.Stores
import EmbeddedDrivers.Hd44780
import EmbeddedDrivers.LcdDriver
import EmbeddedDrivers.LcdReceiver
import EmbeddedDrivers.LcdInit
import EmbeddedDrivers.LcdWrite
import EmbeddedDrivers.LcdSerial
import EmbeddedDrivers.LcdOverlap
import EmbeddedDrivers.LcdLifecycle
import EmbeddedDrivers.LcdRendering
import EmbeddedDrivers.LcdClients
import EmbeddedDrivers.Raster
import EmbeddedDrivers.Ssd1306
import EmbeddedDrivers.OledDriver
import EmbeddedDrivers.OledArguments
import EmbeddedDrivers.OledDrawing
import EmbeddedDrivers.OledClear
import EmbeddedDrivers.OledFraming
import EmbeddedDrivers.OledPixels
import EmbeddedDrivers.OledWindows
import EmbeddedDrivers.OledProbe
import EmbeddedDrivers.Gpio
import EmbeddedDrivers.ButtonDriver
import EmbeddedDrivers.ButtonCounter
import EmbeddedDrivers.ButtonRemoval
import EmbeddedDrivers.LedBlink
import EmbeddedDrivers.LcdSystem
import EmbeddedDrivers.OledCanvas
import EmbeddedDrivers.OledRecovery
import EmbeddedDrivers.OledLosses
import EmbeddedDrivers.Timing
import EmbeddedDrivers.LcdTiming
import EmbeddedDrivers.LedRounds
import EmbeddedDrivers.Dialogue
import EmbeddedDrivers.UserPrograms
import EmbeddedDrivers.UserOled
import EmbeddedDrivers.ButtonBoards
import EmbeddedDrivers.LcdShared
