import Motorball.Library.Transducer
import Motorball.Library.Framing
import Motorball.Library.Crc
import Motorball.Library.BitLinear
import Motorball.Library.Xorshift
import Motorball.Library.Arith
import Motorball.Library.Scalar
import Motorball.Library.Exact
import Motorball.Library.Decimal
import Motorball.Uno.PacketParser
import Motorball.Uno.Firmware
import Motorball.Server.Clock
import Motorball.Server.Rng
import Motorball.Server.Countdown
import Motorball.Server.System
import Motorball.Server.Lifecycle
import Motorball.Server.MotorLaws
import Motorball.Server.StatusLaws
import Motorball.Server.Remaining
import Motorball.Server.Schedule
import Motorball.Server.Configured
import Motorball.Server.Poison
import Motorball.Server.Aftermath
import Motorball.Server.HoldToStart
import Motorball.Server.Controller
import Motorball.Server.Controls
import Motorball.Server.Inputs
import Motorball.Server.Isolation
import Motorball.Server.HandsOff
import Motorball.Server.MouseReader
import Motorball.Server.RngLaws
import Motorball.Server.ChaosLaws
import Motorball.Server.DriftLaws
import Motorball.Server.Pong
import Motorball.Server.PongField
import Motorball.Server.PongTurn
import Motorball.Server.PongRally
import Motorball.Server.PongPaddle
import Motorball.Server.PongPace
import Motorball.Server.PongMirror
import Motorball.Server.Oled
import Motorball.Server.Drawing
import Motorball.Server.UnoSerial
import Motorball.Link.Session
import Motorball.Link.Resync
import Motorball.Link.BitErrors
import Motorball.Link.Chain
import Motorball.Link.ServoLine
import Motorball.Link.Steering
import Motorball.Esp32.WifiInputs
import Motorball.Esp32.MainLoop
import Motorball.Link.FailSafe
import Motorball.Link.InGames
