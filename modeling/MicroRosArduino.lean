import MicroRosArduino.Foundation.CInt
import MicroRosArduino.Foundation.SampledCounter
import MicroRosArduino.Foundation.PollLoop
import MicroRosArduino.Foundation.PacketQueue
import MicroRosArduino.Foundation.CounterWait
import MicroRosArduino.Foundation.CallOut
import MicroRosArduino.Foundation.Printf
import MicroRosArduino.Clock
import MicroRosArduino.ClockRuns
import MicroRosArduino.ClockLoss
import MicroRosArduino.BoardClock
import MicroRosArduino.Rcl
import MicroRosArduino.Platform
import MicroRosArduino.Socket
import MicroRosArduino.Bench
import MicroRosArduino.Transports
import MicroRosArduino.ReadLength
import MicroRosArduino.ReadQueue
import MicroRosArduino.SendOutcomes
import MicroRosArduino.SentDatagrams
import MicroRosArduino.Session
import MicroRosArduino.WifiWait
import MicroRosArduino.WifiTimeout
import MicroRosArduino.EthernetWait
import MicroRosArduino.TimedReads
import MicroRosArduino.SerialTransport
import MicroRosArduino.SerialSession
import MicroRosArduino.Registration
import MicroRosArduino.Reconnection.Sketch
import MicroRosArduino.Reconnection.World
import MicroRosArduino.Reconnection.Entities
import MicroRosArduino.Reconnection.Turn
import MicroRosArduino.Reconnection.BenchWorld
import MicroRosArduino.Reconnection.Safety
import MicroRosArduino.Reconnection.Response
import MicroRosArduino.Sketches.Checked
import MicroRosArduino.Sketches.Serving
import MicroRosArduino.Sketches.TimeSync
import MicroRosArduino.Sketches.TfPublisher
import MicroRosArduino.Sketches.ImuMl
