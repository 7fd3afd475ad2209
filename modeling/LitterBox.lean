import LitterBox.Lib.Clock
import LitterBox.Lib.Runs
import LitterBox.Lib.Debounce
import LitterBox.Lib.Decimal
import LitterBox.Lib.Json
import LitterBox.Lib.Search
import LitterBox.Lib.Format
import LitterBox.Lib.Ring
import LitterBox.Lib.Stable
import LitterBox.Lib.Segments
import LitterBox.Lib.LowBit
import LitterBox.Lib.Robin
import LitterBox.Fsm.Model
import LitterBox.Fsm.Modes
import LitterBox.Fsm.Log
import LitterBox.Fsm.Enter
import LitterBox.Fsm.Refine
import LitterBox.Fsm.Motor
import LitterBox.Board.Gpio
import LitterBox.Logic.Model
import LitterBox.Logic.Levels
import LitterBox.Logic.Call
import LitterBox.Logic.Reach
import LitterBox.Logic.Interlock
import LitterBox.Logic.Requests
import LitterBox.Logic.Hall
import LitterBox.Logic.Timing
import LitterBox.Logic.Window
import LitterBox.Logic.StartUp
import LitterBox.Fsm.Context
import LitterBox.Logic.Shell
import LitterBox.Logic.Budget
import LitterBox.Logic.Bridge
import LitterBox.Logic.Getters
import LitterBox.Logic.Debounce
import LitterBox.Logic.Uses
import LitterBox.Logic.Progress
import LitterBox.Logic.Alike
import LitterBox.Logic.Starts
import LitterBox.Net.Snapshot
import LitterBox.Net.Session
import LitterBox.Net.Cadence
import LitterBox.Net.Remote
import LitterBox.Net.Message
import LitterBox.Net.Telemetry
import LitterBox.Net.Command
import LitterBox.Kernel.Ipc
import LitterBox.Kernel.Timer
import LitterBox.Kernel.Ffs
import LitterBox.Kernel.Scheduler
import LitterBox.Kernel.Mutex
import LitterBox.Kernel.Turns
import LitterBox.Kernel.Semaphore
import LitterBox.Kernel.Mailbox
import LitterBox.Kernel.Heap
import LitterBox.Task.Pipeline
