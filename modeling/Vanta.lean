import Vanta.Mm.FileAccess
import Vanta.Mm.Placement
import Vanta.Mm.Protection
import Vanta.Mm.InitialStack
import Vanta.Mm.Walk
import Vanta.Mm.SwapBooks
import Vanta.Fs.Lexical
import Vanta.Fs.TmpfsRun
import Vanta.Fs.TmpfsTree
import Vanta.Fs.DentryBound
import Vanta.Fs.Mounting
import Vanta.Fs.RedoxDisk
import Vanta.Fs.VantaFsRun
import Vanta.Memory.References
import Vanta.Memory.Coalesce
import Vanta.Net.Dhcp
import Vanta.Net.SendAccounting
import Vanta.Net.Lifecycle
import Vanta.Signal.Safety
import Vanta.Sched.ChildWakeup
import Vanta.Sched.EndOfFile
import Vanta.Sched.WaitOnce
import Vanta.Syscall.Blocking
import Vanta.Syscall.Spawn
import Vanta.Io.EventFd
import Vanta.Io.Terminal
import Vanta.Io.Pairs
import Vanta.Io.Ready
import Vanta.Io.UnixSocket
import Vanta.Io.Virtio
import Vanta.Timer.Run
import Vanta.Sched.Privilege
import Vanta.Sched.Fairness
