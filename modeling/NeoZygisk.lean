import NeoZygisk.Lib.Transition
import NeoZygisk.Lib.Selection
import NeoZygisk.Lib.Mask
import NeoZygisk.Lib.Heap
import NeoZygisk.Lib.Bytes
import NeoZygisk.Common.ProcessFlags
import NeoZygisk.Common.MapInfo
import NeoZygisk.Ptracer.Tracee
import NeoZygisk.Ptracer.RemoteCall
import NeoZygisk.Ptracer.Injection
import NeoZygisk.Ptracer.StartupBlock
import NeoZygisk.Ptracer.Resumable
import NeoZygisk.Monitor.Handler
import NeoZygisk.Monitor.Handover
import NeoZygisk.Monitor.Children
import NeoZygisk.Monitor.Rearm
import NeoZygisk.Monitor.Verdict
import NeoZygisk.Unmount.Strategies
import NeoZygisk.Injector.Process
import NeoZygisk.Injector.ModuleApi
import NeoZygisk.Injector.Dispatch
import NeoZygisk.Injector.Lifecycle
import NeoZygisk.Injector.ModuleCode
import NeoZygisk.Injector.Modes
import NeoZygisk.Namespace.System
import NeoZygisk.Namespace.Unshare
import NeoZygisk.Daemon.ModuleIndex
import NeoZygisk.Monitor.Answers
import NeoZygisk.Monitor.Candidates
import NeoZygisk.Monitor.Commands
import NeoZygisk.Monitor.InitTracing
import NeoZygisk.Monitor.Confirmations
import NeoZygisk.Monitor.LateServer
import NeoZygisk.Monitor.ControlSocket
import NeoZygisk.Monitor.Messages
import NeoZygisk.Daemon.Companion
import NeoZygisk.Daemon.OneAnswer
import NeoZygisk.Daemon.Refresh
import NeoZygisk.Daemon.ReadModules
import NeoZygisk.Injector.LinkerTrace
import NeoZygisk.Monitor.Startup
import NeoZygisk.Namespace.Snapshots
import NeoZygisk.Ptracer.Strategies
import NeoZygisk.Monitor.HotInstall
import NeoZygisk.Common.SocketUtils
import NeoZygisk.Ptracer.CallFrame
import NeoZygisk.Ptracer.CompleteWrites
import NeoZygisk.Unmount.Order
import NeoZygisk.Injector.Atexit
import NeoZygisk.Common.ElfImage
import NeoZygisk.Common.ElfLookup
import NeoZygisk.Common.ElfAddress
import NeoZygisk.Injector.Unmapping
import NeoZygisk.Injector.Fossil
import NeoZygisk.Unmount.MountInfoText
import NeoZygisk.Injector.FossilMemory
import NeoZygisk.Injector.AtexitPages
import NeoZygisk.Monitor.CrashLoop
import NeoZygisk.Ptracer.ArgumentBlock
import NeoZygisk.Daemon.MagiskDenylist
import NeoZygisk.Injector.SoInfoRelease
import NeoZygisk.Injector.JniHooks
import NeoZygisk.Ptracer.InstallLib
import NeoZygisk.Injector.Exemptions
import NeoZygisk.Injector.Seccomp
import NeoZygisk.Daemon.Protocol
import NeoZygisk.Monitor.RearmExchange
import NeoZygisk.Injector.JniGenerator
import NeoZygisk.Injector.VirtualMaps
import NeoZygisk.Lib.FormattedInput
import NeoZygisk.Ptracer.MapsText
import NeoZygisk.Monitor.ProcText
import NeoZygisk.Monitor.EventLoop
import NeoZygisk.Daemon.RootSolutions
import NeoZygisk.Daemon.RootDatabase
import NeoZygisk.Injector.SoInfoLayout
import NeoZygisk.Lib.PrefixCode
import NeoZygisk.Monitor.StatusText
import NeoZygisk.Monitor.StatusFile
import NeoZygisk.Injector.PltHooks
