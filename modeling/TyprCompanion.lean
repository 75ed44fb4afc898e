import TyprCompanion.Core.Program
import TyprCompanion.Core.Regex
import TyprCompanion.Core.Mutex
import TyprCompanion.Core.Overlap
import TyprCompanion.Core.FileSystem
import TyprCompanion.Core.HostFiles
import TyprCompanion.Core.CaseInsensitive
import TyprCompanion.Js.Text
import TyprCompanion.Js.Json
import TyprCompanion.Js.Path
import TyprCompanion.Js.Date
import TyprCompanion.Compile.ProjectFiles
import TyprCompanion.Compile.CompileRequest
import TyprCompanion.Compile.MountInfo
import TyprCompanion.LivePreview.WsProtocol
import TyprCompanion.Compile.Charges
import TyprCompanion.LivePreview.FinalBuild
import TyprCompanion.LivePreview.Session
import TyprCompanion.LivePreview.Moves
import TyprCompanion.LivePreview.Steps
import TyprCompanion.LivePreview.Revisions
import TyprCompanion.LivePreview.Coalescing
import TyprCompanion.LivePreview.Convergence
import TyprCompanion.LivePreview.PublicationProtocol
import TyprCompanion.LivePreview.Publication
import TyprCompanion.LivePreview.ProtocolLines
import TyprCompanion.LivePreview.Positions
import TyprCompanion.LivePreview.RangeErrors
import TyprCompanion.LivePreview.ChildProcess
import TyprCompanion.LivePreview.StaleSnapshots
import TyprCompanion.LivePreview.ChildDeath
import TyprCompanion.LivePreview.RenderCache
import TyprCompanion.LivePreview.Freshness
import TyprCompanion.LivePreview.Enumeration
import TyprCompanion.Core.SizedMap
import TyprCompanion.Js.Base64
import TyprCompanion.Workspace.Path
import TyprCompanion.Compile.Materialize
import TyprCompanion.Compile.ProjectFidelity
import TyprCompanion.Workspace.Store
import TyprCompanion.Workspace.Tree
import TyprCompanion.Workspace.CompareAndSwap
import TyprCompanion.Workspace.Confinement
import TyprCompanion.Workspace.Quota
import TyprCompanion.Core.PromiseChain
import TyprCompanion.Management.StateFile
import TyprCompanion.Management.AccessStore
import TyprCompanion.Management.ProviderManager
import TyprCompanion.Management.Reopening
import TyprCompanion.Management.Download
import TyprCompanion.Management.FailedInstalls
import TyprCompanion.Management.InstallJobs
import TyprCompanion.Management.AccessRuns
import TyprCompanion.Management.AccessLog
import TyprCompanion.Management.ApiKeys
import TyprCompanion.Management.FailedCalls
import TyprCompanion.Management.Recovery
import TyprCompanion.Management.Authenticator
import TyprCompanion.Management.Lockout
import TyprCompanion.Management.SessionLifetime
import TyprCompanion.Server.Http
import TyprCompanion.Server.CompanionServer
import TyprCompanion.Server.ServiceGate
import TyprCompanion.Server.CrossOrigin
import TyprCompanion.Server.Responses
import TyprCompanion.Server.ManagementServer
import TyprCompanion.Server.ManagementGate
import TyprCompanion.Compile.SandboxPolicy
import TyprCompanion.Compile.NativeProcess
import TyprCompanion.Compile.TexPackageManager
import TyprCompanion.Compile.MissingFiles
import TyprCompanion.Compile.PackageResolution
import TyprCompanion.Compile.CompileProject
import TyprCompanion.Compile.Arguments
import TyprCompanion.Compile.TexRuntime
import TyprCompanion.Compile.SandboxLauncher
import TyprCompanion.Server.WebSocketCredentials
import TyprCompanion.Compile.Synctex
import TyprCompanion.Management.Activity
import TyprCompanion.Workspace.AtomicWrite
import TyprCompanion.Workspace.CaseFolding
import TyprCompanion.Workspace.FoldedPrograms
import TyprCompanion.Workspace.ReservedNames
import TyprCompanion.LivePreview.AnswerOrder
import TyprCompanion.Server.LiveSessions
import TyprCompanion.Server.Compilations
import TyprCompanion.Workspace.ConcurrentList
import TyprCompanion.Compile.CompileOutput
import TyprCompanion.Compile.Isolation
