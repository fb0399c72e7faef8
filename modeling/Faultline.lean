import Faultline.Bounds
import Faultline.ByteOrder
import Faultline.ByteStream
import Faultline.Config
import Faultline.ConfigAddress
import Faultline.ConfigCodec
import Faultline.ConfigLayout
import Faultline.ConfigLoad
import Faultline.ConfigNormal
import Faultline.ConfigProxies
import Faultline.ConfigRoundTrip
import Faultline.ConfigRules
import Faultline.ConfigSchema
import Faultline.ConfigSources
import Faultline.ConfigStrict
import Faultline.ConfigTLS
import Faultline.ConfigValid
import Faultline.ConfigValidate
import Faultline.ConfigYaml
import Faultline.ConnectionPools
import Faultline.DocumentCompare
import Faultline.Draft
import Faultline.DurableFile
import Faultline.Engine
import Faultline.EngineLaw
import Faultline.EngineReplay
import Faultline.EngineRuns
import Faultline.Executable
import Faultline.Executors
import Faultline.FaultBody
import Faultline.FaultForm
import Faultline.FilePath
import Faultline.FixedWindow
import Faultline.Flows
import Faultline.GRPCTimeout
import Faultline.HTTPFlow
import Faultline.HTTPFlowRuns
import Faultline.HTTPFlowStages
import Faultline.HTTPFlowStep
import Faultline.HTTPServing
import Faultline.InsertionMap
import Faultline.JsonText
import Faultline.LoginLimit
import Faultline.Machine
import Faultline.ManagedAccess
import Faultline.ManagedAnswers
import Faultline.ManagedDrafts
import Faultline.ManagedRuns
import Faultline.ManagedServer
import Faultline.MySQLAuth
import Faultline.MySQLBounds
import Faultline.MySQLCommand
import Faultline.MySQLFormat
import Faultline.MySQLGrammar
import Faultline.MySQLResponse
import Faultline.MySQLSession
import Faultline.MySQLStatements
import Faultline.MySQLStatus
import Faultline.MySQLTracking
import Faultline.MySQLWire
import Faultline.NetAddr
import Faultline.NetURL
import Faultline.OrdMap
import Faultline.Panics
import Faultline.PathPattern
import Faultline.PostgreSQLAuth
import Faultline.PostgreSQLBounds
import Faultline.PostgreSQLCancel
import Faultline.PostgreSQLCommit
import Faultline.PostgreSQLCycle
import Faultline.PostgreSQLFlow
import Faultline.PostgreSQLKeys
import Faultline.PostgreSQLRelay
import Faultline.PostgreSQLSession
import Faultline.PostgreSQLStartup
import Faultline.PostgreSQLWire
import Faultline.PrefixCode
import Faultline.Process
import Faultline.Recorder
import Faultline.RecorderQueue
import Faultline.RecorderRuns
import Faultline.RequestPath
import Faultline.ReviewDiff
import Faultline.ReviewOptional
import Faultline.ReviewRules
import Faultline.ReviewTabs
import Faultline.RulePairs
import Faultline.RuleStreams
import Faultline.ScriptText
import Faultline.ScriptValue
import Faultline.Segments
import Faultline.Service
import Faultline.ServiceRuns
import Faultline.Since
import Faultline.Sink
import Faultline.Spelling
import Faultline.Standard
import Faultline.StandardYaml
import Faultline.Store
import Faultline.TCPHold
import Faultline.TCPLifecycle
import Faultline.TCPLifecycleMoves
import Faultline.TCPLifecycleRuns
import Faultline.TCPLifecycleStep
import Faultline.TCPOutcome
import Faultline.TCPPump
import Faultline.TCPRelay
import Faultline.TCPSession
import Faultline.TCPTransfer
import Faultline.TCPTrigger
import Faultline.TCPTriggerRuns
import Faultline.Text
import Faultline.WireCodecs
