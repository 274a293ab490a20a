import Wasivst.Lib.LittleEndian
import Wasivst.Lib.Reader
import Wasivst.Lib.Transition
import Wasivst.Lib.Mealy
import Wasivst.Lib.Framing
import Wasivst.Lib.Correlation
import Wasivst.Lib.Ieee754
import Wasivst.Lib.Codec
import Wasivst.Lib.Regions
import Wasivst.Lib.Ownership
import Wasivst.Lib.GrowingVector
import Wasivst.Lib.SignedIndex
import Wasivst.Lib.Remote
import Wasivst.Lib.Replay
import Wasivst.Lib.SeekableFile
import Wasivst.Lib.Escaping
import Wasivst.Lib.Holding
import Wasivst.Lib.Separated
import Wasivst.Lib.Lines
import Wasivst.Lib.FirstMatch
import Wasivst.Lib.InputStream
import Wasivst.Lib.LexicalPath
import Wasivst.Lib.CString
import Wasivst.Js
import Wasivst.Wire
import Wasivst.SerialChannel
import Wasivst.Encoder
import Wasivst.Vst2Host
import Wasivst.ProcessFrame
import Wasivst.Vst2Contract
import Wasivst.Main
import Wasivst.Vst3Host
import Wasivst.Receiver
import Wasivst.HostStream
import Wasivst.Client
import Wasivst.GetParam
import Wasivst.Startup
import Wasivst.Processor
import Wasivst.AdHocSocketHandler.Send
import Wasivst.AdHocSocketHandler.Close
import Wasivst.Bitsery
import Wasivst.Mirror
import Wasivst.AudioShm
import Wasivst.AudioShmBuffer
import Wasivst.ObjectStream
import Wasivst.Vst2.Events
import Wasivst.Vst2.Messages
import Wasivst.Vst2.Passthrough
import Wasivst.Vst2.SpeakerArrangement
import Wasivst.Clap.Events
import Wasivst.Clap.Process
import Wasivst.Clap.PortAccess
import Wasivst.Clap.ProcessCycles
import Wasivst.Clap.Stream
import Wasivst.Clap.Records
import Wasivst.Clap.Descriptors
import Wasivst.Vst3.PluginProxy
import Wasivst.Vst3.ProxyClasses
import Wasivst.Vst3.PhysicalUIMapList
import Wasivst.Vst3.EventList
import Wasivst.Vst3.EventTransfer
import Wasivst.Vst3.ParameterChanges
import Wasivst.Vst3.Base
import Wasivst.Vst3.PluginFactory
import Wasivst.Vst3.IndexChecks
import Wasivst.Vst3.QueuePointers
import Wasivst.Vst3.AttributeList
import Wasivst.Vst3.AttributeTransfer
import Wasivst.Vst3.StreamAttributes
import Wasivst.Vst3.BStream
import Wasivst.Vst3.StreamCopy
import Wasivst.Vst3.CallerBuffers
import Wasivst.Vst3.ProcessData
import Wasivst.Vst3.AudioCopies
import Wasivst.Vst3.ProcessCycles
import Wasivst.ChannelCopies
import Wasivst.Vst3.Transparency
import Wasivst.Clap.AudioCopies
import Wasivst.Clap.Transparency
import Wasivst.Vst3.RequestOutputs
import Wasivst.Vst3.AudioProcessorRequest
import Wasivst.MutualRecursion.Lock
import Wasivst.MutualRecursion.Invariant
import Wasivst.MutualRecursion.Threads
import Wasivst.MutualRecursion.Tasks
import Wasivst.Notifications
import Wasivst.Plugins
import Wasivst.Process.Environment
import Wasivst.Process.Handle
import Wasivst.Process.SearchPath
import Wasivst.ScopedValueCache
import Wasivst.Configuration
import Wasivst.Configuration.Transfer
import Wasivst.Sockets
import Wasivst.Sockets.Endpoints
import Wasivst.Sockets.AudioThreads
import Wasivst.Logger
import Wasivst.Instance.Steps
import Wasivst.Instance.Order
import Wasivst.Instance.Quiet
import Wasivst.Instance.Params
import Wasivst.AdHocSocketHandler.Linearize
import Wasivst.TypedMessageHandler
import Wasivst.Vst2.SendEvent
