import RzProxy.Library.LittleEndian
import RzProxy.Library.Stream
import RzProxy.Library.Utf8
import RzProxy.Protocol.Frame
import RzProxy.Protocol.Framing
import RzProxy.Library.Machine
import RzProxy.Library.Simulation
import RzProxy.Library.Turns
import RzProxy.Library.AtMostOnce
import RzProxy.Library.Flow
import RzProxy.Error
import RzProxy.Library.Json
import RzProxy.Protocol.Field
import RzProxy.Protocol.Response
import RzProxy.Helper
import RzProxy.Processor.Replies
import RzProxy.Processor.Answer
import RzProxy.Processor.Reading
import RzProxy.Processor.Texts
import RzProxy.Processor.Lists
import RzProxy.Processor.Body
import RzProxy.Processor.Command
import RzProxy.Processor.Integers
import RzProxy.Handler.Connection
import RzProxy.Handler.System
import RzProxy.Handler.Change
import RzProxy.Handler.Invariant
import RzProxy.Handler.Correlation
import RzProxy.Handler.Pending
import RzProxy.Handler.Backend
import RzProxy.Handler.Stranded
import RzProxy.Handler.Fresh
import RzProxy.Handler.Release
import RzProxy.Handler.Wire
import RzProxy.Handler.RoundRobin
import RzProxy.Processor.Required
import RzProxy.Processor.Status
import RzProxy.Processor.Features
import RzProxy.Processor.Grammar
import RzProxy.Processor.Counters
import RzProxy.Processor.Accounting
import RzProxy.Processor.Filters
import RzProxy.Processor.PropertyIds
import RzProxy.Processor.Encoded
import RzProxy.Processor.EncodedLists
import RzProxy.Processor.EncodedDays
import RzProxy.Processor.Writers
import RzProxy.Processor.PackedDates
import RzProxy.Handler.ControlSegment
import RzProxy.Handler.Service
import RzProxy.Handler.Attempts
import RzProxy.Handler.Frames
import RzProxy.Handler.Delivery
import RzProxy.Handler.RouterWire
import RzProxy.Handler.Queue
import RzProxy.Handler.Pool
import RzProxy.Handler.Refill
import RzProxy.Handler.Balance
import RzProxy.Handler.Progress
import RzProxy.Handler.Lost
import RzProxy.Handler.Ending
import RzProxy.Server.System
import RzProxy.Server.Requests
import RzProxy.Server.Startup
import RzProxy.Server.Frames
import RzProxy.Server.Routing
import RzProxy.Server.Accounting
import RzProxy.Server.Answering
