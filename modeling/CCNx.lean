import CCNx.Channel.Cancelling
import CCNx.Channel.Holding
import CCNx.Channel.Latched
import CCNx.Channel.Listening
import CCNx.Channel.LoadGroups
import CCNx.Channel.Sniffing
import CCNx.Channel.Suspending
import CCNx.Core.Closed
import CCNx.Core.Connect
import CCNx.Core.Interest
import CCNx.Core.Reentry
import CCNx.Core.Rejecting
import CCNx.Core.Session
import CCNx.Core.WakeUp
import CCNx.Error
import CCNx.Lib.Lock
import CCNx.Load.Silent
import CCNx.Service.Events
import CCNx.Service.Leaving
import CCNx.Service.Lifetime
import CCNx.Service.Signal
import CCNx.Transport.Callbacks
import CCNx.Transport.Closing
import CCNx.Transport.Handles
import CCNx.Transport.InputRefs
import CCNx.Transport.Invoked
import CCNx.Transport.Leak
import CCNx.Transport.LockedHandles
import CCNx.Transport.Period
import CCNx.Transport.Races
import CCNx.Transport.ReadDead
import CCNx.Transport.ReadStatus
import CCNx.Transport.Refs
import CCNx.Transport.Told
