import Nproxy.Core.ArenaRuns
import Nproxy.Core.Comments
import Nproxy.Core.Teardown
import Nproxy.Net.ByteQueue
import Nproxy.Net.Punctual
import Nproxy.Http.Bounds
import Nproxy.Http.Integers
import Nproxy.Features.AccessLog
import Nproxy.Features.Isolation
import Nproxy.Proxy.Descriptors
import Nproxy.Proxy.Forwarded
import Nproxy.Proxy.Health
import Nproxy.Proxy.Shares
import Nproxy.Proxy.StatusLine
import Nproxy.Proxy.Tunnel
import Nproxy.Proxy.Blocked
import Nproxy.Cache.Insert
import Nproxy.Cache.Refinement
import Nproxy.Cache.Shared
import Nproxy.Module.Registry
import Nproxy.Static.Delivery
import Nproxy.Static.PathArrays
import Nproxy.Proc.Batch
import Nproxy.Proc.Count
import Nproxy.Proc.Meter
import Nproxy.Proc.Oversized
import Nproxy.Proc.Persistence
import Nproxy.Proc.Phases
import Nproxy.Proc.Reaping
import Nproxy.Proc.Teardown
import Nproxy.Proc.Ports
