import ArenaB.Base.Word
import ArenaB.Base.Span
import ArenaB.Base.System
import ArenaB.Base.Ledger
import ArenaB.Base.Levels
import ArenaB.Base.Chain
import ArenaB.Core.Chunk
import ArenaB.LockFree.Buffer
import ArenaB.Core.Inner
import ArenaB.Arena.Ops
import ArenaB.Arena.Growth
import ArenaB.Arena.Session
import ArenaB.Arena.Stack
import ArenaB.Arena.Contract
import ArenaB.Arena.Live
import ArenaB.Arena.Lockfree
import ArenaB.Arena.Tree
import ArenaB.Arena.Frames
import ArenaB.Arena.Accounting
import ArenaB.Arena.Shared
import ArenaB.LockFree.Lifetime
import ArenaB.LockFree.Pool
import ArenaB.Pool.Slots
import ArenaB.Arena.Counters
import ArenaB.Base.Carve
import ArenaB.Base.Chronicle
import ArenaB.LockFree.Threads
import ArenaB.LockFree.Race
import ArenaB.LockFree.Lifo
import ArenaB.Debug.State
import ArenaB.Debug.World
import ArenaB.Debug.Keys
import ArenaB.Debug.Taint
import ArenaB.Debug.Isolation
import ArenaB.Core.Bump
import ArenaB.Base.Pages
import ArenaB.Virtual.Region
import ArenaB.Virtual.Chunk
import ArenaB.Base.Prefix
import ArenaB.ThreadLocal.Cache
import ArenaB.ThreadLocal.Match
import ArenaB.Pool.Recycle
import ArenaB.Arena.Serve
import ArenaB.Legacy.Arena
import ArenaB.Legacy.Live
import ArenaB.Legacy.Agree
import ArenaB.Arena.Replay
import ArenaB.Arena.Scopes
import ArenaB.Arena.Capacity
import ArenaB.Virtual.Ranges
import ArenaB.Virtual.Agree
import ArenaB.Debug.Guards
import ArenaB.Pool.Unwind
import ArenaB.Pool.Peak
import ArenaB.LockFree.Calls
import ArenaB.LockFree.Stats
import ArenaB.Slab.Classes
import ArenaB.Legacy.Tree
import ArenaB.Base.Potential
import ArenaB.Core.Rounds
import ArenaB.LockFree.Progress
import ArenaB.LockFree.Refills
import ArenaB.Base.Lock
import ArenaB.Sync.Arena
import ArenaB.Base.Heap
import ArenaB.Arena.Foreign
import ArenaB.Arena.Blocks
import ArenaB.Arena.Host
import ArenaB.Arena.Footprint
import ArenaB.ThreadLocal.Arena
import ArenaB.Base.Views
import ArenaB.LockFree.Weak
import ArenaB.LockFree.Consistent
import ArenaB.LockFree.WeakBuffer
import ArenaB.Debug.Reports
import ArenaB.Debug.Log
import ArenaB.Debug.Verdicts
