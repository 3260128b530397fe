import LibPthread.Mutex.HandOver
import LibPthread.Mutex.Exclusion
import LibPthread.Semaphore.Tokens
import LibPthread.Rwlock.HandOver
import LibPthread.Errors
import LibPthread.Barrier.Rounds
import LibPthread.Process.Wakeup
import LibPthread.Process.Cancellation
import LibPthread.Process.Signals
import LibPthread.Process.Answers
import LibPthread.Process.WaitExit
import LibPthread.Concurrency.Ledger
import LibPthread.Thread.Structures
import LibPthread.Concurrency.Custody
import LibPthread.Thread.Lookup
import LibPthread.Thread.Reclaim
import LibPthread.Thread.Creation
import LibPthread.Thread.Ends
import LibPthread.Thread.Failure
import LibPthread.Thread.Guard
import LibPthread.Thread.KernelResources
import LibPthread.Thread.Stacks
import LibPthread.Atfork
import LibPthread.Concurrency.Trace
import LibPthread.Key.Allocator
import LibPthread.Key.Destructors
import LibPthread.Key.Values
import LibPthread.Signal.Blocked
import LibPthread.Signal.Information
import LibPthread.Signal.ExactlyOnce
import LibPthread.Hurd.Exit
import LibPthread.Mutex.Counting
import LibPthread.Process.Asynchronous
import LibPthread.Semaphore.Counting
import LibPthread.Signal.Dispatch
import LibPthread.Thread.Stranded
import LibPthread.Timedblock
import LibPthread.TryLock
import LibPthread.Thread.Cleanup
import LibPthread.Thread.ExitStatus
import LibPthread.Thread.ExitLocks
import LibPthread.Queue.Functions
import LibPthread.Queue.Representation
import LibPthread.Once.Control
import LibPthread.Stack.Alloc
import LibPthread.Stack.Setup
import LibPthread.Mutex.Passing
import LibPthread.Concurrency.Linearization
import LibPthread.Semaphore.Linearization
import LibPthread.Mutex.Linearization
import LibPthread.Rwlock.Linearization
import LibPthread.Concurrency.Section
import LibPthread.Queue.Accesses
import LibPthread.Semaphore.Accesses
import LibPthread.Semaphore.Rest
import LibPthread.Mutex.Rest
import LibPthread.Rwlock.Rest
import LibPthread.Barrier.Rest
import LibPthread.Mutex.Order
import LibPthread.Rwlock.Order
import LibPthread.Process.Order
import LibPthread.Thread.Total
import LibPthread.Thread.Programs
import LibPthread.Lifecycle
import LibPthread.Process.Guarantees
import LibPthread.Process.MutualExclusion
import LibPthread.Process.Rest
