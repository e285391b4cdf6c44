import NativeLink.Scheduler.SimpleScheduler

-- The sweep of `remove_timedout_workers` walks the pool from the least recently used worker and
-- stops at the first one heard from since the cut-off, taking the pool's order for that of the
-- timestamps. `refresh_lifetime` moves a timestamp on without moving the worker, so a worker heard
-- from recently can stand before one that timed out, which the sweep then never reaches. The cut-off
-- is a `u64` subtraction, which wraps before `worker_timeout_s`.

namespace NativeLink.Scheduler

open Lru

namespace ApiWorkerSchedulerImpl

variable {s s' : ApiWorkerSchedulerImpl} {workerId : WorkerId} {timestamp : WorkerTimestamp}

theorem refreshLifetime_run_ok (h : (refreshLifetime workerId timestamp).run s = .ok () s') :
    s'.workers.keys = s.workers.keys ∧
      (s'.workers.peek workerId).map (·.lastUpdateTimestamp) = some timestamp := by
  cases hp : s.workers.peek workerId
  case none => simp [refreshLifetime, EStateM.run, bind, EStateM.bind, get, getThe, MonadStateOf.get,
      EStateM.get, hp, throw, throwThe, MonadExceptOf.throw, EStateM.throw] at h
  case some worker =>
    by_cases ht : worker.lastUpdateTimestamp > timestamp
    case pos => simp [refreshLifetime, EStateM.run, bind, EStateM.bind, get, getThe, MonadStateOf.get,
        EStateM.get, hp, ht, throw, throwThe, MonadExceptOf.throw, EStateM.throw] at h
    case neg =>
      simp only [refreshLifetime, EStateM.run, bind, EStateM.bind, get, getThe, MonadStateOf.get,
        EStateM.get, hp, ht, if_false, set, EStateM.set, EStateM.Result.ok.injEq] at h
      obtain ⟨-, rfl⟩ := h
      refine ⟨LruCache.keys_modify, ?_⟩
      simp [LruCache.peek_modify, hp]

end ApiWorkerSchedulerImpl

namespace ApiWorkerScheduler

variable (cfg : ApiWorkerScheduler) {s : ApiWorkerSchedulerImpl} {nowTimestamp : WorkerTimestamp} {now : Nat}

theorem removeTimedoutWorkers_of_fresh_lru {workerId : WorkerId} {worker : Worker}
    (hlru : s.workers.peekLru = some (workerId, worker))
    (hfresh : nowTimestamp - cfg.workerTimeoutS < worker.lastUpdateTimestamp) :
    (removeTimedoutWorkers cfg nowTimestamp now).run s = .ok () s := by
  obtain ⟨rest, hentries⟩ : ∃ rest, s.workers.entries = (workerId, worker) :: rest := by
    unfold LruCache.peekLru at hlru
    cases he : s.workers.entries
    case nil => simp [he] at hlru
    case cons e rest =>
      rw [he, List.head?_cons, Option.some.injEq] at hlru
      exact ⟨rest, by rw [hlru]⟩
  have hnone : (s.workers.iter.reverse.takeWhile fun entry =>
      entry.2.lastUpdateTimestamp ≤ nowTimestamp - cfg.workerTimeoutS) = [] := by
    rw [LruCache.iter, List.reverse_reverse, hentries, List.takeWhile_cons]
    simp [UInt64.not_le.mpr hfresh]
  simp [removeTimedoutWorkers, EStateM.run, bind, EStateM.bind, get, getThe, MonadStateOf.get, EStateM.get,
    hnone, liftError, pure, EStateM.pure]

end ApiWorkerScheduler

namespace SimpleScheduler

-- Two workers connect at time 1000 and the first, the least recently used, sends a keep-alive at
-- 1100. The sweep at 1100 with a timeout of 10 stops at that first worker, and the second, silent
-- since 1000, stays in the pool. A sweep at time 5, before the timeout of 10, cuts off at the
-- wrapped `5 - 10` and evicts a worker heard from at 5.
theorem sweep_keeps_timed_out_worker :
    ((run ⟨.leastRecentlyUsed, 10, ⟨3, 60, 60⟩⟩ [.connectWorker ⟨∅⟩ 1000, .connectWorker ⟨∅⟩ 1000,
        .workerKeepAliveReceived 0 1100, .removeTimedoutWorkers 1100 0]).workerScheduler.workers.peek 1).map
        (·.lastUpdateTimestamp) = some 1000 ∧
    (1000 : WorkerTimestamp) ≤ 1100 - 10 ∧
    ((run ⟨.leastRecentlyUsed, 10, ⟨3, 60, 60⟩⟩ [.connectWorker ⟨∅⟩ 5]).workerScheduler.workers.peek 0).map
        (·.lastUpdateTimestamp) = some 5 ∧
    ((run ⟨.leastRecentlyUsed, 10, ⟨3, 60, 60⟩⟩ [.connectWorker ⟨∅⟩ 5, .removeTimedoutWorkers 5 0]).workerScheduler.workers.peek 0).map
        (·.lastUpdateTimestamp) = none ∧
    (5 : WorkerTimestamp) - 10 = 18446744073709551611 :=
  ⟨by decide +kernel, by decide, by decide +kernel, by decide +kernel, by decide⟩

end SimpleScheduler

end NativeLink.Scheduler
