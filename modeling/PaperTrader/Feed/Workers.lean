/-
**`MarketFeed`: its worker threads and the driver's calls, under every interleaving.**

A feed is its one stop flag, its token ids, every thread it has started with where each is in
its loop, and where the driver is inside `set_token_ids`. `feedStep` is one atomic step of a
worker or of the driver; a join that returns on its timeout is a step of its own, possible while
the joined thread is blocked in its request or in `run_forever`.

* `feedStep_cases` — what a step does, once; `feedStep_exited` — a thread that has exited
  stays as it is;
* `FeedInv`, `feedStep_inv` — with joins that return because their thread has ended, every
  thread the feed no longer holds has exited;
* `patientRun_old_worker_stays` — so then no thread of an older `start()` takes another step;
* `feed_worker_outlives_set_token_ids` — with a join that times out, `start()` clears the
  shared stop flag again, and the old REST poller, back from its request, begins another poll
  after `set_token_ids` has returned.
-/

import Mathlib.Data.List.Basic

namespace PaperTrader

/-- The loop a worker thread runs. -/
inductive WorkerKind
  | restPoll
  | wsSupervisor
  deriving DecidableEq, Repr

/-- Where a worker is in its `while not self._stop.is_set()` loop: at the condition, blocked in
the REST request (timeout 10 s) or in `run_forever`, in the sleep after a poll or the
supervisor's back-off, or past the loop. -/
inductive WorkerPc
  | check
  | blocked
  | pause
  | exited
  deriving DecidableEq, Repr

/-- A worker thread: its loop, the `start()` that started it, where it is, and how many
iterations of its loop it has begun. -/
structure Worker where
  kind : WorkerKind
  generation : ℕ
  pc : WorkerPc
  iterations : ℕ
  deriving DecidableEq, Repr

/-- Where the driver is in a call of `set_token_ids`: between calls, or before one of its steps:
`stop()`'s `self._ws.close()` and its two joins, the assignment of the token ids, and `start()`'s
clearing of the flag and new threads. -/
inductive FeedCall
  | idle
  | closeWs
  | joinRest
  | joinWs
  | assign
  | clear
  | spawn
  deriving DecidableEq, Repr

/-- A `MarketFeed`: its stop flag, its token ids and those of the call in progress, every thread
it started in order, the two it holds (`_thread`, `_ws_thread`), its `start()` calls so far, and
where the driver is. -/
structure Feed where
  stopFlag : Bool
  tokenIds : List String
  pending : List String
  workers : List Worker
  restThread : Option ℕ
  wsThread : Option ℕ
  generation : ℕ
  call : FeedCall
  deriving DecidableEq, Repr

/-- A step of the system: of a worker, the driver's call of `set_token_ids`, the driver's next
step in it, or the join in progress returning on its timeout. -/
inductive FeedAction
  | worker (index : ℕ)
  | setTokenIds (tokens : List String)
  | driver
  | joinTimeout
  deriving DecidableEq, Repr

/-- One step of a worker's loop, under the feed's stop flag and token ids: at the condition it
exits if the flag is set and otherwise begins an iteration (a poll, or a wait for token ids, or a
connection); nothing once it has exited. -/
def Worker.step (stopFlag : Bool) (tokenIds : List String) (w : Worker) : Option Worker :=
  match w.pc with
  | .check =>
    if stopFlag then some { w with pc := .exited }
    else
      let next := match w.kind with
        | .restPoll => if tokenIds = [] then WorkerPc.pause else .blocked
        | .wsSupervisor => .blocked
      some { w with pc := next, iterations := w.iterations + 1 }
  | .blocked => some { w with pc := .pause }
  | .pause => some { w with pc := .check }
  | .exited => none

namespace Feed

/-- `start()`'s threads, which end the call: the supervisor, then the REST poller when the
stream is used (`prefer_websocket` and the library present), else the REST poller alone. -/
def spawn (useWs : Bool) (f : Feed) : Feed :=
  let fresh := fun kind =>
    ({ kind := kind, generation := f.generation + 1, pc := .check, iterations := 0 } : Worker)
  if useWs then
    { f with
      workers := f.workers ++ [fresh .wsSupervisor, fresh .restPoll]
      wsThread := some f.workers.length
      restThread := some (f.workers.length + 1)
      generation := f.generation + 1
      call := .idle }
  else
    { f with
      workers := f.workers ++ [fresh .restPoll]
      restThread := some f.workers.length
      generation := f.generation + 1
      call := .idle }

/-- A feed as `MarketFeed(token_ids, store, cfg).start()` leaves it. -/
def started (useWs : Bool) (tokens : List String) : Feed :=
  spawn useWs
    { stopFlag := false, tokenIds := tokens, pending := tokens, workers := [], restThread := none,
      wsThread := none, generation := 0, call := .idle }

/-- Whether the thread a reference holds is in a given place of its loop. -/
def threadAt (f : Feed) (thread : Option ℕ) (place : WorkerPc → Bool) : Bool :=
  match thread with
  | some i => (f.workers[i]?).any fun w => place w.pc
  | none => false

/-- `self._ws.close()`: the supervisor in `run_forever` returns from it. -/
def closeWs (f : Feed) : Feed :=
  match f.wsThread with
  | some i =>
    { f with workers := f.workers.modify (fun w =>
        if w.pc = .blocked then { w with pc := .pause } else w) i }
  | none => f

end Feed

/-- One step of the feed and the driver. A join waits while its thread is alive, unless it
returns on its timeout while the thread is blocked. -/
def feedStep (useWs : Bool) (f : Feed) : FeedAction → Option Feed
  | .worker i =>
    match f.workers[i]? with
    | some w => (w.step f.stopFlag f.tokenIds).map fun w' => { f with workers := f.workers.set i w' }
    | none => none
  | .setTokenIds tokens =>
    if f.call = .idle then
      if tokens = f.tokenIds then some f
      else some { f with stopFlag := true, pending := tokens, call := .closeWs }
    else none
  | .driver =>
    match f.call with
    | .idle => none
    | .closeWs => some { f.closeWs with call := .joinRest }
    | .joinRest =>
      if f.threadAt f.restThread (· != .exited) then none else some { f with call := .joinWs }
    | .joinWs =>
      if f.threadAt f.wsThread (· != .exited) then none else some { f with call := .assign }
    | .assign => some { f with tokenIds := f.pending, call := .clear }
    | .clear => some { f with stopFlag := false, call := .spawn }
    | .spawn => some (f.spawn useWs)
  | .joinTimeout =>
    match f.call with
    | .joinRest =>
      if f.threadAt f.restThread (· == .blocked) then some { f with call := .joinWs } else none
    | .joinWs =>
      if f.threadAt f.wsThread (· == .blocked) then some { f with call := .assign } else none
    | _ => none

/-- The states a feed reaches from `start` by steps that `allowed` admits. -/
inductive FeedRun (useWs : Bool) (allowed : FeedAction → Prop) (start : Feed) : Feed → Prop
  | start : FeedRun useWs allowed start start
  | step {f f' : Feed} (act : FeedAction) : allowed act → FeedRun useWs allowed start f →
      feedStep useWs f act = some f' → FeedRun useWs allowed start f'

/-! ### Replaying an interleaving -/

/-- The steps of an interleaving, in order. -/
def runActions (useWs : Bool) : Feed → List FeedAction → Option Feed
  | f, [] => some f
  | f, act :: acts => (feedStep useWs f act).bind fun f' => runActions useWs f' acts

/-- A replayed interleaving of steps that `allowed` admits is a run. -/
theorem runActions_run {useWs : Bool} {allowed : FeedAction → Prop} {start : Feed} :
    ∀ {acts : List FeedAction} {f f' : Feed}, (∀ act ∈ acts, allowed act) →
      FeedRun useWs allowed start f → runActions useWs f acts = some f' →
      FeedRun useWs allowed start f'
  | [], _, _, _, run, result => Option.some.inj result ▸ run
  | act :: acts, _, _, admitted, run, result => by
    obtain ⟨f1, stepped, rest⟩ := Option.bind_eq_some.mp result
    exact runActions_run (fun a mem => admitted a (List.mem_cons_of_mem act mem))
      (.step act (admitted act (List.mem_cons_self act acts)) run stepped) rest

theorem runActions_feedRun {useWs : Bool} {start : Feed} {acts : List FeedAction} {f f' : Feed}
    (run : FeedRun useWs (fun _ => True) start f) (result : runActions useWs f acts = some f') :
    FeedRun useWs (fun _ => True) start f' :=
  runActions_run (fun _ _ => trivial) run result

/-- A replayed interleaving whose end passes a test reaches a state that passes it. -/
theorem exists_of_runActions {useWs : Bool} {start f : Feed} {acts : List FeedAction}
    {p : Feed → Bool} (run : FeedRun useWs (fun _ => True) start f)
    (passes : (runActions useWs f acts).any p = true) :
    ∃ f', FeedRun useWs (fun _ => True) start f' ∧ p f' = true := by
  rcases result : runActions useWs f acts with _ | f'
  · simp [result] at passes
  · exact ⟨f', runActions_feedRun run result, by simpa [result] using passes⟩

/-! ### What a step does -/

namespace Worker

variable {stopFlag : Bool} {tokenIds : List String} {w w' : Worker}

theorem step_pc (stepped : w.step stopFlag tokenIds = some w') : w.pc ≠ .exited := by
  rintro exited
  simp [step, exited] at stepped

theorem step_generation (stepped : w.step stopFlag tokenIds = some w') :
    w'.generation = w.generation := by
  unfold step at stepped
  split at stepped <;> (try split_ifs at stepped) <;>
    first | (obtain rfl := Option.some.inj stepped; rfl) | cases stepped

end Worker

namespace Feed

/-- The thread a reference holds has exited, or there is none. -/
def Ended (f : Feed) (thread : Option ℕ) : Prop :=
  ∀ i, thread = some i → ∀ w, f.workers[i]? = some w → w.pc = .exited

/-- The feed holds the thread at an index, as `_thread` or `_ws_thread`. -/
def Holds (f : Feed) (i : ℕ) : Prop := f.restThread = some i ∨ f.wsThread = some i

/-- Two states hold the same threads, in the same places. -/
def SameThreads (f f' : Feed) : Prop :=
  f'.workers = f.workers ∧ f'.restThread = f.restThread ∧ f'.wsThread = f.wsThread ∧
    f'.generation = f.generation

theorem threadAt_alive_eq_false {f : Feed} {thread : Option ℕ} :
    f.threadAt thread (· != .exited) = false ↔ f.Ended thread := by
  rcases thread with _ | i
  · simp [threadAt, Ended]
  · rcases found : f.workers[i]? with _ | w <;> simp [threadAt, Ended, found, forall_eq']

end Feed

variable {useWs : Bool} {f f' : Feed} {act : FeedAction}

/-- **What a step of the feed does**: a worker's step; `self._ws.close()`; `start()`'s new
threads; or a step of the driver that leaves the threads alone and moves it through the call,
past a join only once its thread has ended or on the join's timeout. -/
theorem feedStep_cases (result : feedStep useWs f act = some f') :
    (∃ i w w', act = .worker i ∧ f.workers[i]? = some w ∧ w.step f.stopFlag f.tokenIds = some w' ∧
        f'.workers = f.workers.set i w' ∧ f'.restThread = f.restThread ∧
        f'.wsThread = f.wsThread ∧ f'.generation = f.generation ∧ f'.call = f.call) ∨
      (f.call = .closeWs ∧ f' = { f.closeWs with call := .joinRest }) ∨
      (f.call = .spawn ∧ f' = f.spawn useWs) ∨
      (f.SameThreads f' ∧
        ((f.call = .idle ∧ (f'.call = .idle ∨ f'.call = .closeWs)) ∨
          (f.call = .joinRest ∧ f'.call = .joinWs ∧ (act = .joinTimeout ∨ f.Ended f.restThread)) ∨
          (f.call = .joinWs ∧ f'.call = .assign ∧ (act = .joinTimeout ∨ f.Ended f.wsThread)) ∨
          (f.call = .assign ∧ f'.call = .clear) ∨ (f.call = .clear ∧ f'.call = .spawn))) := by
  have same : f.SameThreads f := ⟨rfl, rfl, rfl, rfl⟩
  cases act with
  | worker i =>
    simp only [feedStep] at result
    split at result
    · next w found =>
      obtain ⟨w', stepped, rfl⟩ := Option.map_eq_some'.mp result
      exact .inl ⟨i, w, w', rfl, found, stepped, rfl, rfl, rfl, rfl, rfl⟩
    · cases result
  | setTokenIds tokens =>
    simp only [feedStep] at result
    split_ifs at result with idle <;> obtain rfl := Option.some.inj result
    · exact .inr (.inr (.inr ⟨same, .inl ⟨idle, .inl idle⟩⟩))
    · exact .inr (.inr (.inr ⟨same, .inl ⟨idle, .inr rfl⟩⟩))
  | driver =>
    simp only [feedStep] at result
    split at result
    · cases result
    · next closing =>
      obtain rfl := Option.some.inj result
      exact .inr (.inl ⟨closing, rfl⟩)
    · next joining =>
      split_ifs at result with alive
      obtain rfl := Option.some.inj result
      exact .inr (.inr (.inr ⟨same, .inr (.inl ⟨joining, rfl,
        .inr (Feed.threadAt_alive_eq_false.mp (by simpa using alive))⟩)⟩))
    · next joining =>
      split_ifs at result with alive
      obtain rfl := Option.some.inj result
      exact .inr (.inr (.inr ⟨same, .inr (.inr (.inl ⟨joining, rfl,
        .inr (Feed.threadAt_alive_eq_false.mp (by simpa using alive))⟩))⟩))
    · next assigning =>
      obtain rfl := Option.some.inj result
      exact .inr (.inr (.inr ⟨same, .inr (.inr (.inr (.inl ⟨assigning, rfl⟩)))⟩))
    · next clearing =>
      obtain rfl := Option.some.inj result
      exact .inr (.inr (.inr ⟨same, .inr (.inr (.inr (.inr ⟨clearing, rfl⟩)))⟩))
    · next spawning =>
      obtain rfl := Option.some.inj result
      exact .inr (.inr (.inl ⟨spawning, rfl⟩))
  | joinTimeout =>
    simp only [feedStep] at result
    split at result
    · next joining =>
      split_ifs at result
      obtain rfl := Option.some.inj result
      exact .inr (.inr (.inr ⟨same, .inr (.inl ⟨joining, rfl, .inl rfl⟩)⟩))
    · next joining =>
      split_ifs at result
      obtain rfl := Option.some.inj result
      exact .inr (.inr (.inr ⟨same, .inr (.inr (.inl ⟨joining, rfl, .inl rfl⟩))⟩))
    · cases result

/-! ### Threads that have exited -/

namespace Feed

variable {useWs : Bool} {f : Feed} {i : ℕ} {w : Worker}

theorem spawn_generation : (f.spawn useWs).generation = f.generation + 1 := by
  cases useWs <;> rfl

theorem spawn_call : (f.spawn useWs).call = .idle := by
  cases useWs <;> rfl

/-- After `start()` a thread is an old one, where it was, or a new one, held and of the new
`start()`. -/
theorem spawn_lookup (found : (f.spawn useWs).workers[i]? = some w) :
    f.workers[i]? = some w ∨ ((f.spawn useWs).Holds i ∧ w.generation = f.generation + 1) := by
  rcases lt_or_le i f.workers.length with before | after
  · left
    cases useWs <;> simpa [spawn, List.getElem?_append_left before] using found
  · right
    obtain ⟨k, rfl⟩ := Nat.exists_eq_add_of_le after
    cases useWs <;>
      simp only [spawn, Bool.false_eq_true, if_false, if_true,
        List.getElem?_append_right after, Nat.add_sub_cancel_left] at found ⊢ <;>
      rcases k with _ | _ | k <;> simp at found <;> subst found <;> simp [Holds]

theorem closeWs_threads : f.closeWs.restThread = f.restThread ∧ f.closeWs.wsThread = f.wsThread ∧
    f.closeWs.generation = f.generation := by
  unfold closeWs
  split <;> exact ⟨rfl, rfl, rfl⟩

/-- After `self._ws.close()` a thread is where it was, or it is the held supervisor, of the
same `start()`. -/
theorem closeWs_lookup (found : f.closeWs.workers[i]? = some w) :
    f.workers[i]? = some w ∨ (f.wsThread = some i ∧ ∃ u, f.workers[i]? = some u ∧
      w.generation = u.generation) := by
  unfold closeWs at found
  split at found
  · next j held =>
    rw [List.getElem?_modify] at found
    by_cases same : j = i
    · subst same
      rcases old : f.workers[j]? with _ | u <;> rw [old] at found
      · cases found
      · obtain rfl := Option.some.inj found
        exact .inr ⟨held, u, rfl, by dsimp only; split_ifs <;> rfl⟩
    · exact .inl (by simpa [same] using found)
  · exact .inl found

end Feed

/-- **A thread that has exited stays as it is**, whatever step comes. -/
theorem feedStep_exited (result : feedStep useWs f act = some f') {i : ℕ} {w : Worker}
    (found : f.workers[i]? = some w) (exited : w.pc = .exited) : f'.workers[i]? = some w := by
  have bound : i < f.workers.length := (List.getElem?_eq_some_iff.mp found).1
  rcases feedStep_cases result with
    ⟨j, v, v', -, stepping, stepped, workers, -⟩ | ⟨-, rfl⟩ | ⟨-, rfl⟩ | ⟨⟨workers, -⟩, -⟩
  · rw [workers]
    by_cases same : j = i
    · subst same
      obtain rfl := Option.some.inj (stepping.symm.trans found)
      exact absurd exited (Worker.step_pc stepped)
    · rwa [List.getElem?_set_ne same]
  · simp only [Feed.closeWs]
    split
    · rw [List.getElem?_modify, found]
      simp [exited]
    · exact found
  · cases useWs <;> simpa [Feed.spawn, List.getElem?_append_left bound] using found
  · rw [workers]
    exact found

/-- **Along a run whose joins wait for their thread**: the feed holds a supervisor exactly when
the stream is used; the threads it holds are of its newest `start()`; every other thread has
exited; and past each join, the joined thread has exited. -/
structure FeedInv (useWs : Bool) (f : Feed) : Prop where
  ws_held : f.wsThread.isSome = useWs
  held_newest : ∀ i w, f.workers[i]? = some w → f.Holds i → w.generation = f.generation
  others_exited : ∀ i w, f.workers[i]? = some w → ¬ f.Holds i → w.pc = .exited
  rest_joined : f.call = .joinWs ∨ f.call = .assign ∨ f.call = .clear ∨ f.call = .spawn →
    f.Ended f.restThread
  ws_joined : f.call = .assign ∨ f.call = .clear ∨ f.call = .spawn → f.Ended f.wsThread

namespace FeedInv

/-- `start()`'s new threads, after every earlier thread has exited. -/
theorem spawn (old : ∀ (i : ℕ) (w : Worker), f.workers[i]? = some w → w.pc = .exited)
    (noWs : useWs = false → f.wsThread = none) : FeedInv useWs (f.spawn useWs) := by
  refine ⟨?_, fun i w found holds => ?_, fun i w found apart => ?_, ?_, ?_⟩
  · cases useWs <;> simp [Feed.spawn, noWs]
  · rcases Feed.spawn_lookup found with old' | ⟨-, generation⟩
    · have bound : i < f.workers.length := (List.getElem?_eq_some_iff.mp old').1
      cases useWs <;> simp [Feed.spawn, Feed.Holds, noWs] at holds <;> omega
    · rw [generation, Feed.spawn_generation]
  · rcases Feed.spawn_lookup found with old' | ⟨held, -⟩
    · exact old i w old'
    · exact absurd held apart
  · simp [Feed.spawn_call]
  · simp [Feed.spawn_call]

theorem started (tokens : List String) : FeedInv useWs (Feed.started useWs tokens) :=
  FeedInv.spawn (by simp) fun _ => rfl

/-- A step that keeps the threads keeps the invariant, given the joins it has passed. -/
theorem of_sameThreads (inv : FeedInv useWs f) (same : f.SameThreads f')
    (rest_joined : f'.call = .joinWs ∨ f'.call = .assign ∨ f'.call = .clear ∨ f'.call = .spawn →
      f.Ended f.restThread)
    (ws_joined : f'.call = .assign ∨ f'.call = .clear ∨ f'.call = .spawn → f.Ended f.wsThread) :
    FeedInv useWs f' := by
  obtain ⟨workers, rest, ws, generation⟩ := same
  have holds : ∀ i, f'.Holds i ↔ f.Holds i := by simp [Feed.Holds, rest, ws]
  have ended : ∀ thread, f'.Ended thread ↔ f.Ended thread := by simp [Feed.Ended, workers]
  refine ⟨ws ▸ inv.ws_held, fun i w found held => ?_, fun i w found apart => ?_,
    fun joined => ?_, fun joined => ?_⟩
  · rw [generation]
    exact inv.held_newest i w (workers ▸ found) ((holds i).mp held)
  · exact inv.others_exited i w (workers ▸ found) (mt (holds i).mpr apart)
  · rw [ended, rest]
    exact rest_joined joined
  · rw [ended, ws]
    exact ws_joined joined

/-- A worker's step keeps the invariant: the stepping thread is one the feed holds, and no join
it has passed ended that thread. -/
theorem workerStep (inv : FeedInv useWs f) {i : ℕ} {w w' : Worker}
    (found : f.workers[i]? = some w) (stepped : w.step f.stopFlag f.tokenIds = some w')
    (workers : f'.workers = f.workers.set i w') (rest : f'.restThread = f.restThread)
    (ws : f'.wsThread = f.wsThread) (generation : f'.generation = f.generation)
    (call : f'.call = f.call) : FeedInv useWs f' := by
  have held : f.Holds i := by_contra fun apart =>
    Worker.step_pc stepped (inv.others_exited i w found apart)
  have lookup : ∀ j v, f'.workers[j]? = some v → (j = i ∧ v = w') ∨ f.workers[j]? = some v := by
    intro j v found'
    rw [workers] at found'
    by_cases same : i = j
    · subst same
      rw [List.getElem?_set_self (List.getElem?_eq_some_iff.mp found).1] at found'
      exact .inl ⟨rfl, (Option.some.inj found').symm⟩
    · exact .inr (by rwa [List.getElem?_set_ne same] at found')
  have ended : ∀ thread, f.Ended thread → f'.Ended thread := fun thread done j same v found' => by
    rcases lookup j v found' with ⟨rfl, -⟩ | old
    · exact absurd (done j same w found) (Worker.step_pc stepped)
    · exact done j same v old
  have holds : ∀ j, f'.Holds j ↔ f.Holds j := by simp [Feed.Holds, rest, ws]
  refine ⟨ws ▸ inv.ws_held, fun j v found' held' => ?_, fun j v found' apart => ?_,
    fun joined => rest ▸ ended _ (inv.rest_joined (call ▸ joined)),
    fun joined => ws ▸ ended _ (inv.ws_joined (call ▸ joined))⟩
  · rw [generation]
    rcases lookup j v found' with ⟨rfl, rfl⟩ | old
    · rw [Worker.step_generation stepped]
      exact inv.held_newest j w found held
    · exact inv.held_newest j v old ((holds j).mp held')
  · rcases lookup j v found' with ⟨rfl, -⟩ | old
    · exact absurd ((holds j).mpr held) apart
    · exact inv.others_exited j v old (mt (holds j).mpr apart)

/-- `self._ws.close()` keeps the invariant: only the held supervisor's place changes. -/
theorem closeWs (inv : FeedInv useWs f) : FeedInv useWs { f.closeWs with call := .joinRest } := by
  obtain ⟨rest, ws, generation⟩ := Feed.closeWs_threads (f := f)
  refine ⟨ws ▸ inv.ws_held, fun j v found' held' => ?_, fun j v found' apart => ?_,
    by simp, by simp⟩
  · have held : f.Holds j := by simpa [Feed.Holds, rest, ws] using held'
    show v.generation = f.closeWs.generation
    rw [generation]
    rcases Feed.closeWs_lookup found' with old | ⟨-, u, old, same⟩
    · exact inv.held_newest j v old held
    · rw [same]
      exact inv.held_newest j u old held
  · have apart' : ¬ f.Holds j := by simpa [Feed.Holds, rest, ws] using apart
    rcases Feed.closeWs_lookup found' with old | ⟨supervisor, -⟩
    · exact inv.others_exited j v old apart'
    · exact absurd (.inr supervisor) apart'

/-- `start()`'s threads keep the invariant: every earlier thread has exited, the held ones by
the joins the call has passed. -/
theorem spawnStep (inv : FeedInv useWs f) (spawning : f.call = .spawn) :
    FeedInv useWs (f.spawn useWs) := by
  refine FeedInv.spawn (fun i w found => ?_) (fun noWs => ?_)
  · by_cases held : f.Holds i
    · rcases held with rest | ws
      · exact inv.rest_joined (by simp [spawning]) i rest w found
      · exact inv.ws_joined (by simp [spawning]) i ws w found
    · exact inv.others_exited i w found held
  · simpa [noWs] using inv.ws_held

end FeedInv

/-- **Joins that wait keep the invariant**: every step but a join's timeout keeps it. -/
theorem feedStep_inv (patient : act ≠ .joinTimeout) (result : feedStep useWs f act = some f')
    (inv : FeedInv useWs f) : FeedInv useWs f' := by
  rcases feedStep_cases result with
    ⟨i, w, w', -, found, stepped, workers, rest, ws, generation, call⟩ | ⟨-, rfl⟩ |
      ⟨spawning, rfl⟩ | ⟨same, moves⟩
  · exact inv.workerStep found stepped workers rest ws generation call
  · exact inv.closeWs
  · exact inv.spawnStep spawning
  · refine inv.of_sameThreads same (fun joined => ?_) (fun joined => ?_) <;>
      rcases moves with ⟨-, idle | closing⟩ | ⟨joining, moved, passed⟩ |
        ⟨joining, moved, passed⟩ | ⟨assigning, moved⟩ | ⟨clearing, moved⟩ <;>
      simp_all
    all_goals first
      | exact inv.rest_joined (by simp [*])
      | exact inv.ws_joined (by simp [*])

/-! ### Runs whose joins wait -/

variable {allowed : FeedAction → Prop} {tokens : List String}

theorem FeedRun.inv (run : FeedRun useWs (· ≠ .joinTimeout) (Feed.started useWs tokens) f) :
    FeedInv useWs f := by
  induction run with
  | start => exact FeedInv.started tokens
  | step act patient _ result ih => exact feedStep_inv patient result ih

theorem FeedRun.exited_stays {start : Feed} (run : FeedRun useWs allowed start f) {i : ℕ}
    {w : Worker} (found : start.workers[i]? = some w) (exited : w.pc = .exited) :
    f.workers[i]? = some w := by
  induction run with
  | start => exact found
  | step _ _ _ result ih => exact feedStep_exited result ih exited

/-- **With joins that wait for their thread, no thread of an older `start()` takes another step**:
along such a run each has exited, and a thread that has exited stays as it is under any steps
that follow, timeouts included. -/
theorem patientRun_old_worker_stays
    (run : FeedRun useWs (· ≠ .joinTimeout) (Feed.started useWs tokens) f) {i : ℕ} {w : Worker}
    (found : f.workers[i]? = some w) (older : w.generation < f.generation)
    (later : FeedRun useWs allowed f f') : f'.workers[i]? = some w := by
  have inv := run.inv
  have exited : w.pc = .exited := inv.others_exited i w found fun held =>
    (inv.held_newest i w found held ▸ older).false
  exact later.exited_stays found exited

/-- A patient `set_token_ids`: `stop()` waits for both threads of the first `start()` to exit;
after the call, the first supervisor stays as it is under any steps, timeouts included. -/
theorem patientRun_old_worker_stays_restart : ∃ f w,
    FeedRun true (· ≠ .joinTimeout) (Feed.started true ["U", "D"]) f ∧ f.call = .idle ∧
      f.workers[0]? = some w ∧ w.generation < f.generation ∧
      ∀ f', FeedRun true (fun _ => True) f f' → f'.workers[0]? = some w := by
  obtain ⟨f, replayed⟩ := Option.isSome_iff_exists.mp
    (show (runActions true (Feed.started true ["U", "D"])
      [.setTokenIds ["U2", "D2"], .driver, .worker 1, .driver, .worker 0, .driver, .driver, .driver,
        .driver]).isSome = true by decide)
  have restarted : f.call = .idle ∧ (f.workers[0]?).any (fun w => w.generation < f.generation) := by
    simp only [runActions, feedStep, Option.bind] at replayed
    cases replayed
    decide
  obtain ⟨idle, older⟩ := restarted
  rcases found : f.workers[0]? with _ | w
  · simp [found] at older
  simp only [found, Option.any_some, decide_eq_true_eq] at older
  have run : FeedRun true (· ≠ .joinTimeout) (Feed.started true ["U", "D"]) f :=
    runActions_run (by decide) .start replayed
  exact ⟨f, w, run, idle, found, older,
    fun _ later => patientRun_old_worker_stays run found older later⟩

/-! ### An old worker that keeps polling -/

/-- **A REST poller outlives the `set_token_ids` that stopped it**: it is blocked in its request
when `stop()` sets the flag, so its join returns on the timeout; `start()` then clears the same
flag, and after the call has returned the old poller, back from its request, finds the flag
clear and begins another poll, beside the new poller. -/
theorem feed_worker_outlives_set_token_ids : ∃ f f',
    FeedRun true (fun _ => True) (Feed.started true ["U", "D"]) f ∧ f.call = .idle ∧
    FeedRun true (fun _ => True) f f' ∧
    ∃ p ∈ f.workers.zip f'.workers, p.1.kind = .restPoll ∧ p.1.generation < f.generation ∧
      p.1.iterations < p.2.iterations := by
  obtain ⟨f, run, passes⟩ := exists_of_runActions .start
    (show (runActions true (Feed.started true ["U", "D"])
      [.worker 1, .setTokenIds ["U2", "D2"], .driver, .joinTimeout, .worker 0, .driver, .driver,
        .driver, .driver]).any (fun f : Feed => decide (f.call = .idle) &&
          (runActions true f [.worker 1, .worker 1, .worker 1]).any fun f' : Feed =>
            decide (∃ p ∈ f.workers.zip f'.workers, p.1.kind = .restPoll ∧
              p.1.generation < f.generation ∧ p.1.iterations < p.2.iterations)) = true
      by decide)
  simp only [Bool.and_eq_true, decide_eq_true_eq] at passes
  obtain ⟨f', later, outlived⟩ := exists_of_runActions .start passes.2
  exact ⟨f, f', run, passes.1, later, by simpa using outlived⟩

end PaperTrader
