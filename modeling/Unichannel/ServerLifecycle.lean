/-
# The life of the server (HttpServerTransport.h, HttpServerTransport.cpp)

`start` makes a thread for the event loop and stores its handle in `ioServiceRunThread_`
afterwards; `stop` interrupts the thread through this handle without a test.  It is called
by the user, by the signal handler, on a thread of the loop, and by the destructor.  Here
these calls are followed event by event: the loop can run, and get a signal, before the
handle is stored.  The life of the server ends when the destructor's `stop` returns.

A handler is one event, and so is what `stop` does behind the interruption.  The source has
nothing that keeps them apart on different threads, so the runs here are those in which no
two of them overlap.

* `no_null_interrupt`: `stop` finds the handle if no call enters it before a call of
  `start` has returned, and one that does can end the program;
* `runs_of_loop`: what the event loop does is part of this life, where a signal runs `stop`
  from its beginning to its end.
-/
import Unichannel.ServerShutdown

namespace Unichannel

/-! ## Threads and calls under way -/

/-- A thread of `runIoService`: in `ioService_.run()`, with the signal handler in `stop`,
or past it. -/
inductive IoThread
  | running
  | stopping
  | returned
  deriving DecidableEq, Repr

/-- A call of `start` after `isAlive_` was set: the thread is still to be made, or thread
`i` runs and its handle is still to be stored. -/
inductive StartCall
  | creating
  | storing (i : ℕ)
  deriving DecidableEq, Repr

/-- Who has called `stop`. -/
inductive StopCaller
  | user
  /-- The signal handler, on thread `i`. -/
  | handler (i : ℕ)
  | destructor
  deriving DecidableEq, Repr

/-- A call of `stop` after `isAlive_` was cleared, and whether it has called
`interrupt`. -/
structure TransportStop where
  caller : StopCaller
  interrupted : Bool
  deriving DecidableEq, Repr

/-- An `HttpServerTransport` with its threads and the calls under way.  `startsReturned`
counts the calls of `start` that have returned. -/
structure ServerProcess where
  server : HttpServerTransport
  ioServiceRunThread_ : Option ℕ
  threads : List IoThread
  starts : List StartCall
  stops : List TransportStop
  startsReturned : ℕ
  destructorCalled : Bool
  destroyed : Bool
  crashed : Bool

/-- The events in the life of a server. -/
inductive ProcessEvent
  /-- `start` is called. -/
  | start
  /-- The call number `k` of `start` makes its thread. -/
  | createThread (k : ℕ)
  /-- The call number `k` of `start` stores the handle and returns. -/
  | startReturns (k : ℕ)
  /-- The user calls `stop`. -/
  | stop
  /-- The destructor is called. -/
  | destroy
  /-- A signal is delivered on thread `i`. -/
  | signal (i : ℕ)
  /-- The call number `k` of `stop` interrupts the thread. -/
  | interrupt (k : ℕ)
  /-- The call number `k` of `stop` closes what is open and returns, while no handler runs. -/
  | stopReturns (k : ℕ)
  /-- Thread `i` runs the handler of a completed operation, while no other one runs. -/
  | handler (i : ℕ) (e : Event)
  /-- A consumer thread hands a stat to the request handler. -/
  | addStat (stat : LatencyStat.Ptr)
  /-- `ioService_.run()` returns on thread `i`. -/
  | runReturns (i : ℕ)

/-- The events that call `stop`. -/
def ProcessEvent.entersStop : ProcessEvent → Bool
  | .stop => true
  | .destroy => true
  | .signal _ => true
  | _ => false

/-- What `stop` does once the thread is interrupted, with no handler in between. -/
def HttpServerTransport.closeAll (s : HttpServerTransport) : HttpServerTransport :=
  (if s.acceptorOpen then { s with acceptorOpen := false } else s).stopAll

namespace ServerProcess

open GuardedSystem

/-! ## The events -/

/-- `stop` is called, and clears `isAlive_`. -/
def enterStop (s : ServerProcess) (caller : StopCaller) : ServerProcess :=
  { s with
    server := { s.server with isAlive_ := false }
    stops := s.stops ++ [⟨caller, false⟩] }

/-- What the return of `stop` means to its caller. -/
def leaveStop (s : ServerProcess) : StopCaller → ServerProcess
  | .user => s
  | .handler i => { s with threads := s.threads.set i .running }
  | .destructor => { s with destroyed := true }

/-- `ioService_.run()` has nothing left to wait for. -/
def outOfWork (s : ServerProcess) : Bool :=
  s.server.operations = 0 ∧ s.server.signalWait = false ∧ .stopping ∉ s.threads

/-- One event; `none` if it is not enabled.  A handler runs from its beginning to its end, and
so does the end of `stop`: handlers that overlap on several threads are left out. -/
def act (s : ServerProcess) : ProcessEvent → Option ServerProcess
  | .start =>
    some { s with
      server := { s.server with isAlive_ := true }
      starts := s.starts ++ [.creating] }
  | .createThread k =>
    match s.starts[k]? with
    | some .creating =>
      some { s with
        threads := s.threads ++ [.running]
        starts := s.starts.set k (.storing s.threads.length) }
    | _ => none
  | .startReturns k =>
    match s.starts[k]? with
    | some (.storing i) =>
      some { s with
        ioServiceRunThread_ := some i
        starts := s.starts.eraseIdx k
        startsReturned := s.startsReturned + 1 }
    | _ => none
  | .stop => some (s.enterStop .user)
  | .destroy =>
    if s.destructorCalled then none
    else some ({ s with destructorCalled := true }.enterStop .destructor)
  | .signal i =>
    if s.threads[i]? = some .running ∧ s.server.signalWait = true then
      some ({ s with
        server := { s.server with signalWait := false }
        threads := s.threads.set i .stopping }.enterStop (.handler i))
    else none
  | .interrupt k =>
    match s.stops[k]? with
    | some ⟨caller, false⟩ =>
      match s.ioServiceRunThread_ with
      | none => some { s with crashed := true }
      -- the loop has no interruption point, so the request has no effect on it
      | some _ => some { s with stops := s.stops.set k ⟨caller, true⟩ }
    | _ => none
  | .stopReturns k =>
    match s.stops[k]? with
    | some ⟨caller, true⟩ =>
      some ({ s with
        server := s.server.closeAll
        stops := s.stops.eraseIdx k }.leaveStop caller)
    | _ => none
  | .handler i e =>
    if s.threads[i]? = some .running ∧ e.isCompletion = true then
      (s.server.step e).map fun server => { s with server := server }
    else none
  | .addStat stat =>
    some { s with
      server := { s.server with reqHandler_ := s.server.reqHandler_.addStat stat } }
  | .runReturns i =>
    if s.threads[i]? = some .running ∧ s.outOfWork = true then
      some { s with threads := s.threads.set i .returned }
    else none

/-- Nothing happens to the server once it is destroyed, or the program has ended. -/
def step (s : ServerProcess) (e : ProcessEvent) : Option ServerProcess :=
  if s.crashed = true ∨ s.destroyed = true then none else s.act e

/-- The server after its constructor. -/
def constructed (docRoot : Bytes) : ServerProcess where
  server := { HttpServerTransport.initial docRoot with isAlive_ := false }
  ioServiceRunThread_ := none
  threads := []
  starts := []
  stops := []
  startsReturned := 0
  destructorCalled := false
  destroyed := false
  crashed := false

/-- What happens, happens in a program that runs and to a server that exists. -/
theorem step_eq_some {s s' : ServerProcess} {e : ProcessEvent} (hstep : s.step e = some s') :
    s.crashed = false ∧ s.destroyed = false ∧ s.act e = some s' := by
  unfold step at hstep
  split_ifs at hstep with hover
  rw [not_or, Bool.not_eq_true, Bool.not_eq_true] at hover
  exact ⟨hover.1, hover.2, hstep⟩

theorem step_of_act {s s' : ServerProcess} {e : ProcessEvent} (hcrashed : s.crashed = false)
    (hdestroyed : s.destroyed = false) (hact : s.act e = some s') : s.step e = some s' := by
  unfold step
  rw [if_neg (by simp [hcrashed, hdestroyed]), hact]

/-! ## What an event does to the handle and to the calls of `stop` -/

/-- The handle and the number of calls of `start` that have returned are as before. -/
def SameHandle (s s' : ServerProcess) : Prop :=
  s'.ioServiceRunThread_ = s.ioServiceRunThread_ ∧ s'.startsReturned = s.startsReturned

/-- What an event can do: a call of `start` returns, a call of `stop` begins, a call of
`stop` dereferences a null handle, or none of these. -/
inductive Effect (s : ServerProcess) (e : ProcessEvent) (s' : ServerProcess) : Prop
  | returns (i : ℕ) (henters : e.entersStop = false) (hhandle : s'.ioServiceRunThread_ = some i)
      (hreturned : s'.startsReturned = s.startsReturned + 1) (hstops : s'.stops = s.stops)
      (hcrashed : s'.crashed = s.crashed)
  | enters (caller : StopCaller) (henters : e.entersStop = true) (hsame : SameHandle s s')
      (hstops : s'.stops = s.stops ++ [⟨caller, false⟩]) (hcrashed : s'.crashed = s.crashed)
      (hdestroyed : s'.destroyed = s.destroyed)
  | crashes (henters : e.entersStop = false) (hcall : s.stops ≠ [])
      (hnull : s.ioServiceRunThread_ = none) (heq : s' = { s with crashed := true })
  | other (henters : e.entersStop = false) (hsame : SameHandle s s')
      (hstops : s.stops = [] → s'.stops = []) (hcrashed : s'.crashed = s.crashed)

theorem ne_nil_of_getElem? {α : Type*} {l : List α} {k : ℕ} {a : α} (h : l[k]? = some a) :
    l ≠ [] := by
  rintro rfl
  cases h

/-- **The effect of an event.** -/
theorem act_effect {s s' : ServerProcess} {e : ProcessEvent} (hact : s.act e = some s') :
    Effect s e s' := by
  cases e with
  | start =>
    cases hact
    exact .other rfl ⟨rfl, rfl⟩ id rfl
  | createThread k =>
    simp only [act] at hact
    split at hact
    · cases hact
      exact .other rfl ⟨rfl, rfl⟩ id rfl
    · cases hact
  | startReturns k =>
    simp only [act] at hact
    split at hact
    · rename_i i hk
      cases hact
      exact .returns i rfl rfl rfl rfl rfl
    · cases hact
  | stop =>
    cases hact
    exact .enters .user rfl ⟨rfl, rfl⟩ rfl rfl rfl
  | destroy =>
    simp only [act] at hact
    split_ifs at hact
    cases hact
    exact .enters .destructor rfl ⟨rfl, rfl⟩ rfl rfl rfl
  | signal i =>
    simp only [act] at hact
    split_ifs at hact
    cases hact
    exact .enters (.handler i) rfl ⟨rfl, rfl⟩ rfl rfl rfl
  | interrupt k =>
    simp only [act] at hact
    split at hact
    · rename_i caller hk
      split at hact
      · rename_i hnull
        cases hact
        exact .crashes rfl (ne_nil_of_getElem? hk) hnull rfl
      · cases hact
        refine .other rfl ⟨rfl, rfl⟩ ?_ rfl
        intro hnone
        exact absurd hnone (ne_nil_of_getElem? hk)
    · cases hact
  | stopReturns k =>
    simp only [act] at hact
    split at hact
    · rename_i caller hk
      cases hact
      have hnone : s.stops = [] → s.stops.eraseIdx k = [] :=
        fun hnone => absurd hnone (ne_nil_of_getElem? hk)
      cases caller with
      | user => exact .other rfl ⟨rfl, rfl⟩ hnone rfl
      | handler i => exact .other rfl ⟨rfl, rfl⟩ hnone rfl
      | destructor => exact .other rfl ⟨rfl, rfl⟩ hnone rfl
    · cases hact
  | handler i e =>
    simp only [act] at hact
    split_ifs at hact
    obtain ⟨server, -, rfl⟩ := Option.map_eq_some_iff.mp hact
    exact .other rfl ⟨rfl, rfl⟩ id rfl
  | addStat stat =>
    cases hact
    exact .other rfl ⟨rfl, rfl⟩ id rfl
  | runReturns i =>
    simp only [act] at hact
    split_ifs at hact
    cases hact
    exact .other rfl ⟨rfl, rfl⟩ id rfl

/-! ## The handle is there once a call of `start` has returned -/

/-- The handle is null exactly until a call of `start` has returned. -/
def HandleStored (s : ServerProcess) : Prop :=
  s.ioServiceRunThread_ = none ↔ s.startsReturned = 0

/-- **Step lemma.** -/
theorem handleStored_step {s s' : ServerProcess} {e : ProcessEvent} (h : HandleStored s)
    (hstep : s.step e = some s') : HandleStored s' := by
  have hkept : SameHandle s s' → HandleStored s' := by
    rintro ⟨hhandle, hreturned⟩
    unfold HandleStored
    rw [hhandle, hreturned]
    exact h
  cases act_effect (step_eq_some hstep).2.2 with
  | returns i _ hhandle hreturned =>
    unfold HandleStored
    rw [hhandle, hreturned]
    exact iff_of_false (fun hnone => by cases hnone) (Nat.succ_ne_zero _)
  | enters _ _ hsame => exact hkept hsame
  | crashes _ _ _ heq =>
    rw [heq]
    exact h
  | other _ hsame => exact hkept hsame

/-- A call that enters `stop` finds a call of `start` that has returned. -/
def StartedFirst (s : ServerProcess) (e : ProcessEvent) : Prop :=
  e.entersStop = true → 0 < s.startsReturned

instance : DecidableRel StartedFirst := fun s e =>
  inferInstanceAs (Decidable (e.entersStop = true → 0 < s.startsReturned))

/-- Only the calls of `stop` are restricted. -/
theorem startedFirst_of_not {s : ServerProcess} {e : ProcessEvent} (he : e.entersStop = false) :
    StartedFirst s e := by
  intro henters
  rw [he] at henters
  cases henters

/-- What holds of the life of a server whose calls of `stop` begin late enough. -/
structure Started (s : ServerProcess) : Prop where
  handle : HandleStored s
  returned : s.stops ≠ [] → 0 < s.startsReturned
  going : s.crashed = false

/-- **Step lemma.** -/
theorem started_step {s s' : ServerProcess} {e : ProcessEvent} (h : Started s)
    (hfirst : StartedFirst s e) (hstep : s.step e = some s') : Started s' := by
  have hhandle := handleStored_step h.handle hstep
  cases act_effect (step_eq_some hstep).2.2 with
  | returns i _ _ hreturned _ hcrashed =>
    refine ⟨hhandle, ?_, hcrashed.trans h.going⟩
    intro _
    omega
  | enters caller henters hsame _ hcrashed =>
    refine ⟨hhandle, ?_, hcrashed.trans h.going⟩
    intro _
    rw [hsame.2]
    exact hfirst henters
  | crashes _ hcall hnull _ =>
    -- a call of `stop` is under way, so the handle has been stored
    have hzero := h.handle.mp hnull
    have hpos := h.returned hcall
    omega
  | other _ hsame hstops hcrashed =>
    refine ⟨hhandle, ?_, hcrashed.trans h.going⟩
    intro hne
    rw [hsame.2]
    exact h.returned fun hnone => hne (hstops hnone)

variable {docRoot : Bytes}

/-- A new server has no handle, and no call of `start` has returned. -/
theorem handleStored_constructed : HandleStored (constructed docRoot) := iff_of_true rfl rfl

/-- In a new server nothing is called. -/
theorem started_constructed : Started (constructed docRoot) :=
  ⟨handleStored_constructed, fun hne => absurd rfl hne, rfl⟩

/-! ## A call of `stop` that comes too early -/

/-- Without a handle, a call of `stop` that has just begun can end the program. -/
theorem interrupt_null {s : ServerProcess} {caller : StopCaller} {stops : List TransportStop}
    (hcrashed : s.crashed = false) (hdestroyed : s.destroyed = false)
    (hnull : s.ioServiceRunThread_ = none) (hstops : s.stops = stops ++ [⟨caller, false⟩]) :
    s.step (.interrupt stops.length) = some { s with crashed := true } := by
  apply step_of_act hcrashed hdestroyed
  have hk : s.stops[stops.length]? = some ⟨caller, false⟩ := by
    rw [hstops, List.getElem?_concat_length]
  simp only [act, hk, hnull]

/-- **When `stop` finds the handle.**  In every run in which each call of `stop`, the user's,
the signal handler's or the destructor's, begins after a call of `start` has returned, no
null handle is dereferenced; and after any other call of `stop` has begun, in any run, the
next event can be that it does. -/
theorem no_null_interrupt (docRoot : Bytes) :
    (∀ es s, Runs step StartedFirst (constructed docRoot) es s → s.crashed = false)
      ∧ ∀ es s e s', Runs step anyStep (constructed docRoot) es s → s.step e = some s' →
        ¬ StartedFirst s e → ∃ k s'', s'.step (.interrupt k) = some s'' ∧ s''.crashed = true := by
  constructor
  · intro es s hrun
    exact (hrun.invariant started_constructed
      fun _ _ _ h hfirst hstep => started_step h hfirst hstep).going
  · intro es s e s' hrun hstep hearly
    have hhandle : HandleStored s := hrun.invariant handleStored_constructed
      fun _ _ _ h _ hstep => handleStored_step h hstep
    obtain ⟨hcrashed, hdestroyed, hact⟩ := step_eq_some hstep
    unfold StartedFirst at hearly
    push Not at hearly
    obtain ⟨henters, hzero⟩ := hearly
    have hnull := hhandle.mpr (Nat.eq_zero_of_le_zero hzero)
    have hother : e.entersStop ≠ false := by
      rw [henters]
      exact Bool.noConfusion
    cases act_effect hact with
    | returns i hnot => exact absurd hnot hother
    | enters caller _ hsame hstops hcrashed' hdestroyed' =>
      refine ⟨s.stops.length, { s' with crashed := true }, ?_, rfl⟩
      exact interrupt_null (hcrashed'.trans hcrashed) (hdestroyed'.trans hdestroyed)
        (hsame.1.trans hnull) hstops
    | crashes hnot => exact absurd hnot hother
    | other hnot => exact absurd hnot hother

/-- The server is started, stopped by a signal and destroyed. -/
def startedAndStopped : List ProcessEvent :=
  [.start, .createThread 0, .startReturns 0, .signal 0, .interrupt 0, .stopReturns 0, .destroy,
    .interrupt 0, .stopReturns 0]

/-- The loop is started, and the handle of its thread not stored yet. -/
def loopStarted : List ProcessEvent := [.start, .createThread 0]

theorem startedAndStopped_runs :
    (run step StartedFirst (constructed []) startedAndStopped).isSome = true := by
  decide +kernel

theorem loopStarted_runs : (run step anyStep (constructed []) loopStarted).isSome = true := by
  decide +kernel

theorem loopStarted_signal :
    (((run step anyStep (constructed []) loopStarted).get loopStarted_runs).step
      (.signal 0)).isSome = true := by
  decide +kernel

/-- The first of the two orders is harmless; in the second, a signal that comes now can end
the program. -/
theorem no_null_interrupt_example :
    ((run step StartedFirst (constructed []) startedAndStopped).get
        startedAndStopped_runs).crashed = false
      ∧ ∃ k s'', ((((run step anyStep (constructed []) loopStarted).get loopStarted_runs).step
          (.signal 0)).get loopStarted_signal).step (.interrupt k) = some s''
        ∧ s''.crashed = true :=
  ⟨(no_null_interrupt []).1 _ _ (runs_get startedAndStopped_runs),
    (no_null_interrupt []).2 _ _ _ _ (runs_get loopStarted_runs)
      (Option.some_get loopStarted_signal).symm (by decide +kernel)⟩

/-- The server is constructed and destroyed, without a call of `start`. -/
def neverStarted : List ProcessEvent := [.destroy, .interrupt 0]

theorem neverStarted_runs : (run step anyStep (constructed []) neverStarted).isSome = true := by
  decide +kernel

/-- The destructor can dereference null. -/
theorem not_never_null_interrupt :
    ¬ ∀ (docRoot : Bytes) (es : List ProcessEvent) (s : ServerProcess),
      Runs step anyStep (constructed docRoot) es s → s.crashed = false := by
  intro h
  have hcrashed := h [] _ _ (runs_get neverStarted_runs)
  exact absurd hcrashed (by decide +kernel)

/-! ## The event loop in the life of the server -/

/-- The server with its loop running on one thread, and no call under way. -/
def looping (server : HttpServerTransport) : ServerProcess where
  server := server
  ioServiceRunThread_ := some 0
  threads := [.running]
  starts := []
  stops := []
  startsReturned := 1
  destructorCalled := false
  destroyed := false
  crashed := false

/-- A call of `start` that is not interfered with leads to the running loop. -/
theorem runs_start (docRoot : Bytes) :
    Runs step StartedFirst (constructed docRoot) [.start, .createThread 0, .startReturns 0]
      (looping (.initial docRoot)) := by
  exact Runs.cons (startedFirst_of_not rfl) rfl
    (Runs.cons (startedFirst_of_not rfl) rfl (Runs.single (startedFirst_of_not rfl) rfl))

/-- An event of the loop is one of the running server: a handler that runs, and for a
signal the call of `stop` from its beginning to its end. -/
theorem runs_looping {server server' : HttpServerTransport} {e : Event} (he : e ≠ .stopAll)
    (hstep : server.step e = some server') :
    ∃ es, Runs step StartedFirst (looping server) es (looping server') := by
  have hfirst : ∀ e, StartedFirst (looping server) e := fun _ _ => Nat.one_pos
  have hhandler : e.isCompletion = true →
      ∃ es, Runs step StartedFirst (looping server) es (looping server') := by
    intro hcompletion
    refine ⟨[.handler 0 e], Runs.single (hfirst _) (step_of_act rfl rfl ?_)⟩
    show (if some IoThread.running = some IoThread.running ∧ e.isCompletion = true then
      (server.step e).map _ else none) = _
    rw [if_pos ⟨rfl, hcompletion⟩, hstep]
    rfl
  cases e with
  | acceptDone ec u => exact hhandler rfl
  | readDone i k ec r env => exact hhandler rfl
  | writeDone i k ec => exact hhandler rfl
  | stopAll => exact absurd rfl he
  | signal =>
    obtain ⟨hwait, rfl⟩ := HttpServerTransport.step_signal hstep
    have hsignal : (looping server).step (.signal 0)
        = some { looping { server with signalWait := false, isAlive_ := false } with
            threads := [.stopping]
            stops := [⟨.handler 0, false⟩] } := by
      apply step_of_act rfl rfl
      show (if some IoThread.running = some IoThread.running ∧ server.signalWait = true then
        some _ else none) = _
      rw [if_pos ⟨rfl, hwait⟩]
      rfl
    exact ⟨[.signal 0, .interrupt 0, .stopReturns 0], Runs.cons (hfirst _) hsignal
      (Runs.cons (startedFirst_of_not rfl) rfl (Runs.single (startedFirst_of_not rfl) rfl))⟩
  | addStat stat =>
    cases hstep
    exact ⟨[.addStat stat], Runs.single (hfirst _) rfl⟩

/-- **The loop's runs are part of the server's life**, as far as `stop_all` is called in
`stop` only. -/
theorem runs_of_loop {docRoot : Bytes} {es : List Event} {server : HttpServerTransport}
    (hrun : Runs HttpServerTransport.step (fun _ e => e ≠ .stopAll) (.initial docRoot) es server) :
    ∃ es', Runs step StartedFirst (constructed docRoot) es' (looping server) := by
  induction hrun with
  | nil => exact ⟨_, runs_start docRoot⟩
  | snoc _ he hstep ih =>
    obtain ⟨es₁, h₁⟩ := ih
    obtain ⟨es₂, h₂⟩ := runs_looping he hstep
    exact ⟨es₁ ++ es₂, h₁.append h₂⟩

end ServerProcess

end Unichannel
