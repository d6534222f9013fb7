import Mathlib.Tactic

/-!
`net/event_loop.c`: the table of handlers by descriptor, and the registrations
with `epoll`.

A handler record says which function is called and with which connection. The
connection is the one the pointer `ctx` points to; connections are named by
`ConnId`, the accept and signal handlers have a context of their own.
-/

namespace Nproxy

/-- The name of a connection object, in place of its address. -/
abbrev ConnId := ℕ

/-- A set of event bits. -/
structure Events where
  /-- `EV_READ`, `EPOLLIN` -/
  read : Bool
  /-- `EV_WRITE`, `EPOLLOUT` -/
  write : Bool
  /-- `EV_HUP`, `EPOLLRDHUP` -/
  hup : Bool
  /-- `EPOLLERR` -/
  err : Bool
  /-- `EV_EDGE`, `EPOLLET` -/
  edge : Bool
  deriving DecidableEq, Repr

/-- `EV_READ | EV_HUP | EV_EDGE`. -/
def evR : Events := ⟨true, false, true, false, true⟩

/-- `EV_WRITE | EV_HUP | EV_EDGE`. -/
def evW : Events := ⟨false, true, true, false, true⟩

/-- `EV_WRITE | EV_READ | EV_HUP | EV_EDGE`. -/
def evRW : Events := ⟨true, true, true, false, true⟩

/-- The function and context of a handler. -/
inductive EvFn where
  /-- `on_accept_event` with the worker -/
  | accept
  /-- `signal_handler` -/
  | signal
  /-- `on_client_event` with a connection -/
  | client (ctx : ConnId)
  /-- `proxy_on_upstream_event` with a connection -/
  | upstream (ctx : ConnId)
  deriving DecidableEq, Repr

/-- `ev_handler_t`. -/
structure EvHandler where
  fn : EvFn
  fd : ℤ
  deriving DecidableEq, Repr

/-- `event_loop_t`: the array `handlers`, and what `epoll` has registered. -/
structure EventLoop where
  handlers : ℤ → Option EvHandler
  interest : ℤ → Option Events
  maxFd : ℤ

/-- `event_loop_create`. -/
def eventLoopCreate : EventLoop := ⟨fun _ => none, fun _ => none, 65536⟩

/-- The part of `loop_ctl` that sets the handler record. The record is written
before `epoll_ctl` is called, and stays when that fails. -/
def EventLoop.setHandler (l : EventLoop) (fd : ℤ) (fn : EvFn) : EventLoop :=
  { l with handlers := Function.update l.handlers fd (some ⟨fn, fd⟩) }

/-- `event_loop_add`; `epoll_ctl` refuses a descriptor that is registered. -/
def eventLoopAdd (l : EventLoop) (fd : ℤ) (events : Events) (fn : EvFn) : EventLoop :=
  if fd ≥ l.maxFd then l
  else
    let l := l.setHandler fd fn
    if (l.interest fd).isSome then l
    else { l with interest := Function.update l.interest fd (some events) }

/-- `event_loop_mod`; `epoll_ctl` refuses a descriptor that is not registered. -/
def eventLoopMod (l : EventLoop) (fd : ℤ) (events : Events) (fn : EvFn) : EventLoop :=
  if fd ≥ l.maxFd then l
  else
    let l := l.setHandler fd fn
    if (l.interest fd).isSome then
      { l with interest := Function.update l.interest fd (some events) }
    else l

/-- `event_loop_del`. -/
def eventLoopDel (l : EventLoop) (fd : ℤ) : EventLoop :=
  if fd ≥ l.maxFd then l
  else { l with
    handlers := Function.update l.handlers fd none
    interest := Function.update l.interest fd none }

/-- What `close(2)` does to the registrations. -/
def EventLoop.forget (l : EventLoop) (fd : ℤ) : EventLoop :=
  { l with interest := Function.update l.interest fd none }

/-! ### Which handlers there are afterwards -/

variable {l : EventLoop} {fd fd' : ℤ} {events : Events} {fn : EvFn} {h : EvHandler}

@[simp] lemma EventLoop.forget_handlers (l : EventLoop) (fd : ℤ) :
    (l.forget fd).handlers = l.handlers := rfl

@[simp] lemma eventLoopAdd_maxFd : (eventLoopAdd l fd events fn).maxFd = l.maxFd := by
  rw [eventLoopAdd]
  split
  · rfl
  · simp only
    split <;> rfl

@[simp] lemma eventLoopMod_maxFd : (eventLoopMod l fd events fn).maxFd = l.maxFd := by
  rw [eventLoopMod]
  split
  · rfl
  · simp only
    split <;> rfl

@[simp] lemma eventLoopDel_maxFd : (eventLoopDel l fd).maxFd = l.maxFd := by
  rw [eventLoopDel]
  split <;> rfl

@[simp] lemma EventLoop.forget_maxFd : (l.forget fd).maxFd = l.maxFd := rfl

/-- Adding a descriptor sets its handler, if the table reaches that far. -/
lemma eventLoopAdd_handlers : (eventLoopAdd l fd events fn).handlers =
    if fd ≥ l.maxFd then l.handlers else Function.update l.handlers fd (some ⟨fn, fd⟩) := by
  rw [eventLoopAdd]
  split
  · rfl
  · simp only
    split <;> rfl

lemma eventLoopMod_handlers : (eventLoopMod l fd events fn).handlers =
    if fd ≥ l.maxFd then l.handlers else Function.update l.handlers fd (some ⟨fn, fd⟩) := by
  rw [eventLoopMod]
  split
  · rfl
  · simp only
    split <;> rfl

/-- Deleting a descriptor clears its handler. -/
lemma eventLoopDel_handlers : (eventLoopDel l fd).handlers =
    if fd ≥ l.maxFd then l.handlers else Function.update l.handlers fd none := by
  rw [eventLoopDel]
  split <;> rfl

end Nproxy
