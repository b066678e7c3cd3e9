import SmartHome.Found.Pool
import SmartHome.Handler.Steps
import SmartHome.Queue.ReceiveGet

/-!
# The receiver, its handlers and the announcements, interleaved

`System` is the command side of the hub after `receive_init`: the memory the handlers share, the
thread `receive_get`, one `HandlerThread` for each `pthread_create` it has made (a handler's number is
its position), and the announcement threads, which `voice_set` makes write six bytes of the frame
buffer to the serial line at some later moment. `dequeued` and `serial` are the record of an observer:
the messages for which `receive_get` goes on to start a handler, and what was written to the line.

`System.step` is one step of one party. A label that is not enabled changes nothing, and nothing
moves once the process has died. All handlers get the same `receive_msg`, so there is one frame
buffer.

`System.step_induction` says once what each label does; the invariants of the later files are proved
from it.
-/

set_option autoImplicit false

namespace SmartHome.Concurrent

open SmartHome.Device SmartHome.Controls SmartHome.Found SmartHome.Handler SmartHome.Queue

/-- The command side of the hub.
Source: `receive_interface.c` `receive_get`, `receive_thread_handler`
Kind: D -/
structure System where
  mem : Memory
  recv : ReceiveGet
  handlers : List HandlerThread
  dequeued : List (List Byte)
  serial : List (List Byte)
deriving DecidableEq

/-- Who moves, and what the environment answers: the message queue, or `face_score`.
Source: `receive_interface.c` `receive_get`, `receive_thread_handler`, `voice_interface.c` `voice_set`
Kind: D -/
inductive Act where
  | mqReceive (result : Option (List Byte))
  | memcpy
  | pthreadCreate
  | handler (tid : ℕ) (score : ℚ)
  | voiceSet
deriving DecidableEq

/-- After `receive_init` and the set-up of `receive_get`.
Source: `receive_interface.c` `receive_get`
Kind: D -/
def System.init (pdevhead : List Gdevice) : System :=
  ⟨⟨pdevhead, clearedBuffer, [], none⟩, ReceiveGet.init, [], [], []⟩

/-- How many announcement threads have been started. Source: none: infrastructure. Kind: D -/
def announcements (events : List (ℕ × Event)) : ℕ :=
  events.countP fun e => match e.2 with
    | .startSet _ => true
    | _ => false

/-- One step of the hub.
Source: `receive_interface.c` `receive_get`, `receive_thread_handler`, `voice_interface.c` `voice_set`
Kind: D -/
def System.step (controlPhead : List Control) (s : System) (a : Act) : System :=
  if s.mem.crashed.isSome then s
  else match a with
    | .mqReceive result =>
        if s.recv.pc = .receiving then
          let recv := Queue.mqReceive result s.recv
          { s with
            recv := recv
            dequeued := s.dequeued ++ if recv.pc = .marked then result.toList else [] }
        else s
    | .memcpy =>
        if s.recv.pc = .marked then
          { s with
            mem := { s.mem with buffer := memcpyFrame s.recv s.mem.buffer }
            recv := { s.recv with pc := .copied } }
        else s
    | .pthreadCreate =>
        if s.recv.pc = .copied then
          { s with
            recv := { s.recv with pc := .receiving }
            handlers := s.handlers ++ [HandlerThread.init] }
        else s
    | .handler tid score =>
        match s.handlers[tid]? with
        | none => s
        | some h =>
            let x := h.step controlPhead score tid s.mem
            { s with mem := x.1, handlers := s.handlers.set tid x.2 }
    | .voiceSet =>
        -- `serialSendstring(serial_fd, buffer, 6)` of a thread that has not written yet
        if s.serial.length < announcements s.mem.events then
          { s with serial := s.serial ++ [s.mem.buffer.take 6] }
        else s

/-- Runs of the hub from a device table.
Source: none: infrastructure. Kind: D -/
def System.after (controlPhead : List Control) (pdevhead : List Gdevice) (acts : List Act) : System :=
  run (System.step controlPhead) (System.init pdevhead) acts

/-! ## The step, label by label -/

variable {controlPhead : List Control} {s : System}

/-- **What a step can be**: nothing, one of the three moves of `receive_get`, a step of one handler, or
an announcement that is pending. An invariant is preserved when it is preserved by each of the five.
Source: `receive_interface.c` `receive_get`, `receive_thread_handler`
Kind: P -/
theorem System.step_induction_of_pending {P : System → Prop} (a : Act) (hstay : P s)
    (hreceive : ∀ result, a = .mqReceive result → s.recv.pc = .receiving →
      P { s with
        recv := Queue.mqReceive result s.recv
        dequeued := s.dequeued ++
          if (Queue.mqReceive result s.recv).pc = .marked then result.toList else [] })
    (hmemcpy : a = .memcpy → s.recv.pc = .marked →
      P { s with
        mem := { s.mem with buffer := memcpyFrame s.recv s.mem.buffer }
        recv := { s.recv with pc := .copied } })
    (hcreate : s.recv.pc = .copied →
      P { s with
        recv := { s.recv with pc := .receiving }
        handlers := s.handlers ++ [HandlerThread.init] })
    (hhandler : ∀ tid score h, a = .handler tid score → s.handlers[tid]? = some h →
      P { s with
        mem := (h.step controlPhead score tid s.mem).1
        handlers := s.handlers.set tid (h.step controlPhead score tid s.mem).2 })
    (hvoice : s.serial.length < announcements s.mem.events →
      P { s with serial := s.serial ++ [s.mem.buffer.take 6] }) :
    P (s.step controlPhead a) := by
  unfold System.step
  by_cases hcrashed : s.mem.crashed.isSome = true
  · rw [if_pos hcrashed]
    exact hstay
  · rw [if_neg hcrashed]
    cases a with
    | mqReceive result =>
        by_cases hpc : s.recv.pc = .receiving
        · simpa only [hpc, if_true] using hreceive result rfl hpc
        · simpa only [hpc, if_false] using hstay
    | memcpy =>
        by_cases hpc : s.recv.pc = .marked
        · simpa only [hpc, if_true] using hmemcpy rfl hpc
        · simpa only [hpc, if_false] using hstay
    | pthreadCreate =>
        by_cases hpc : s.recv.pc = .copied
        · simpa only [hpc, if_true] using hcreate hpc
        · simpa only [hpc, if_false] using hstay
    | handler tid score =>
        cases hh : s.handlers[tid]? with
        | none => simpa only [hh] using hstay
        | some h => simpa only [hh] using hhandler tid score h rfl hh
    | voiceSet =>
        simp only
        split_ifs with hpending
        · exact hvoice hpending
        · exact hstay

/-- The same where it does not matter whether the announcement was pending. -/
theorem System.step_induction {P : System → Prop} (a : Act) (hstay : P s)
    (hreceive : ∀ result, a = .mqReceive result → s.recv.pc = .receiving →
      P { s with
        recv := Queue.mqReceive result s.recv
        dequeued := s.dequeued ++
          if (Queue.mqReceive result s.recv).pc = .marked then result.toList else [] })
    (hmemcpy : a = .memcpy → s.recv.pc = .marked →
      P { s with
        mem := { s.mem with buffer := memcpyFrame s.recv s.mem.buffer }
        recv := { s.recv with pc := .copied } })
    (hcreate : s.recv.pc = .copied →
      P { s with
        recv := { s.recv with pc := .receiving }
        handlers := s.handlers ++ [HandlerThread.init] })
    (hhandler : ∀ tid score h, a = .handler tid score → s.handlers[tid]? = some h →
      P { s with
        mem := (h.step controlPhead score tid s.mem).1
        handlers := s.handlers.set tid (h.step controlPhead score tid s.mem).2 })
    (hvoice : P { s with serial := s.serial ++ [s.mem.buffer.take 6] }) :
    P (s.step controlPhead a) :=
  System.step_induction_of_pending a hstay hreceive hmemcpy hcreate hhandler fun _ => hvoice

end SmartHome.Concurrent
