import Mathlib.Data.List.Basic
import Mathlib.Logic.Function.Basic
import Mathlib.Order.MinMax

/-!
# Threads that send to a bounded queue

A `Sender` is a thread that takes inputs one after the other and on each may send one message. A
`Network` is a family of senders with one queue of bounded capacity between them and a receiver: a
sender with a message to send takes no further input until the send returns, which it does when
there is room, or with an error at any time.

The senders interleave in any order, so the order of the queue is not determined by the inputs. What
is determined is said by `Network.Faithful`: the queue is first in, first out, without loss or
duplication; each sender has tried to send exactly the messages that it would send if it ran alone
on the inputs it has taken; and the queue is never longer than its capacity (or than it was at the
start).
-/

set_option autoImplicit false

namespace SmartHome.Found

variable {α ι : Type*}

/-! ## A sender alone -/

/-- A thread that takes inputs and may send a message on each.
Source: none: infrastructure. Kind: D -/
structure Sender (α : Type*) where
  State : Type
  Input : Type
  start : State
  step : State → Input → State × Option α

/-- Its variables after some inputs. Source: none: infrastructure. Kind: D -/
def Sender.after (S : Sender α) (s : S.State) (xs : List S.Input) : S.State :=
  xs.foldl (fun s x => (S.step s x).1) s

/-- The messages it sends, from given variables. Source: none: infrastructure. Kind: D -/
def Sender.messagesFrom (S : Sender α) : S.State → List S.Input → List α
  | _, [] => []
  | s, x :: xs => (S.step s x).2.toList ++ S.messagesFrom (S.step s x).1 xs

/-- The messages it sends. Source: none: infrastructure. Kind: D -/
def Sender.messages (S : Sender α) (xs : List S.Input) : List α := S.messagesFrom S.start xs

theorem Sender.after_concat (S : Sender α) (s : S.State) (xs : List S.Input) (x : S.Input) :
    S.after s (xs ++ [x]) = (S.step (S.after s xs) x).1 := by
  simp [Sender.after]

theorem Sender.messagesFrom_concat (S : Sender α) (s : S.State) (xs : List S.Input) (x : S.Input) :
    S.messagesFrom s (xs ++ [x]) = S.messagesFrom s xs ++ (S.step (S.after s xs) x).2.toList := by
  induction xs generalizing s with
  | nil => simp [Sender.messagesFrom, Sender.after]
  | cons y xs ih =>
      rw [List.cons_append, Sender.messagesFrom, Sender.messagesFrom, ih, List.append_assoc]
      rfl

/-! ## The network -/

/-- A send that has returned: whose, of what, and whether it succeeded.
Source: none: infrastructure. Kind: D -/
structure SendResult (ι α : Type*) where
  sender : ι
  message : α
  ok : Bool
deriving DecidableEq

/-- Senders with the queue between them and the receiver. `inputs`, `results` and `taken` are the
record of an observer: the inputs each sender has taken, the sends that have returned, and the
messages the receiver has taken.
Source: none: infrastructure. Kind: D -/
structure Network (senders : ι → Sender α) where
  threads : ∀ i, (senders i).State
  sending : ι → Option α
  queue : List α
  inputs : ∀ i, List (senders i).Input
  results : List (SendResult ι α)
  taken : List α

/-- A sender takes an input, or its send returns.
Source: none: infrastructure. Kind: D -/
inductive SenderAct (senders : ι → Sender α) where
  | input (i : ι) (x : (senders i).Input)
  | send (i : ι) (ok : Bool)

variable {senders : ι → Sender α}

/-- Before the first step, with messages already in the queue.
Source: none: infrastructure. Kind: D -/
def Network.init (senders : ι → Sender α) (left : List α) : Network senders :=
  ⟨fun i => (senders i).start, fun _ => none, left, fun _ => [], [], []⟩

/-- The receiver takes the message at the front. Source: none: infrastructure. Kind: D -/
def Network.take (net : Network senders) : Network senders :=
  match net.queue with
  | [] => net
  | msg :: rest => { net with queue := rest, taken := net.taken ++ [msg] }

theorem Network.take_of_queue {net : Network senders} {msg : α} {rest : List α}
    (hqueue : net.queue = msg :: rest) :
    net.take = { net with queue := rest, taken := net.taken ++ [msg] } := by
  simp only [Network.take, hqueue]

/-- The messages that have got into the queue. Source: none: infrastructure. Kind: D -/
def Network.delivered (net : Network senders) : List α :=
  net.results.filterMap fun r => if r.ok then some r.message else none

section Steps

variable [DecidableEq ι]

/-- One step of a sender. A send succeeds when there is room; a step that is not enabled changes
nothing.
Source: none: infrastructure. Kind: D -/
def Network.step (capacity : ℕ) (net : Network senders) : SenderAct senders → Network senders
  | .input i x =>
      match net.sending i with
      | some _ => net
      | none =>
          let y := (senders i).step (net.threads i) x
          { net with
            threads := Function.update net.threads i y.1
            sending := Function.update net.sending i y.2
            inputs := Function.update net.inputs i (net.inputs i ++ [x]) }
  | .send i ok =>
      match net.sending i with
      | none => net
      | some msg =>
          if ok then
            if net.queue.length < capacity then
              { net with
                sending := Function.update net.sending i none
                queue := net.queue ++ [msg]
                results := net.results ++ [⟨i, msg, true⟩] }
            else net
          else
            { net with
              sending := Function.update net.sending i none
              results := net.results ++ [⟨i, msg, false⟩] }

/-- Senders take nothing from the queue. Source: none: infrastructure. Kind: L -/
theorem Network.taken_step (capacity : ℕ) (net : Network senders) (a : SenderAct senders) :
    (net.step capacity a).taken = net.taken := by
  cases a with
  | input i x =>
      simp only [Network.step]
      split <;> rfl
  | send i ok =>
      simp only [Network.step]
      split
      · rfl
      · split_ifs <;> rfl

/-- What a sender has tried to send. Source: none: infrastructure. Kind: D -/
def Network.attempts (net : Network senders) (i : ι) : List α :=
  net.results.filterMap fun r => if r.sender = i then some r.message else none

/-- **The invariant of a network**, whatever the order of the steps.
Source: none: infrastructure. Kind: D -/
structure Network.Faithful (capacity : ℕ) (left : List α) (net : Network senders) : Prop where
  fifo : left ++ net.delivered = net.taken ++ net.queue
  threads : ∀ i, net.threads i = (senders i).after (senders i).start (net.inputs i)
  attempts : ∀ i, (senders i).messages (net.inputs i) = net.attempts i ++ (net.sending i).toList
  room : net.queue.length ≤ max capacity left.length

variable {capacity : ℕ} {left : List α} {net : Network senders}

theorem Network.faithful_init (senders : ι → Sender α) (capacity : ℕ) (left : List α) :
    (Network.init senders left).Faithful capacity left :=
  ⟨by simp [Network.init, Network.delivered], fun _ => rfl, fun _ => rfl, le_max_right _ _⟩

/-- The receiver takes a message. Source: none: infrastructure. Kind: L -/
theorem Network.Faithful.take (h : net.Faithful capacity left) : net.take.Faithful capacity left := by
  unfold Network.take
  split
  · exact h
  · next msg rest hqueue =>
      refine ⟨?_, h.threads, h.attempts, ?_⟩
      · rw [List.append_assoc, List.singleton_append, ← hqueue]
        exact h.fifo
      · have hroom := h.room
        simp only [hqueue, List.length_cons] at hroom
        exact (Nat.le_succ _).trans hroom

/-- A sender takes an input. Source: none: infrastructure. Kind: L -/
theorem Network.Faithful.input (h : net.Faithful capacity left) (i : ι) (x : (senders i).Input) :
    (net.step capacity (.input i x)).Faithful capacity left := by
  cases hsending : net.sending i with
  | some msg => simpa only [Network.step, hsending] using h
  | none =>
      simp only [Network.step, hsending]
      refine ⟨h.fifo, fun j => ?_, fun j => ?_, h.room⟩
      · by_cases hj : j = i
        · subst hj
          simp only [Function.update_self, Sender.after_concat, ← h.threads j]
        · simp only [Function.update_of_ne hj, h.threads j]
      · by_cases hj : j = i
        · subst hj
          -- nothing was being sent, so all earlier messages have been tried
          have hold := h.attempts j
          rw [hsending, Option.toList_none, List.append_nil] at hold
          simp only [Function.update_self, Sender.messages, Sender.messagesFrom_concat, ← h.threads j]
          rw [← Sender.messages, hold]
          rfl
        · simp only [Function.update_of_ne hj]
          exact h.attempts j

/-- A send that returned has left the message to try. Source: none: infrastructure. Kind: L -/
theorem Network.attempts_of_returned {i : ι} {msg : α} (hsending : net.sending i = some msg) (ok : Bool)
    (j : ι) :
    ((net.results ++ [SendResult.mk i msg ok]).filterMap fun r =>
        if r.sender = j then some r.message else none) ++
          (Function.update net.sending i none j).toList =
      net.attempts j ++ (net.sending j).toList := by
  rw [List.filterMap_append, List.append_assoc]
  by_cases hj : j = i
  · subst hj
    simp [Network.attempts, hsending]
  · simp [Network.attempts, Function.update_of_ne hj, Ne.symm hj]

/-- A send returns. Source: none: infrastructure. Kind: L -/
theorem Network.Faithful.send (h : net.Faithful capacity left) (i : ι) (ok : Bool) :
    (net.step capacity (.send i ok)).Faithful capacity left := by
  cases hsending : net.sending i with
  | none => simpa only [Network.step, hsending] using h
  | some msg =>
      have hattempts : ∀ j, _ := fun j =>
        (h.attempts j).trans (Network.attempts_of_returned hsending ok j).symm
      cases ok with
      | true =>
          by_cases hroom : net.queue.length < capacity
          · simp only [Network.step, hsending, hroom, if_true]
            refine ⟨?_, h.threads, hattempts, ?_⟩
            · have hfifo := h.fifo
              unfold Network.delivered at hfifo ⊢
              rw [List.filterMap_append, ← List.append_assoc, hfifo, List.append_assoc]
              rfl
            · rw [List.length_append]
              exact (Nat.succ_le_of_lt hroom).trans (le_max_left _ _)
          · simpa only [Network.step, hsending, hroom, if_true, if_false] using h
      | false =>
          simp only [Network.step, hsending, Bool.false_eq_true, if_false]
          refine ⟨?_, h.threads, hattempts, h.room⟩
          have hfifo := h.fifo
          unfold Network.delivered at hfifo ⊢
          rw [List.filterMap_append, ← hfifo]
          simp

/-- **Every step keeps the invariant.** Source: none: infrastructure. Kind: P -/
theorem Network.Faithful.step (h : net.Faithful capacity left) (a : SenderAct senders) :
    (net.step capacity a).Faithful capacity left := by
  cases a with
  | input i x => exact h.input i x
  | send i ok => exact h.send i ok

/-- A message that got into the queue is one its sender sends on the inputs it has taken.
Source: none: infrastructure. Kind: L -/
theorem Network.Faithful.exists_sender (h : net.Faithful capacity left) {msg : α}
    (hmsg : msg ∈ net.delivered) : ∃ i, msg ∈ (senders i).messages (net.inputs i) := by
  obtain ⟨r, hr, hrm⟩ := List.mem_filterMap.mp hmsg
  split_ifs at hrm
  obtain rfl : r.message = msg := Option.some.inj hrm
  refine ⟨r.sender, ?_⟩
  rw [h.attempts r.sender]
  exact List.mem_append_left _ (List.mem_filterMap.mpr ⟨r, hr, if_pos rfl⟩)

end Steps

end SmartHome.Found
