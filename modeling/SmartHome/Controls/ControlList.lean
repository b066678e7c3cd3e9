import Mathlib.Data.List.Infix
import Mathlib.Logic.Function.Basic

/-!
# The control list: `control.h`, `control.c` and the registrations of `main`

Each module of the hub owns one static `struct control`; `add_interface_to_control_list` puts it
in front of the list by writing its `next` pointer (`addInterfaceToControlList`, on a heap of
nodes). `Chain heap p as` says that the nodes reached from `p` are, in order, those at the
addresses `as`, and then `NULL`; `chain_addInterface` is the effect of one registration on it, and
`chain_register` that of any number: the registered nodes, the latest first.

`mainControlPhead` runs the four registrations of `main`, and `chain_main` reads the result off:
receive, smoke, socket_control, voice. The handler's search walks such a chain; it is given the
records on it, head first (`mainControls`), and `voiceSearch` is its loop; `Handler/VoiceSearch.lean`
runs the same loop on the nodes themselves.
-/

set_option autoImplicit false

namespace SmartHome.Controls

/-- The part of a node the handler reads: its name, and whether `set` is not `NULL` (only
`voice_control` initialises it).
Source: `control.h` `struct control`
Kind: D -/
structure Control where
  controlName : String
  hasSet : Bool
deriving DecidableEq, Repr

/-- A node in memory: its contents and its `next` pointer.
Source: `control.h` `struct control`
Kind: D -/
structure Node where
  control : Control
  next : Option ℕ

/-- Puts the node at `controlInterface` in front of the list. The first registration does not
write `next`.
Source: `control.c` `add_interface_to_control_list`
Kind: D -/
def addInterfaceToControlList (heap : ℕ → Node) (phead : Option ℕ) (controlInterface : ℕ) :
    (ℕ → Node) × Option ℕ :=
  match phead with
  | none => (heap, some controlInterface)
  | some p =>
      (Function.update heap controlInterface { heap controlInterface with next := some p },
        some controlInterface)

/-- The nodes reached from `p` are those at the addresses of the list, and then `NULL`.
Source: none: infrastructure. Kind: D -/
def Chain (heap : ℕ → Node) : Option ℕ → List ℕ → Prop
  | p, [] => p = none
  | p, a :: as => p = some a ∧ Chain heap (heap a).next as

theorem chain_update_of_not_mem {heap : ℕ → Node} {a : ℕ} (n : Node) :
    ∀ {as : List ℕ} {p : Option ℕ}, a ∉ as → Chain heap p as →
      Chain (Function.update heap a n) p as
  | [], _, _, h => h
  | b :: as, p, ha, h => by
      rw [List.mem_cons, not_or] at ha
      refine ⟨h.1, ?_⟩
      rw [Function.update_of_ne (Ne.symm ha.1)]
      exact chain_update_of_not_mem n ha.2 h.2

/-- **One registration**: a node not yet on the chain, with `next` still `NULL`, becomes its head.
Source: `control.c` `add_interface_to_control_list`
Kind: P -/
theorem chain_addInterface {heap : ℕ → Node} {phead : Option ℕ} {as : List ℕ} {a : ℕ}
    (h : Chain heap phead as) (ha : a ∉ as) (hnext : (heap a).next = none) :
    Chain (addInterfaceToControlList heap phead a).1 (addInterfaceToControlList heap phead a).2
      (a :: as) := by
  cases phead with
  | none =>
      have has : as = [] := by
        cases as with
        | nil => rfl
        | cons b as => exact absurd h.1 (by simp)
      subst has
      exact ⟨rfl, hnext⟩
  | some p =>
      refine ⟨rfl, ?_⟩
      have hupd : (addInterfaceToControlList heap (some p) a).1 =
          Function.update heap a { heap a with next := some p } := rfl
      rw [hupd, Function.update_self]
      exact chain_update_of_not_mem _ ha h

/-- The nodes reached from a head are one list. Source: none: infrastructure. Kind: L -/
theorem Chain.unique {heap : ℕ → Node} :
    ∀ {as bs : List ℕ} {p : Option ℕ}, Chain heap p as → Chain heap p bs → as = bs
  | [], [], _, _, _ => rfl
  | [], _ :: _, _, h, h' => by rw [h] at h'; cases h'.1
  | _ :: _, [], _, h, h' => by rw [h'] at h; cases h.1
  | a :: as, b :: bs, _, h, h' => by
      obtain rfl : a = b := Option.some.inj (h.1.symm.trans h'.1)
      rw [Chain.unique h.2 h'.2]

/-! ## Any number of registrations -/

/-- The heap and the head after the nodes at the addresses `registered` were added, in this order,
to the empty list.
Source: `control.c` `add_interface_to_control_list`, called as in `main.c` `main`
Kind: D -/
def register (heap : ℕ → Node) (registered : List ℕ) : (ℕ → Node) × Option ℕ :=
  registered.foldl (fun s a => addInterfaceToControlList s.1 s.2 a) (heap, none)

theorem register_concat (heap : ℕ → Node) (registered : List ℕ) (a : ℕ) :
    register heap (registered ++ [a]) =
      addInterfaceToControlList (register heap registered).1 (register heap registered).2 a := by
  simp [register]

/-- A registration writes the registered node only. -/
theorem addInterfaceToControlList_of_ne {heap : ℕ → Node} {phead : Option ℕ} {a b : ℕ}
    (hne : b ≠ a) : (addInterfaceToControlList heap phead a).1 b = heap b := by
  cases phead with
  | none => rfl
  | some p => exact Function.update_of_ne hne _ _

/-- A registration writes no name and no `set`. -/
theorem control_addInterfaceToControlList (heap : ℕ → Node) (phead : Option ℕ) (a b : ℕ) :
    ((addInterfaceToControlList heap phead a).1 b).control = (heap b).control := by
  by_cases hba : b = a
  · subst hba
    cases phead with
    | none => rfl
    | some p => simp [addInterfaceToControlList]
  · rw [addInterfaceToControlList_of_ne hba]

theorem register_of_not_mem {heap : ℕ → Node} {registered : List ℕ} {b : ℕ} (hb : b ∉ registered) :
    (register heap registered).1 b = heap b := by
  induction registered using List.reverseRecOn with
  | nil => rfl
  | append_singleton registered a ih =>
      rw [List.mem_append, List.mem_singleton, not_or] at hb
      rw [register_concat, addInterfaceToControlList_of_ne hb.2, ih hb.1]

@[simp] theorem control_register (heap : ℕ → Node) (registered : List ℕ) (b : ℕ) :
    ((register heap registered).1 b).control = (heap b).control := by
  induction registered using List.reverseRecOn with
  | nil => rfl
  | append_singleton registered a ih =>
      rw [register_concat, control_addInterfaceToControlList, ih]

/-- **Any number of registrations**: distinct nodes with `next` still `NULL` end up on the chain,
the latest first.
Source: `control.c` `add_interface_to_control_list`
Kind: P -/
theorem chain_register {heap : ℕ → Node} {registered : List ℕ} (hnodup : registered.Nodup)
    (hnext : ∀ a ∈ registered, (heap a).next = none) :
    Chain (register heap registered).1 (register heap registered).2 registered.reverse := by
  induction registered using List.reverseRecOn with
  | nil => rfl
  | append_singleton registered a ih =>
      obtain ⟨hnodup, ha⟩ : registered.Nodup ∧ a ∉ registered := by
        rw [List.nodup_append] at hnodup
        exact ⟨hnodup.1, fun ha => hnodup.2.2 a ha a (List.mem_singleton_self a) rfl⟩
      have hchain := ih hnodup fun b hb => hnext b (List.mem_append_left _ hb)
      -- the node is still as it was at the start: only registered nodes were written
      have hstill : ((register heap registered).1 a).next = none := by
        rw [register_of_not_mem ha]
        exact hnext a (by simp)
      rw [register_concat, List.reverse_concat]
      exact chain_addInterface hchain (by rwa [List.mem_reverse]) hstill

/-! ## The list `main` builds -/

/-- `voice_control`, `socket_control`, `smoke_control` and `receive_control` as they are
initialised, at the addresses `0` to `3`; `next` is `NULL` in a static object.
Source: `voice_interface.c`, `socket_interface.c`, `smoke_interface.c`, `receive_interface.c`
Kind: D -/
def staticControls : ℕ → Node
  | 0 => ⟨⟨"voice", true⟩, none⟩
  | 1 => ⟨⟨"socket_control", false⟩, none⟩
  | 2 => ⟨⟨"smoke", false⟩, none⟩
  | _ => ⟨⟨"receive", false⟩, none⟩

theorem next_staticControls (a : ℕ) : (staticControls a).next = none := by
  unfold staticControls
  split <;> rfl

/-- The heap and `control_info->control_phead` after the registrations: voice, socket, smoke,
receive.
Source: `main.c` `main`
Kind: D -/
def mainControlPhead : (ℕ → Node) × Option ℕ :=
  [0, 1, 2, 3].foldl (fun s a => addInterfaceToControlList s.1 s.2 a) (staticControls, none)

/-- The nodes of `main`'s list, from the head.
Source: `main.c` `main`
Kind: P -/
theorem chain_main : Chain mainControlPhead.1 mainControlPhead.2 [3, 2, 1, 0] := by
  have hnodup : [0, 1, 2, 3].Nodup := by decide
  exact chain_register hnodup fun a _ => next_staticControls a

/-- What the handler finds on `main`'s list, from the head.
Source: `main.c` `main`
Kind: D -/
def mainControls : List Control := [3, 2, 1, 0].map fun a => (mainControlPhead.1 a).control

theorem mainControls_eq :
    mainControls =
      [⟨"receive", false⟩, ⟨"smoke", false⟩, ⟨"socket_control", false⟩, ⟨"voice", true⟩] := rfl

/-! ## The search for the voice module -/

/-- `strstr(haystack, needle)`. Source: none: infrastructure. Kind: D -/
def strstr (haystack needle : String) : Bool := decide (needle.toList <:+: haystack.toList)

/-- The first node whose name contains `voice`, if there is one; otherwise `while(pcontrol != NULL)`
ends the loop.
Source: `receive_interface.c` `receive_thread_handler`, the loop of the voice announcement
Kind: D -/
def voiceSearch : List Control → Option Control
  | [] => none
  | pcontrol :: next => if strstr pcontrol.controlName "voice" then some pcontrol else voiceSearch next

/-- On `main`'s list the search ends at the voice node, whose `set` is `voice_set`.
Source: `main.c` `main`
Kind: L -/
theorem voiceSearch_mainControls : voiceSearch mainControls = some ⟨"voice", true⟩ := by
  rw [mainControls_eq]
  decide

end SmartHome.Controls
