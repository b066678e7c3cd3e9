import SmartHome.Device.IniHandler
import SmartHome.Handler.VoiceSearch

/-!
# When a command crashes the hub

`receive_thread_handler` guards `pcur_gdevice` around the command itself and then reads it
unguarded: for the voice test, for the OLED text, for the relock. The search of the control list
advances `pcontrol` and prints its name before testing it, but on `main`'s list it stops at the
voice node in time (`pcontrol_ne_none_main`). So a run reads through `NULL` exactly when it was
started for a code, other than `0x40`, that no record of the table has (`exists_ok_iff`); the face
score and the status byte play no part.
-/

set_option autoImplicit false

namespace SmartHome.Handler

open SmartHome.Device SmartHome.Controls

/-- On `main`'s control list a run gets through exactly when its code is dropped or found.
Source: `receive_interface.c` `receive_thread_handler`
Kind: P -/
theorem exists_ok_iff (score : ℚ) (pdevhead : List Gdevice) (buffer : List Byte) :
    (∃ out, receiveThreadHandler mainControls score pdevhead buffer = .ok out) ↔
      byteAt buffer 2 = 0x40 ∨ (findGdeviceByKey pdevhead (byteAt buffer 2).asInt).isSome := by
  by_cases h40 : byteAt buffer 2 = 0x40
  · exact iff_of_true ⟨_, receiveThreadHandler_of_skip mainControls h40⟩ (Or.inl h40)
  · rcases hfind : findGdeviceByKey pdevhead (byteAt buffer 2).asInt with _ | d
    · rw [receiveThreadHandler_of_find_none mainControls h40 hfind]
      simp [h40]
    · obtain ⟨pdev, hg, -⟩ := exists_getElem?_of_find hfind
      exact iff_of_true ⟨_, receiveThreadHandler_of_find h40 hfind hg⟩ (Or.inr rfl)

/-- On `main`'s list the cursor of the search is never `NULL`.
Source: `main.c` `main`, `receive_interface.c` `receive_thread_handler`
Kind: L -/
theorem pcontrol_ne_none_main {s : Search}
    (hs : s.Reaches mainControlPhead.1 mainControlPhead.2) : s.pcontrol ≠ none := by
  have hvoice : NamedVoice (mainControlPhead.1 0).control := by decide
  exact pcontrol_ne_none chain_main (by decide) hvoice hs

/-- **Which commands the hub survives**: on a table built by any sequence of configuration entries,
a frame is handled without reading through `NULL`, and without a `NULL` cursor in the voice search,
if and only if its code is `0x40` or the key of some record.
Source: `receive_interface.c` `receive_thread_handler`, `gdevice_ini_handler`
Kind: P -/
theorem receiveThreadHandler_safe_iff (calls : List IniCall) (code status : Byte) (score : ℚ) :
    ((∃ out, receiveThreadHandler mainControls score (gdeviceTable calls) (frame code status) =
          .ok out) ∧
        ∀ s : Search, s.Reaches mainControlPhead.1 mainControlPhead.2 → s.pcontrol ≠ none) ↔
      code = 0x40 ∨ (findGdeviceByKey (gdeviceTable calls) code.asInt).isSome :=
  (and_iff_left fun _ hs => pcontrol_ne_none_main hs).trans
    (exists_ok_iff score (gdeviceTable calls) (frame code status))

/-- On the shipped configuration the frame with code `0x50` kills the hub.
Source: `receive_interface.c` `receive_thread_handler`, `ini/gdevice.ini`
Kind: L -/
theorem receiveThreadHandler_unknown_code_crashes :
    ¬ ∀ (calls : List IniCall) (code status : Byte) (score : ℚ),
      ∃ out, receiveThreadHandler mainControls score (gdeviceTable calls) (frame code status) =
        .ok out := by
  intro h
  obtain ⟨out, hout⟩ := h shippedCalls 0x50 0 0
  have hnone : findGdeviceByKey (gdeviceTable shippedCalls) (byteAt (frame 0x50 0) 2).asInt = none := by
    rw [gdeviceTable_shippedCalls]
    decide
  rw [receiveThreadHandler_of_find_none mainControls (by decide) hnone] at hout
  cases hout

end SmartHome.Handler
